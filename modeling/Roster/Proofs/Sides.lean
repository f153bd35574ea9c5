import Mathlib.Data.List.Nodup
import Roster.Postgres.Notifier
import Roster.Postgres.Repository
import Roster.Proofs.Exchanges
/-! # What each side of a pair is sent

All that changes anything goes to the master. The replica is opened for reading only and is asked for
accounts or for a sign of life, whatever the databases answer. -/
namespace Roster

namespace Sql.Statement

/-- How the statements begin that have something changed or announced. -/
def verbs : List String := ["INSERT ", "UPDATE ", "DELETE ", "CREATE ", "SELECT pg_notify("]

/-- The statement has something changed or announced. -/
def Alters (s : Statement) : Prop := ∃ verb ∈ verbs, verb.toList <+: s.text.toList

/-- The statement asks for accounts or for a sign of life. -/
def Reads (s : Statement) : Prop :=
  s = .ping ∨ ∃ conditions limit offset, s = .select conditions limit offset

/-- How every query for accounts begins. -/
def selection : String := "SELECT " ++ Column.list ++ " FROM users"

theorem text_select (conditions : List (FilterKey × String)) (limit offset : Nat) :
    ∃ rest, (select conditions limit offset).text = selection ++ rest := ⟨_, rfl⟩

private theorem verbs_apart : ∀ verb ∈ verbs,
    verb.toList.length ≤ selection.toList.length ∧ ¬ verb.toList <+: selection.toList ∧
      ¬ verb.toList <+: ping.text.toList := by
  decide +kernel

theorem Reads.not_alters {s : Statement} (h : s.Reads) : ¬ s.Alters := by
  rintro ⟨verb, hverb, hverb'⟩
  obtain ⟨hlength, hselect, hping⟩ := verbs_apart verb hverb
  rcases h with rfl | ⟨conditions, limit, offset, rfl⟩
  · exact hping hverb'
  · obtain ⟨rest, htext⟩ := text_select conditions limit offset
    rw [htext, String.toList_append] at hverb'
    exact hselect (List.prefix_of_prefix_length_le hverb' (List.prefix_append _ _) hlength)

end Sql.Statement

/-- The account that a command is to change or to remove. -/
def Command.target? : Command → Option String
  | .update id _ => some id
  | .delete id => some id
  | .create _ | .get .. => none

namespace Postgres

variable {σ : Type} {peers : Peers σ} {side : Side} {s : Sql.Statement} {p q : Pair σ}

@[simp] theorem Pair.traffic_withPool (p : Pair σ) (side : Side) (pool : Pool) :
    (p.withPool side pool).traffic = p.traffic := by cases side <;> rfl

/-- The session that a side is asked for. -/
def Pair.opening (p : Pair σ) (side : Side) : Side × Packet :=
  (side, .session (sessionFor side (p.pool side).endpoint))

/-- Taking a session out sends nothing, or asks for a session that the side may refuse. -/
inductive Acquired (peers : Peers σ) (side : Side) (p : Pair σ) : Except Chain Unit × Pair σ → Prop
  | unasked {result : Except Chain Unit} {q : Pair σ} (hpeers : q.peers = p.peers)
      (htraffic : q.traffic = p.traffic) : Acquired peers side p (result, q)
  | asked {result : Except Chain Unit} {q : Pair σ} (hpeers : q.peers = p.peers)
      (htraffic : q.traffic = p.traffic ++ [p.opening side])
      (hresult : result = ((peers.refusal side p.peers).map reported).elim (.ok ()) .error) :
      Acquired peers side p (result, q)

theorem acquired_openSession (peers : Peers σ) (side : Side) (p : Pair σ) :
    Acquired peers side p ((openSession peers side (p.pool side).endpoint).exec p) := by
  let asked : Pair σ := { p with traffic := p.traffic ++ [p.opening side] }
  cases hmode : (p.pool side).endpoint.sslMode? with
  | error refused =>
    have hexec : (openSession peers side (p.pool side).endpoint).exec p =
        (.error [refused.message], p) := by simp [openSession, hmode]
    exact hexec ▸ .unasked rfl rfl
  | ok mode =>
    cases hplain : insistsOnEncryption mode with
    | true =>
      have hexec : (openSession peers side (p.pool side).endpoint).exec p =
          (.error noEncryption, p) := by
        simp [openSession, hmode, hplain]
      exact hexec ▸ .unasked rfl rfl
    | false =>
      have hexec : (openSession peers side (p.pool side).endpoint).exec p =
          (((peers.refusal side p.peers).map reported).elim (.ok ()) .error, asked) := by
        cases hrefusal : peers.refusal side p.peers <;>
          simp [openSession, Exchange.exec_bind, hmode, hplain, hrefusal, asked, Pair.opening]
      exact hexec ▸ .asked rfl rfl rfl

theorem acquired_acquire (peers : Peers σ) (side : Side) (p : Pair σ) :
    Acquired peers side p ((acquire peers side).exec p) := by
  by_cases hclosed : (p.pool side).closed = true
  · have hexec : (acquire peers side).exec p = (.error poolClosed, p) := by
      simp [acquire, Exchange.exec_bind, hclosed]
    exact hexec ▸ .unasked rfl rfl
  · by_cases hidle : 0 < (p.pool side).idle
    · let taken : Pool := { p.pool side with idle := (p.pool side).idle - 1 }
      have hexec : (acquire peers side).exec p = (.ok (), p.withPool side taken) := by
        simp [acquire, Exchange.exec_bind, hclosed, hidle, taken]
      exact hexec ▸ .unasked (p.peers_withPool side taken) (p.traffic_withPool side taken)
    · by_cases hheld : (p.pool side).endpoint.maxConnections.toNat ≤ (p.pool side).held
      · have hexec : (acquire peers side).exec p = (.error poolTimedOut, p) := by
          simp [acquire, Exchange.exec_bind, hclosed, hidle, hheld]
        exact hexec ▸ .unasked rfl rfl
      · have hexec : (acquire peers side).exec p =
            (openSession peers side (p.pool side).endpoint).exec p := by
          simp [acquire, Exchange.exec_bind, hclosed, hidle, hheld]
        exact hexec ▸ acquired_openSession peers side p

/-- A statement that is sent is sent once, and its answer is the result. One that is not sent fails,
with the message of the side if it was that which refused the session. -/
inductive Executed (peers : Peers σ) (side : Side) (s : Sql.Statement) (p : Pair σ) :
    Except Chain Answer × Pair σ → Prop
  | unsent {cause : Chain} {q : Pair σ} {opened : List (Side × Packet)}
      (htraffic : q.traffic = p.traffic ++ opened)
      (hopened : opened = [] ∨ opened = [p.opening side] ∧
        ∀ m, peers.refusal side p.peers = some m → cause = reported m) :
      Executed peers side s p (.error cause, q)
  | sent {q : Pair σ} {opened : List (Side × Packet)}
      (htraffic : q.traffic = p.traffic ++ opened ++ [(side, .statement s)])
      (hopened : opened = [] ∨ opened = [p.opening side] ∧ peers.refusal side p.peers = none) :
      Executed peers side s p ((peers.answer side s p.peers).1.mapError reported, q)

theorem executed_execute (peers : Peers σ) (side : Side) (s : Sql.Statement) (p : Pair σ) :
    Executed peers side s p ((execute peers side s).exec p) := by
  have hacquired := acquired_acquire peers side p
  rcases hexec : (acquire peers side).exec p with ⟨result, q⟩
  rw [hexec] at hacquired
  cases result with
  | error cause =>
    have hfailed : (execute peers side s).exec p = (.error cause, q) := by
      simp only [execute, Exchange.exec_bind, hexec]
    rw [hfailed]
    cases hacquired with
    | unasked hpeers htraffic => exact .unsent (htraffic.trans (List.append_nil _).symm) (.inl rfl)
    | asked hpeers htraffic hresult =>
      refine .unsent htraffic (.inr ⟨rfl, fun m hm => ?_⟩)
      rw [hm] at hresult
      exact Except.error.inj hresult
  | ok _ =>
    let answered : Pair σ :=
      { q with
        peers := (peers.answer side s q.peers).2
        traffic := q.traffic ++ [(side, .statement s)] }
    let back : Pool := { answered.pool side with idle := (answered.pool side).idle + 1 }
    have hdone (hpeers : q.peers = p.peers) : (execute peers side s).exec p =
        ((peers.answer side s p.peers).1.mapError reported, answered.withPool side back) := by
      simp only [execute, Exchange.exec_bind, hexec, exec_ask, release, Exchange.exec_changePool]
      rw [← hpeers]
      cases (peers.answer side s q.peers).1 <;> rfl
    have htraffic' : (answered.withPool side back).traffic = q.traffic ++ [(side, .statement s)] :=
      Pair.traffic_withPool _ _ _
    cases hacquired with
    | unasked hpeers htraffic =>
      rw [hdone hpeers]
      have hnone : q.traffic = p.traffic ++ [] := htraffic.trans (List.append_nil _).symm
      exact .sent (htraffic'.trans (by rw [hnone])) (.inl rfl)
    | asked hpeers htraffic hresult =>
      rw [hdone hpeers]
      refine .sent (htraffic'.trans (by rw [htraffic])) (.inr ⟨rfl, ?_⟩)
      cases hrefusal : peers.refusal side p.peers with
      | none => rfl
      | some m => simp [hrefusal] at hresult

/-- What a session of the replica is opened with. -/
def readOnly : String := "-c default_transaction_read_only=on"

/-- What a side may be sent. -/
def Allowed : Side × Packet → Prop
  | (.master, _) => True
  | (.replica, .session s) => s.options = some readOnly
  | (.replica, .statement s) => s.Reads

/-- Nothing is sent between two states of a pair but what the sides may be sent. -/
def Pair.Leads (p q : Pair σ) : Prop :=
  ∃ sent, q.traffic = p.traffic ++ sent ∧ ∀ e ∈ sent, Allowed e

theorem Pair.Leads.of_eq (h : q.traffic = p.traffic) : p.Leads q :=
  ⟨[], h.trans (List.append_nil _).symm, by simp⟩

theorem Pair.Leads.trans {r : Pair σ} (hpq : p.Leads q) (hqr : q.Leads r) : p.Leads r := by
  obtain ⟨first, hq, hfirst⟩ := hpq
  obtain ⟨second, hr, hsecond⟩ := hqr
  refine ⟨first ++ second, by rw [hr, hq, List.append_assoc], ?_⟩
  exact List.forall_mem_append.mpr ⟨hfirst, hsecond⟩

theorem allowed_opening (p : Pair σ) (side : Side) : Allowed (p.opening side) := by
  cases side
  · trivial
  · rfl

theorem allowed_of_opened {opened : List (Side × Packet)} {P : Prop}
    (h : opened = [] ∨ opened = [p.opening side] ∧ P) : ∀ e ∈ opened, Allowed e := by
  rcases h with rfl | ⟨rfl, -⟩
  · simp
  · simpa using allowed_opening p side

namespace Exchange

variable {α β : Type}

/-- The exchange sends nothing but what the sides may be sent. -/
def Proper (x : Exchange σ α) : Prop := ∀ p : Pair σ, p.Leads (x.exec p).2

theorem proper_bind {x : Exchange σ α} {f : α → Exchange σ β} (hx : x.Proper)
    (hf : ∀ a, (f a).Proper) : (x >>= f).Proper := by
  intro p
  have hfirst := hx p
  rw [exec_bind]
  rcases hexec : x.exec p with ⟨_ | a, q⟩
  · rwa [hexec] at hfirst
  · rw [hexec] at hfirst
    exact hfirst.trans (hf a q)

theorem exec_within (context : String) (x : Exchange σ α) (p : Pair σ) :
    (within context x).exec p = ((x.exec p).1.mapError (context :: ·), (x.exec p).2) := by
  change ((x.adapt (context :: ·)).run.run p : Id _) = _
  rw [ExceptT.run_adapt]
  rfl

theorem Proper.within {x : Exchange σ α} (hx : x.Proper) (context : String) :
    (within context x).Proper := fun p => by
  rw [exec_within]
  exact hx p

theorem proper_pure (a : α) : (pure a : Exchange σ α).Proper := fun _ => .of_eq rfl

theorem proper_forIn (as : List α) (b : β) {f : α → β → Exchange σ (ForInStep β)}
    (hf : ∀ a b, (f a b).Proper) : (forIn as b f).Proper := by
  induction as generalizing b with
  | nil => exact proper_pure b
  | cons a as ih =>
    rw [List.forIn_cons]
    refine proper_bind (hf a b) fun step => ?_
    cases step with
    | done b => exact proper_pure b
    | yield b => exact ih b

theorem proper_throw (chain : Chain) : (throw chain : Exchange σ α).Proper := fun _ => .of_eq rfl

theorem proper_get : (get : Exchange σ (Pair σ)).Proper := fun _ => .of_eq rfl

theorem proper_changePool (side : Side) (f : Pool → Pool) :
    (changePool side f : Exchange σ Unit).Proper := fun p => .of_eq (p.traffic_withPool side _)

end Exchange

open Exchange

theorem proper_acquire (peers : Peers σ) (side : Side) : (acquire peers side).Proper := by
  intro p
  have hacquired := acquired_acquire peers side p
  generalize (acquire peers side).exec p = done at hacquired
  cases hacquired with
  | unasked _ htraffic => exact .of_eq htraffic
  | asked _ htraffic _ => exact ⟨_, htraffic, by simpa using allowed_opening p side⟩

theorem proper_execute (peers : Peers σ) (h : Allowed (side, .statement s)) :
    (execute peers side s).Proper := by
  intro p
  have hexecuted := executed_execute peers side s p
  generalize (execute peers side s).exec p = done at hexecuted
  cases hexecuted with
  | unsent htraffic hopened => exact ⟨_, htraffic, allowed_of_opened hopened⟩
  | sent htraffic hopened =>
    refine ⟨_, htraffic.trans (List.append_assoc _ _ _), ?_⟩
    exact List.forall_mem_append.mpr ⟨allowed_of_opened hopened, by simpa using h⟩

theorem proper_release (side : Side) : (release side : Exchange σ Unit).Proper :=
  proper_changePool side _

theorem proper_ask (peers : Peers σ) (h : Allowed (side, .statement s)) :
    (ask peers side s).Proper := fun p => by
  rw [exec_ask]
  exact ⟨_, rfl, by simpa using h⟩

theorem proper_checkMode (e : Endpoint) : (checkMode e : Exchange σ Unit).Proper := by
  unfold checkMode
  split
  · exact proper_pure _
  · exact proper_throw _

theorem proper_reach (peers : Peers σ) (side : Side) : (reach peers side).Proper := by
  refine proper_bind proper_get fun p => proper_bind (proper_checkMode _) fun _ => ?_
  exact (proper_bind (proper_acquire peers side) fun _ => proper_release side).within _

theorem proper_connect (peers : Peers σ) : (connect peers).Proper :=
  proper_bind (proper_reach peers .master) fun _ => proper_reach peers .replica

theorem proper_connectLazily : (connectLazily : Exchange σ Unit).Proper :=
  proper_bind proper_get fun _ => proper_bind (proper_checkMode _) fun _ =>
    proper_bind proper_get fun _ => proper_checkMode _

theorem proper_migrate (peers : Peers σ) : (migrate peers).Proper := by
  have hmaster (s : Sql.Statement) : (execute peers .master s).Proper := proper_execute peers trivial
  refine proper_bind ((hmaster _).within _) fun _ => ?_
  refine proper_bind (proper_forIn indexed _ fun key _ => ?_) fun _ => proper_pure _
  exact proper_bind ((hmaster _).within _) fun _ => proper_pure _

theorem proper_probe (peers : Peers σ) : (probe peers).Proper := by
  have hmaster : (execute peers .master .ping).Proper := proper_execute peers trivial
  have hreplica : (execute peers .replica .ping).Proper :=
    proper_execute peers (Or.inl rfl : Sql.Statement.Reads .ping)
  exact proper_bind (hmaster.within _) fun _ => proper_bind (hreplica.within _) fun _ =>
    proper_pure _

theorem proper_listen (peers : Peers σ) (channel : String) :
    (Notifier.listen peers channel).Proper := by
  refine proper_bind (proper_acquire peers .master) fun _ => ?_
  refine proper_bind (proper_ask peers trivial) fun result => ?_
  split
  · exact proper_changePool _ _
  · exact proper_bind (proper_release _) fun _ => proper_throw _

/-- A pair, and the notifier over its master. -/
structure Backend (σ : Type) where
  pair : Pair σ
  notifier : Notifier := {}

/-- What a pair is used for, and what happens to it meanwhile. -/
inductive Use (σ : Type)
  | connect
  | connectLazily
  | migrate
  | probe
  | attempt (a : Attempt)
  | publish (e : Envelope)
  | subscribe (name : String)
  | unsubscribe (name : String)
  | closeNotifier
  /-- Loops see that the notifier was closed. -/
  | ended (sees : Listener → Bool)
  /-- The loop of a listener whose session broke opens another one. -/
  | retried (l : Listener)
  | closePair
  /-- The master sends a payload to whoever listens. -/
  | notified (payload : String)
  /-- The master cuts all sessions. -/
  | cut (message : String)
  /-- The databases change on their own account. -/
  | changed (databases : σ)

namespace Backend

def after (peers : Peers σ) (b : Backend σ) : Use σ → Backend σ
  | .connect => { b with pair := ((Postgres.connect peers).exec b.pair).2 }
  | .connectLazily => { b with pair := (Postgres.connectLazily.exec b.pair).2 }
  | .migrate => { b with pair := ((Postgres.migrate peers).exec b.pair).2 }
  | .probe => { b with pair := ((Postgres.probe peers).exec b.pair).2 }
  | .attempt a => { b with pair := (repository peers a b.pair).state }
  | .publish e =>
    let (notifier, pair, _) := b.notifier.publish peers b.pair e
    { notifier, pair }
  | .subscribe name =>
    let (notifier, pair, _) := b.notifier.subscribe peers b.pair name
    { notifier, pair }
  | .unsubscribe name =>
    let (notifier, pair, _) := b.notifier.unsubscribe b.pair name
    { notifier, pair }
  | .closeNotifier => { b with notifier := b.notifier.close }
  | .ended sees =>
    let (notifier, pair) := b.notifier.finish b.pair sees
    { notifier, pair }
  | .retried l =>
    let (notifier, pair, _) := b.notifier.retry peers b.pair l
    { notifier, pair }
  | .closePair => { b with pair := Postgres.close b.pair }
  | .notified payload => { b with notifier := (b.notifier.received payload).1 }
  | .cut message =>
    let (notifier, pair, _) := b.notifier.cut b.pair message
    { notifier, pair }
  | .changed databases => { b with pair := { b.pair with peers := databases } }

def course (peers : Peers σ) (b : Backend σ) (run : List (Use σ)) : Backend σ :=
  run.foldl (after peers) b

end Backend

theorem leads_repository (peers : Peers σ) (a : Attempt) (p : Pair σ) :
    p.Leads (repository peers a p).state := by
  unfold repository
  dsimp only
  split
  · exact .of_eq rfl
  · have hallowed : Allowed ((statement a.draw a.command).1,
        .statement (statement a.draw a.command).2) := by
      cases a.command with
      | get conditions page => exact Or.inr ⟨_, _, _, rfl⟩
      | _ => trivial
    exact proper_execute peers hallowed p

theorem leads_publish (peers : Peers σ) (n : Notifier) (p : Pair σ) (e : Envelope) :
    p.Leads (n.publish peers p e).2.1 := by
  unfold Notifier.publish
  split
  · exact .of_eq rfl
  · have hmaster : (execute peers .master (.notify n.channel e.encode)).Proper :=
      proper_execute peers trivial
    exact hmaster p

theorem leads_subscribe (peers : Peers σ) (n : Notifier) (p : Pair σ) (name : String) :
    p.Leads (n.subscribe peers p name).2.1 := by
  have hlisten := proper_listen peers n.channel p
  unfold Notifier.subscribe
  split
  · exact .of_eq rfl
  · rcases hexec : (Notifier.listen peers n.channel).exec p with ⟨_ | _, q⟩
    · rwa [hexec] at hlisten
    · rw [hexec] at hlisten
      exact hlisten.trans (.of_eq (Pair.traffic_withPool _ _ _))

theorem leads_retry (peers : Peers σ) (n : Notifier) (p : Pair σ) (l : Listener) :
    p.Leads (n.retry peers p l).2.1 := by
  have hlisten := proper_listen peers n.channel p
  unfold Notifier.retry
  rcases hexec : (Notifier.listen peers n.channel).exec p with ⟨_ | _, q⟩ <;> rwa [hexec] at hlisten

theorem leads_finish (n : Notifier) (p : Pair σ) (sees : Listener → Bool) :
    p.Leads (n.finish p sees).2 := by
  unfold Notifier.finish
  split
  · exact .of_eq (Pair.traffic_withPool _ _ _)
  · exact .of_eq rfl

namespace Backend

theorem leads_after (peers : Peers σ) (b : Backend σ) (u : Use σ) :
    b.pair.Leads (b.after peers u).pair := by
  cases u with
  | connect => exact proper_connect peers b.pair
  | connectLazily => exact proper_connectLazily b.pair
  | migrate => exact proper_migrate peers b.pair
  | probe => exact proper_probe peers b.pair
  | attempt a => exact leads_repository peers a b.pair
  | publish e => exact leads_publish peers b.notifier b.pair e
  | subscribe name => exact leads_subscribe peers b.notifier b.pair name
  | retried l => exact leads_retry peers b.notifier b.pair l
  | ended sees => exact leads_finish b.notifier b.pair sees
  | unsubscribe _ | cut _ => exact .of_eq (Pair.traffic_withPool _ _ _)
  | closeNotifier | closePair | notified _ | changed _ => exact .of_eq rfl

theorem leads_course (peers : Peers σ) (b : Backend σ) (run : List (Use σ)) :
    b.pair.Leads (b.course peers run).pair := by
  induction run generalizing b with
  | nil => exact .of_eq rfl
  | cons u run ih => exact (b.leads_after peers u).trans (ih _)

end Backend

/-- The statements among what is sent. -/
def statements (sent : List (Side × Packet)) : List (Side × Sql.Statement) :=
  sent.filterMap fun
    | (side, .statement s) => some (side, s)
    | (_, .session _) => none

theorem statements_append (sent more : List (Side × Packet)) :
    statements (sent ++ more) = statements sent ++ statements more := List.filterMap_append

theorem statements_of_opened {opened : List (Side × Packet)} {P : Prop}
    (h : opened = [] ∨ opened = [p.opening side] ∧ P) : statements opened = [] := by
  rcases h with rfl | ⟨rfl, -⟩ <;> rfl

/-- An answer of no row is the only one that finds no account. -/
theorem reply_eq_notFound_iff {draw : Draw} {command : Command} {answer : Answer} :
    (∃ operation, reply draw command answer = .error (.notFound operation)) ↔
      command.target?.isSome ∧ answer.affected = 0 := by
  cases command <;> by_cases h : answer.affected = 0 <;> simp [reply, Command.target?, h]

theorem operation_of_reply {draw : Draw} {command : Command} {answer : Answer}
    {e : RepositoryError} (h : reply draw command answer = .error e) :
    e.operation = command.name := by
  have hnotFound : e = .notFound command.name := by
    cases command <;> by_cases h0 : answer.affected = 0 <;> simp_all [reply]
  rw [hnotFound]
  rfl

/-- The answer to the statement of an attempt, should it be sent. -/
def Peers.answerTo (peers : Peers σ) (a : Attempt) (p : Pair σ) : Except String Answer :=
  (peers.answer (statement a.draw a.command).1 (statement a.draw a.command).2 p.peers).1

/-- How an attempt ends that has sent these things: its statement is sent at most once and its answer
is the result, no account is found exactly if the answer is one of no row, and every other failure is
one of the command. -/
structure Concludes (peers : Peers σ) (a : Attempt) (p : Pair σ) (sent : List (Side × Packet))
    (run : Run (Pair σ)) : Prop where
  traffic : run.state.traffic = p.traffic ++ sent
  once : statements sent = [] ∨ statements sent = [statement a.draw a.command]
  unsent : a.awaited = true → statements sent = [] →
    ∃ cause, run.result = some (.error (.persistence a.command.name cause))
  answered : ∀ answer, statements sent = [statement a.draw a.command] →
    peers.answerTo a p = .ok answer → run.result = some (reply a.draw a.command answer)
  missing : (∃ operation, run.result = some (.error (.notFound operation))) ↔
    a.command.target?.isSome ∧ statements sent = [statement a.draw a.command] ∧
      ∃ answer, peers.answerTo a p = .ok answer ∧ answer.affected = 0
  failed : ∀ m, statements sent = [statement a.draw a.command] → peers.answerTo a p = .error m →
    run.result = some (.error (.persistence a.command.name (reported m)))
  refused : ∀ m, p.opening (statement a.draw a.command).1 ∈ sent →
    peers.refusal (statement a.draw a.command).1 p.peers = some m →
    run.result = some (.error (.persistence a.command.name (reported m)))
  named : ∀ e, run.result = some (.error e) → e.operation = a.command.name

section

variable {a : Attempt} {opened : List (Side × Packet)}

theorem concludes_of_abandoned (peers : Peers σ) {a : Attempt} (h : a.awaited = false) (p : Pair σ) :
    Concludes peers a p [] { result := none, state := p } where
  traffic := (List.append_nil _).symm
  once := .inl rfl
  unsent := by simp [h]
  answered := by simp [statements]
  missing := by simp [statements]
  failed := by simp [statements]
  refused := by simp
  named := by simp

theorem concludes_of_unsent {cause : Chain} (htraffic : q.traffic = p.traffic ++ opened)
    (hopened : opened = [] ∨ opened = [p.opening (statement a.draw a.command).1] ∧
      ∀ m, peers.refusal (statement a.draw a.command).1 p.peers = some m → cause = reported m) :
    Concludes peers a p opened
      { result := some (.error (.persistence a.command.name cause)), state := q } := by
  have hnone : statements opened = [] := statements_of_opened hopened
  refine ⟨htraffic, .inl hnone, fun _ _ => ⟨cause, rfl⟩, by simp [hnone], by simp [hnone],
    by simp [hnone], fun m hmem hrefusal => ?_, ?_⟩
  · rcases hopened with rfl | ⟨-, hcause⟩
    · simp at hmem
    · rw [hcause m hrefusal]
  · rintro e he
    cases he
    rfl

theorem concludes_of_sent
    (htraffic : q.traffic = p.traffic ++ opened ++
      [((statement a.draw a.command).1, .statement (statement a.draw a.command).2)])
    (hopened : opened = [] ∨ opened = [p.opening (statement a.draw a.command).1] ∧
      peers.refusal (statement a.draw a.command).1 p.peers = none) :
    Concludes peers a p
      (opened ++ [((statement a.draw a.command).1, .statement (statement a.draw a.command).2)])
      { state := q
        result := some <|
          match (peers.answerTo a p).mapError reported with
          | .ok answer => reply a.draw a.command answer
          | .error cause => .error (.persistence a.command.name cause) } := by
  have hone : statements (opened ++
      [((statement a.draw a.command).1, .statement (statement a.draw a.command).2)]) =
      [statement a.draw a.command] := by
    rw [statements_append, statements_of_opened hopened]
    rfl
  refine ⟨htraffic.trans (List.append_assoc _ _ _), .inr hone, by simp [hone], ?_, ?_, ?_, ?_, ?_⟩
  · intro answer _ hanswer
    rw [hanswer]
    rfl
  · cases hanswer : peers.answerTo a p with
    | error m => simp [Except.mapError]
    | ok answer => simp [Except.mapError, hone, reply_eq_notFound_iff]
  · intro m _ hanswer
    rw [hanswer]
    rfl
  · intro m hmem hrefusal
    rcases hopened with rfl | ⟨-, hnone⟩
    · simp [Pair.opening] at hmem
    · rw [hnone] at hrefusal
      cases hrefusal
  · intro e he
    cases hanswer : peers.answerTo a p with
    | error m =>
      simp only [hanswer, Except.mapError, Option.some.injEq, Except.error.injEq] at he
      rw [← he]
      rfl
    | ok answer =>
      simp only [hanswer, Except.mapError, Option.some.injEq] at he
      exact operation_of_reply he

end

theorem concludes_repository (peers : Peers σ) (a : Attempt) (p : Pair σ) :
    ∃ sent, Concludes peers a p sent (repository peers a p) := by
  unfold repository
  dsimp only
  split
  · rename_i hgiven
    exact ⟨[], concludes_of_abandoned peers (by simpa using hgiven) p⟩
  · have hexecuted := executed_execute peers (statement a.draw a.command).1
      (statement a.draw a.command).2 p
    generalize (execute peers (statement a.draw a.command).1
      (statement a.draw a.command).2).exec p = done at hexecuted ⊢
    cases hexecuted with
    | unsent htraffic hopened => exact ⟨_, concludes_of_unsent htraffic hopened⟩
    | sent htraffic hopened => exact ⟨_, concludes_of_sent htraffic hopened⟩

/-- However the databases answer, and whatever else a pair is used for: every statement that changes
or announces something goes to the master, and the replica is opened for reading only and is asked
for nothing but accounts or a sign of life. Every attempt that follows sends at most its one
statement, finds no account exactly if the change was accepted with no row affected, and turns every
other failure into one with its name. -/
theorem sides_kept_apart (peers : Peers σ) {b : Backend σ} (hb : b.pair.traffic = [])
    (run : List (Use σ)) :
    let p := (b.course peers run).pair
    (∀ side s, (side, .statement s) ∈ p.traffic →
      (s.Alters → side = .master) ∧ (side = .replica → s.Reads)) ∧
    (∀ session, (.replica, .session session) ∈ p.traffic → session.options = some readOnly) ∧
    ∀ a, ∃ sent, Concludes peers a p sent (repository peers a p) := by
  intro p
  obtain ⟨sent, htraffic, hallowed⟩ := b.leads_course peers run
  have hsent : p.traffic = sent := by rw [htraffic, hb, List.nil_append]
  rw [hsent]
  refine ⟨fun side s hs => ?_, fun session hs => hallowed _ hs, fun a => ?_⟩
  · have hs' := hallowed _ hs
    cases side with
    | master => exact ⟨fun _ => rfl, nofun⟩
    | replica => exact ⟨fun h => absurd h hs'.not_alters, fun _ => hs'⟩
  · exact concludes_repository peers a p

/-- Databases that answer one thing after the other, and at last that no row is affected. -/
def scripted : Peers (List (Except String Answer)) where
  refusal _ _ := none
  answer _ _
    | [] => (.ok {}, [])
    | answer :: rest => (answer, rest)

/-- The master fails a probe and refuses an announcement. Of what is sent the replica gets its session
and a query, and an account that is then to be changed is not found. -/
theorem sides_kept_apart_of_failures :
    let b : Backend (List (Except String Answer)) :=
      { pair :=
          { master := { endpoint := {} }, replica := { endpoint := {} }
            peers := [.error "gone", .ok { affected := 1 }, .error "full"] } }
    let run : List (Use (List (Except String Answer))) :=
      [.probe, .attempt { draw := ⟨"a", .epoch⟩, command := .create {} }, .publish { id := "a" },
        .attempt { draw := ⟨"x", .epoch⟩, command := .get .empty ⟨1, 2⟩ }]
    let p := (b.course scripted run).pair
    let a : Attempt := { draw := ⟨"x", .epoch⟩, command := .update "b" {} }
    b.pair.traffic = [] ∧
      p.traffic.map (·.1) = [.master, .master, .master, .master, .replica, .replica] ∧
      (repository scripted a p).result = some (.error (.notFound "update")) ∧
      ∃ sent, Concludes scripted a p sent (repository scripted a p) := by
  intro b run p a
  obtain ⟨-, -, hattempts⟩ := sides_kept_apart scripted (b := b) rfl run
  have hp : p = (b.course scripted run).pair := rfl
  refine ⟨rfl, by decide +kernel, by decide +kernel, ?_⟩
  rw [hp]
  exact hattempts a

end Postgres

end Roster
