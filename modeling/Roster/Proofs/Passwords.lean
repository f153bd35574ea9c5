import Mathlib.Data.List.Forall2
import Roster.Proofs.Announcements
import Roster.Proofs.Veil
/-! # Passwords cannot be told from outside

Two runs of a server take the same steps with other passwords. Step by step they bring the same to
light, whether changes are announced at once or at any later time, and behind the veil the servers
are left in the same state. -/
namespace Roster

/-- What a step brings to light: what it returns, what is noted and logged of it, and what
subscribers receive. -/
structure Shown where
  result : Option (Except OperationError Response) := none
  reply : Option Channel.Reply := none
  probe : Option Bool := none
  notes : Notes := []
  meanwhile : List Event := []
  background : List Event := []
  deliveries : List Delivery := []

namespace Server

def veiled (s : Server) : Server := { s with store := s.store.veiled }

/-- The actions differ in passwords at most. -/
inductive Action.Indistinct : Action → Action → Prop
  | call {c : ClientCall} {request : Request} (h : c.request.Indistinct request) :
      Indistinct (.call c) (.call { c with request })
  | same (a : Action) : Indistinct a a

def shown (s : Server) : Action → Shown
  | .call c =>
    let step := s.call c
    { result := step.value, notes := step.notes, meanwhile := step.meanwhile
      background := step.background, deliveries := step.deliveries }
  | .channel action =>
    let round := (s.channel.perform action).2
    { reply := some round.reply, deliveries := round.deliveries }
  | .advance ms => { background := (s.advance ms).background }
  | .checkNow => { probe := s.checkNow.value, notes := s.checkNow.notes }
  | .setFailing _ | .setReachable _ | .closeRepository | .shutDown => {}

/-- What the actions of a run bring to light, each with the counts after it. -/
def exposed (s : Server) : List Action → List (Shown × Counts)
  | [] => []
  | a :: rest => (s.shown a, (s.after a).counts) :: (s.after a).exposed rest

theorem stack_discreet {s : Server} (hs : s.core = .users) : Service.Discreet s.stack := by
  have htraced : (if s.tracedRepository then MemoryStore.repository.traced
      else MemoryStore.repository).Discreet := by
    split
    · exact Repository.traced_discreet Repository.store_discreet
    · exact Repository.store_discreet
  have hrepository : s.repository.Discreet := by
    unfold repository
    dsimp only
    split
    · exact Repository.reported_discreet htraced s.reporter
    · exact htraced
  have hinner : Service.Discreet s.innermost := by
    simp only [innermost, hs]
    exact Service.users_discreet hrepository _ _
  exact Service.pipeline_discreet hinner _ _

/-- The server with other rows in its store. -/
def withRows (s : Server) (rows : List User) : Server := { s with store := { s.store with rows } }

theorem eq_withRows {s t : Server} (h : s.veiled = t.veiled) :
    ∃ rows, s = t.withRows rows ∧ rows.map (·.veiled) = t.store.rows.map (·.veiled) := by
  have hstore := congrArg Server.store h
  have hrows := congrArg MemoryStore.rows hstore
  refine ⟨s.store.rows, ?_, hrows⟩
  obtain ⟨_, _, _, _, _, _, ⟨_, _, _⟩, _, _, _, _, _, _⟩ := s
  simp only [veiled, mk.injEq, MemoryStore.veiled, MemoryStore.mk.injEq] at h
  simp only [withRows, h]

theorem veiled_withRows (s : Server) {rows : List User}
    (h : rows.map (·.veiled) = s.store.rows.map (·.veiled)) : (s.withRows rows).veiled = s.veiled := by
  simp only [withRows, veiled, MemoryStore.veiled, h]

end Server

def Step.veiled {α : Type} (s : Step α) : Step α := { s with server := s.server.veiled }

namespace Server

section

variable {t : Server} {rows : List User} (h : rows.map (·.veiled) = t.store.rows.map (·.veiled))
include h

theorem run_withRows (ht : t.core = .users) (draw : Draw) {op op' : Operation}
    (hop : op.Indistinct op') : ((t.withRows rows).run draw op).veiled = (t.run draw op').veiled := by
  have hstore : (t.withRows rows).store.veiled = t.store.veiled := by
    simp only [withRows, MemoryStore.veiled, h]
  have hcall := stack_discreet ht draw hop hstore
  have hstack : (t.withRows rows).stack = t.stack := rfl
  -- Both steps are made in the same way from calls that are alike behind the veil.
  simp only [run, hstack, hop.request.accept]
  generalize t.stack draw op (t.withRows rows).store = call at hcall
  generalize t.stack draw op' t.store = call' at hcall
  obtain ⟨result, notes, state, elapsed, announced⟩ := call
  obtain ⟨result', notes', state', elapsed', announced'⟩ := call'
  obtain ⟨rfl, rfl, hstate, rfl, rfl⟩ := Call.mk.inj hcall
  simp only [Step.veiled, finish, veiled, hstate]
  rfl

theorem call_withRows (ht : t.core = .users) {c : ClientCall} {request : Request}
    (hr : c.request.Indistinct request) :
    ((t.withRows rows).call c).veiled = (t.call { c with request }).veiled :=
  run_withRows (t := t.entering c) h ht c.draw ⟨rfl, hr⟩

theorem announced_withRows (ht : t.core = .users) {c : ClientCall} {request : Request}
    (hr : c.request.Indistinct request) :
    (t.withRows rows).announced c = t.announced { c with request } := by
  have hstore : (t.withRows rows).store.veiled = t.store.veiled := by
    simp only [withRows, MemoryStore.veiled, h]
  have hop : (operation (t.withRows rows) c).Indistinct (t.operation { c with request }) := ⟨rfl, hr⟩
  have hcall := stack_discreet (s := t.entering c) ht c.draw hop hstore
  have hannounced := congrArg Call.announced hcall
  exact hannounced

theorem shown_withRows (ht : t.core = .users) {a a' : Action} (ha : a.Indistinct a') :
    (t.withRows rows).shown a = t.shown a' ∧
      ((t.withRows rows).after a).veiled = (t.after a').veiled := by
  have hcall {c : ClientCall} {request : Request} (hr : c.request.Indistinct request) :
      (t.withRows rows).shown (.call c) = t.shown (.call { c with request }) ∧
        ((t.withRows rows).after (.call c)).veiled = (t.after (.call { c with request })).veiled := by
    obtain ⟨hvalue, hnotes, hmeanwhile, hbackground, hdeliveries, hserver⟩ :=
      Step.mk.inj (call_withRows h ht hr)
    refine ⟨?_, hserver⟩
    simp only [shown, hvalue, hnotes, hmeanwhile, hbackground, hdeliveries]
  cases ha with
  | call hr => exact hcall hr
  | same =>
    cases a with
    | call c => exact hcall (.same c.request)
    | setFailing failing => exact ⟨rfl, veiled_withRows (t.after (.setFailing failing)) h⟩
    | setReachable reachable => exact ⟨rfl, veiled_withRows (t.after (.setReachable reachable)) h⟩
    | channel action => exact ⟨rfl, veiled_withRows (t.after (.channel action)) h⟩
    | advance ms => exact ⟨rfl, veiled_withRows (t.after (.advance ms)) h⟩
    | checkNow => exact ⟨rfl, veiled_withRows (t.after .checkNow) h⟩
    | closeRepository => exact ⟨rfl, veiled_withRows (t.after .closeRepository) h⟩
    | shutDown => exact ⟨rfl, veiled_withRows (t.after .shutDown) h⟩

end

section

variable {s t : Server} (hs : s.core = .users) (h : s.veiled = t.veiled)
include hs h

theorem step_eq {a a' : Action} (ha : a.Indistinct a') :
    s.shown a = t.shown a' ∧ (s.after a).veiled = (t.after a').veiled := by
  obtain ⟨rows, rfl, hrows⟩ := eq_withRows h
  exact shown_withRows hrows hs ha

theorem exposed_eq {run run' : List Action} (hrun : List.Forall₂ Action.Indistinct run run') :
    s.exposed run = t.exposed run' ∧ (s.course run).veiled = (t.course run').veiled := by
  induction hrun generalizing s t with
  | nil => exact ⟨rfl, h⟩
  | @cons a a' run run' ha hrun ih =>
    obtain ⟨hshown, hafter⟩ := step_eq hs h ha
    have hcounts := congrArg Server.counts hafter
    dsimp only [veiled] at hcounts
    obtain ⟨hrest, hcourse⟩ := ih ((after_core _ a).trans hs) hafter
    refine ⟨?_, hcourse⟩
    simp only [exposed, hshown, hcounts, hrest]

end

end Server

namespace Desk

/-- The moves differ in passwords at most. -/
inductive Move.Indistinct : Move → Move → Prop
  | act {a a' : Server.Action} (h : a.Indistinct a') : Indistinct (.act a) (.act a')
  | same (m : Move) : Indistinct m m

/-- What a move brings to light. Of a call that is what is seen before its change is announced. -/
def shown (d : Desk) : Move → Shown
  | .act (.call c) => { d.server.shown (.call c) with background := [], deliveries := [] }
  | .act a => d.server.shown a
  | .announce i =>
    match d.pending[i]? with
    | none => {}
    | some n => { background := (Server.announce d.server.channel n.envelope).2 }
  | .deliver => { deliveries := d.server.channel.drain.2 }

/-- What moves bring to light, each with the counts after it. -/
def exposed (d : Desk) : List Move → List (Shown × Counts)
  | [] => []
  | m :: rest => (d.shown m, (d.after m).server.counts) :: (d.after m).exposed rest

/-- Behind the veil the servers are alike, and the same announcements are still to be made. -/
structure Alike (d d' : Desk) : Prop where
  core : d.server.core = .users
  server : d.server.veiled = d'.server.veiled
  pending : d.pending = d'.pending
  calls : d.calls.length = d'.calls.length

theorem Alike.after_call {d d' : Desk} (h : d.Alike d') {c : ClientCall} {request : Request}
    (hr : c.request.Indistinct request) :
    d.shown (.act (.call c)) = d'.shown (.act (.call { c with request })) ∧
      (d.after (.act (.call c))).Alike (d'.after (.act (.call { c with request }))) := by
  obtain ⟨server, calls, tables, pending, attempts⟩ := d
  obtain ⟨hcore, hserver, rfl, hcalls⟩ := h
  dsimp only at hcore hserver hcalls
  obtain ⟨rows, rfl, hrows⟩ := Server.eq_withRows hserver
  obtain ⟨hshown, hafter⟩ := Server.shown_withRows hrows hcore (.call hr)
  have hannounced := Server.announced_withRows hrows hcore hr
  have hcommit : ((d'.server.withRows rows).commit c).veiled =
      (d'.server.commit { c with request }).veiled := by
    have h := congrArg (fun s : Server => { s with channel := d'.server.channel }) hafter
    exact h
  refine ⟨?_, hcore, hcommit, ?_, ?_⟩
  · simp only [shown, hshown]
  · simp only [after, hannounced, hcalls]
  · simp only [after, List.length_append, hcalls]
    rfl

theorem Alike.after_act {d d' : Desk} (h : d.Alike d') {a a' : Server.Action}
    (ha : a.Indistinct a') :
    d.shown (.act a) = d'.shown (.act a') ∧ (d.after (.act a)).Alike (d'.after (.act a')) := by
  cases ha with
  | call hr => exact h.after_call hr
  | same =>
    have hsame := Server.step_eq h.core h.server (.same a)
    have hcore := (Server.after_core d.server a).trans h.core
    cases a with
    | call c => exact h.after_call (.same c.request)
    | setFailing _ | setReachable _ | channel _ | advance _ | checkNow | closeRepository | shutDown =>
      exact ⟨hsame.1, hcore, hsame.2, h.pending, h.calls⟩

theorem Alike.after_announce {d d' : Desk} (h : d.Alike d') (i : Nat) :
    d.shown (.announce i) = d'.shown (.announce i) ∧
      (d.after (.announce i)).Alike (d'.after (.announce i)) := by
  have hchannel := congrArg Server.channel h.server
  dsimp only [Server.veiled] at hchannel
  cases hn : d.pending[i]? with
  | none =>
    have hn' : d'.pending[i]? = none := by rw [← h.pending, hn]
    simp only [shown, after, hn, hn', true_and]
    exact h
  | some n =>
    have hn' : d'.pending[i]? = some n := by rw [← h.pending, hn]
    have hserver := congrArg (fun s : Server =>
      { s with channel := (Server.announce d.server.channel n.envelope).1 }) h.server
    simp only [shown, after, hn, hn', ← hchannel, true_and]
    exact ⟨h.core, hserver, congrArg (·.eraseIdx i) h.pending, h.calls⟩

theorem Alike.after_deliver {d d' : Desk} (h : d.Alike d') :
    d.shown .deliver = d'.shown .deliver ∧ (d.after .deliver).Alike (d'.after .deliver) := by
  have hchannel := congrArg Server.channel h.server
  dsimp only [Server.veiled] at hchannel
  have hserver := congrArg (fun s : Server => { s with channel := d.server.channel.drain.1 }) h.server
  simp only [shown, after, ← hchannel, true_and]
  exact ⟨h.core, hserver, h.pending, h.calls⟩

theorem Alike.after {d d' : Desk} (h : d.Alike d') {m m' : Move} (hm : m.Indistinct m') :
    d.shown m = d'.shown m' ∧ (d.after m).Alike (d'.after m') := by
  cases hm with
  | act ha => exact h.after_act ha
  | same =>
    cases m with
    | act a => exact h.after_act (.same a)
    | announce i => exact h.after_announce i
    | deliver => exact h.after_deliver

theorem exposed_eq {d d' : Desk} (h : d.Alike d') {moves moves' : List Move}
    (hmoves : List.Forall₂ Move.Indistinct moves moves') :
    d.exposed moves = d'.exposed moves' ∧ (d.course moves).Alike (d'.course moves') := by
  induction hmoves generalizing d d' with
  | nil => exact ⟨rfl, h⟩
  | @cons m m' moves moves' hm hmoves ih =>
    obtain ⟨hshown, hafter⟩ := h.after hm
    have hcounts := congrArg Server.counts hafter.server
    dsimp only [Server.veiled] at hcounts
    obtain ⟨hrest, hcourse⟩ := ih hafter
    refine ⟨?_, hcourse⟩
    simp only [exposed, hshown, hcounts, hrest]

theorem opened_alike {s t : Server} (hs : s.core = .users) (h : s.veiled = t.veiled) :
    (opened s).Alike (opened t) := ⟨hs, h, rfl, rfl⟩

end Desk

namespace Server

/-- Take two runs of the same steps with other passwords, each confirmed in both or in neither and
supplied to a change in both or in neither. They bring the same to light, and so they do when each
announcement is made and delivered at any later time. -/
theorem passwords_hidden {s t : Server} (hs : s.core = .users) (h : s.veiled = t.veiled) :
    (∀ run run', List.Forall₂ Action.Indistinct run run' →
      s.exposed run = t.exposed run' ∧ (s.course run).veiled = (t.course run').veiled) ∧
    ∀ moves moves', List.Forall₂ Desk.Move.Indistinct moves moves' →
      (Desk.opened s).exposed moves = (Desk.opened t).exposed moves' :=
  ⟨fun _ _ hrun => exposed_eq hs h hrun,
    fun _ _ hmoves => (Desk.exposed_eq (Desk.opened_alike hs h) hmoves).1⟩

/-- All that observes a server is on, and someone listens to changes. -/
def watched : Server :=
  { initial with
    tracedRepository := true
    reportedRepository := true
    channel := { subscribers := [⟨"feed", 0, true⟩] } }

/-- An account is made with a password and given another one; a making that is not confirmed and a
change of an account that is not there fail. -/
def withPasswords (first second : String) : List Action :=
  let make (password again : String) : Action :=
    .call { draw := ⟨"a", .epoch⟩, request := .create ⟨{ nickname := "Ann", password }, again⟩ }
  let change (id password : String) : Action :=
    .call { draw := ⟨"", .epoch⟩, request := .update { id, profile := { password, country := "UK" } } }
  [make first first, make first (first ++ second), change "a" second, change "b" second,
    .call { draw := ⟨"", .epoch⟩, request := .list { nickname := "Ann" } }]

theorem passwords_hidden_of_two :
    let run := withPasswords "secret" "more secret"
    let run' := withPasswords "open" "sesame"
    List.Forall₂ Action.Indistinct run run' ∧
      (watched.course run).store.rows ≠ (watched.course run').store.rows ∧
      watched.exposed run = watched.exposed run' := by
  intro run run'
  have hrun : List.Forall₂ Action.Indistinct run run' :=
    .cons (.call (.create rfl (by decide))) <| .cons (.call (.create rfl (by decide))) <|
      .cons (.call (.update rfl (by decide))) <| .cons (.call (.update rfl (by decide))) <|
        .cons (.same _) .nil
  have hcore : watched.core = .users := rfl
  exact ⟨hrun, by decide +kernel, ((passwords_hidden hcore rfl).1 run run' hrun).1⟩

end Server

end Roster
