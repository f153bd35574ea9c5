import Roster.Http.Handler
import Roster.Proofs.Runs
/-! # Requests are calls

A request that is understood as an operation is a call of a client that waits no longer than a
request may take. Every other request leaves the server alone. -/
namespace Roster

/-- Waiting no longer makes no difference to what is over by then. -/
theorem Context.settle_abandoned {c : Context} (ha : c.abandonedAt = none) {takes ms : Nat}
    (h : (c.settle takes).1 < ms) : settle { c with abandonedAt := some ms } takes = c.settle takes := by
  unfold settle at h ⊢
  simp only [ha] at h ⊢
  exact if_pos h

theorem Context.settle_ne_abandoned {c : Context} (ha : c.abandonedAt = none) (takes : Nat) :
    (c.settle takes).2 ≠ .abandoned := by
  have hearlier {x y : Nat × Ending} (hx : x.2 ≠ .abandoned) (hy : y.2 ≠ .abandoned) :
      (earlier x y).2 ≠ .abandoned := by
    unfold earlier
    split
    · exact hy
    · exact hx
  have hdeadline : (if c.timeoutMs = 0 then (takes, Ending.done)
      else earlier (takes, .done) (c.timeoutMs.toNat, .interrupted (.deadline c.timeoutMs))).2 ≠
        .abandoned := by
    split
    · exact nofun
    · exact hearlier nofun nofun
  unfold settle
  rw [ha]
  cases c.cancelledAt with
  | none => exact hdeadline
  | some t => exact hearlier nofun hdeadline

namespace Service

theorem users_abandoned {σ : Type} {maxLimit : UInt32} {latency : Nat} {repository : Repository σ}
    {draw : Draw} {op : Operation} {s : σ} (ha : op.context.abandonedAt = none) {ms : Nat}
    (h : (users maxLimit latency repository draw op s).elapsed < ms) :
    users maxLimit latency repository draw
        (op.awaited op.context.timeoutMs op.context.cancelledAt (some ms)) s =
      users maxLimit latency repository draw op s := by
  cases hc : op.request.command maxLimit with
  | error reason => simp only [users, Operation.awaited, hc]
  | ok command =>
    have hbegins : (op.awaited op.context.timeoutMs op.context.cancelledAt (some ms)).context.begins =
        op.context.begins := by
      have hlater : (some ms != some 0) = true :=
        bne_iff_ne.mpr fun heq => Nat.ne_zero_of_lt h (Option.some.inj heq)
      simp only [Operation.awaited, Context.begins, ha, hlater]
      rfl
    have hsettle : (op.awaited op.context.timeoutMs op.context.cancelledAt (some ms)).context.settle
        latency = op.context.settle latency := by
      apply Context.settle_abandoned ha
      simpa only [users, hc] using h
    have hrequest : (op.awaited op.context.timeoutMs op.context.cancelledAt (some ms)).request =
        op.request := rfl
    simp only [users, hrequest, hc, hbegins, hsettle]
    rfl

end Service

/-- The same call of a client that turns away after some time. -/
def ClientCall.until (c : ClientCall) (ms : Nat) : ClientCall :=
  { c with within := fun context => { c.within context with abandonedAt := some ms } }

namespace Server

open Http

/-- A client that does not turn away learns the result of its call. -/
theorem exists_value {s : Server} (hs : s.core = .users) {c : ClientCall}
    (ha : (s.operation c).context.abandonedAt = none) : ∃ result, (s.call c).value = some result := by
  obtain ⟨call, hends, hvalue, -⟩ := call_ends hs c
  rw [hvalue]
  cases hends with
  | abandoned _ hends => exact absurd (congrArg Prod.snd hends) (Context.settle_ne_abandoned ha _)
  | refused | interrupted | rejected | missed | committed => exact ⟨_, rfl⟩

/-- How long a call takes. -/
def duration (s : Server) (c : ClientCall) : Nat :=
  ((s.entering c).stack c.draw (s.operation c) s.store).elapsed

section

variable {s : Server} {c : ClientCall} {ms : Nat}

theorem stack_until (hs : s.core = .users) (ha : (s.operation c).context.abandonedAt = none)
    (h : s.duration c < ms) :
    (s.entering c).stack c.draw (s.operation (c.until ms)) s.store =
      (s.entering c).stack c.draw (s.operation c) s.store := by
  let op := s.operation c
  have hcore : (s.entering c).innermost =
      Service.users s.service.maxPageLimit s.latency s.repository := by
    simp only [innermost, entering, context, hs]
    rfl
  have helapsed := (Service.pipeline_alike (s.entering c).service (s.entering c).reporter
    (s.entering c).innermost).elapsed c.draw op s.store
  have hinner : ((s.entering c).innermost c.draw op s.store).elapsed < ms := helapsed ▸ h
  have hawaited : (s.entering c).innermost c.draw
      (op.awaited op.context.timeoutMs op.context.cancelledAt (some ms)) s.store =
        (s.entering c).innermost c.draw op s.store := by
    rw [hcore] at hinner ⊢
    exact Service.users_abandoned ha hinner
  exact Service.pipeline_awaited _ _ hawaited

/-- A client that does not wait beyond the end of a call makes the same call. -/
theorem call_until (hs : s.core = .users) (ha : (s.operation c).context.abandonedAt = none)
    (h : s.duration c < ms) :
    s.call (c.until ms) = s.call c ∧ s.announced (c.until ms) = s.announced c := by
  have hstack := stack_until hs ha h
  constructor
  · show (s.entering c).run c.draw (s.operation (c.until ms)) = (s.entering c).run c.draw (s.operation c)
    have hrequest : (s.operation (c.until ms)).request = (s.operation c).request := rfl
    have hstore : (s.entering c).store = s.store := rfl
    simp only [run, hstore, hstack, hrequest]
  · exact congrArg Call.announced hstack

end

/-- The call that a request comes to, if it comes to one. -/
def callOf? (s : Server) (draw : Draw) (r : Http.Request) : Option ClientCall :=
  if r.method = "OPTIONS" ∨ s.patience = 0 then none
  else
    match r.demand with
    | .ok (.call request) =>
      let c : ClientCall := { draw, protocol := .http r.method r.uri.target, request }
      some (c.until s.patience)
    | _ => none

/-- The changes that a request hands over to be announced. -/
def attempts (s : Server) (draw : Draw) (r : Http.Request) : List Envelope :=
  (s.callOf? draw r).toList.flatMap s.announced

section

variable {s : Server} {draw : Draw} {r : Http.Request}

theorem callOf?_eq_some {c : ClientCall} (h : s.callOf? draw r = some c) :
    r.method ≠ "OPTIONS" ∧ s.patience ≠ 0 ∧ ∃ request, r.demand = .ok (.call request) ∧
      c = ClientCall.until { draw, protocol := .http r.method r.uri.target, request }
        s.patience := by
  unfold callOf? at h
  split at h
  · cases h
  · rename_i hserved
    split at h
    · rename_i request hdemand
      exact ⟨fun hm => hserved (.inl hm), fun ht => hserved (.inr ht), request, hdemand,
        (Option.some.inj h).symm⟩
    · cases h

theorem callOf?_of_demand {request : Roster.Request} (hmethod : r.method ≠ "OPTIONS")
    (htimeout : s.patience ≠ 0) (hdemand : r.demand = .ok (.call request)) :
    s.callOf? draw r =
      some (ClientCall.until { draw, protocol := .http r.method r.uri.target, request }
        s.patience) := by
  have hserved : ¬ (r.method = "OPTIONS" ∨ s.patience = 0) := not_or_intro hmethod htimeout
  simp only [callOf?, if_neg hserved, hdemand]

/-- A request that comes to a call is answered with what comes of the call. -/
theorem answer_of_call {c : ClientCall} (h : s.callOf? draw r = some c) :
    s.answer draw r = (s.call c).map .ofResult := by
  obtain ⟨hmethod, htimeout, request, hdemand, rfl⟩ := callOf?_eq_some h
  simp only [answer, if_neg hmethod, hdemand, if_neg htimeout]
  rfl

/-- A request that comes to no call leaves the server as it is. -/
theorem answer_of_none (h : s.callOf? draw r = none) :
    (s.answer draw r).server = s ∧ (s.answer draw r).background = [] := by
  unfold callOf? at h
  unfold answer
  split
  · exact ⟨rfl, rfl⟩
  · rename_i hmethod
    split
    · exact ⟨rfl, rfl⟩
    · rename_i demand hdemand
      split
      · exact ⟨rfl, rfl⟩
      · rename_i htimeout
        rw [if_neg (by simp [hmethod, htimeout]), hdemand] at h
        cases demand with
        | call request => cases h
        | live | ready | version => exact ⟨rfl, rfl⟩

/-- The headers that every response has leave its status as it is. -/
theorem status_respond (freshRequestId : String) :
    (s.respond draw freshRequestId r).value.status = (s.answer draw r).value.status := by
  simp only [respond, Http.Response.adding]
  split <;> rfl

theorem body_respond (freshRequestId : String) (h : r.method ≠ "HEAD") :
    (s.respond draw freshRequestId r).value.body = (s.answer draw r).value.body := by
  simp only [respond, Http.Response.adding, if_neg h]

end

end Server

end Roster
