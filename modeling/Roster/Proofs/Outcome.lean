import Roster.Proofs.Rest
/-! # The outcome of every operation

What comes of an operation on a store that answers at once can be told from the request, its context
and the store. Only an operation that is answered leaves a trace. -/
namespace Roster

/-- Work that takes no time is done before any deadline. -/
theorem Context.settle_zero (c : Context) :
    c.settle 0 = (0, if c.abandonedAt = some 0 then .abandoned
      else if c.cancelledAt = some 0 then .interrupted .cancelled else .done) := by
  have hdeadline : (if c.timeoutMs = 0 then (0, Ending.done)
      else earlier (0, .done) (c.timeoutMs.toNat, .interrupted (.deadline c.timeoutMs))) =
        (0, .done) := by
    split <;> simp [earlier]
  simp only [settle, hdeadline]
  rcases c.cancelledAt with _ | _ | t <;> rcases c.abandonedAt with _ | _ | t' <;> simp [earlier]

section

variable {c : Context} {elapsed : Nat}

theorem Context.abandoned_of_settle_zero (h : c.settle 0 = (elapsed, .abandoned)) :
    elapsed = 0 ∧ c.abandonedAt = some 0 := by
  rw [settle_zero] at h
  split at h
  · exact ⟨(congrArg Prod.fst h).symm, ‹_›⟩
  · split at h <;> cases h

theorem Context.interrupted_of_settle_zero {reason : Interrupted}
    (h : c.settle 0 = (elapsed, .interrupted reason)) :
    elapsed = 0 ∧ c.abandonedAt ≠ some 0 ∧ c.cancelledAt = some 0 := by
  rw [settle_zero] at h
  split at h
  · cases h
  · split at h
    · exact ⟨(congrArg Prod.fst h).symm, ‹_›, ‹_›⟩
    · cases h

theorem Context.done_of_settle_zero (h : c.settle 0 = (elapsed, .done)) :
    elapsed = 0 ∧ c.abandonedAt ≠ some 0 ∧ c.cancelledAt ≠ some 0 := by
  rw [settle_zero] at h
  split at h
  · cases h
  · split at h
    · cases h
    · exact ⟨(congrArg Prod.fst h).symm, ‹_›, ‹_›⟩

end

/-- The ways in which an operation can come out. -/
inductive Verdict
  | refused | unheard | unavailable | notFound | answered
  deriving DecidableEq, Repr

namespace Verdict

/-- The way in which a call came out. -/
def of : Option (Except OperationError Response) → Verdict
  | none => unheard
  | some (.error (.invalid _)) => refused
  | some (.error (.unavailable ..)) => unavailable
  | some (.error .notFound) => notFound
  | some (.ok _) => answered

end Verdict

namespace Operation

/-- How an operation on a store comes out: what is wrong with the request itself comes first, then
whether anyone still waits for an answer, then what keeps the store from giving one. -/
def verdict (op : Operation) (maxLimit : UInt32) (s : MemoryStore) : Verdict :=
  if op.request.Breaks maxLimit then .refused
  else if op.context.abandonedAt = some 0 then .unheard
  else if op.context.cancelledAt = some 0 ∨ s.failing = true then .unavailable
  else if op.request.Misses s.rows then .notFound
  else .answered

/-- The same operation with another deadline. -/
def limited (op : Operation) (timeoutMs : UInt64) : Operation :=
  { op with context := { op.context with timeoutMs } }

end Operation

namespace Service

theorem Ends.of_zero {maxLimit : UInt32} {draw : Draw} {op : Operation} {s : MemoryStore}
    {call : Call MemoryStore} (h : Ends maxLimit 0 draw op s call) :
    call.elapsed = 0 ∧ Verdict.of call.result = op.verdict maxLimit s := by
  unfold Operation.verdict
  cases h with
  | refused hb => exact ⟨rfl, (if_pos hb).symm⟩
  | interrupted hb hends =>
    obtain ⟨rfl, ha, hc⟩ := Context.interrupted_of_settle_zero hends
    simp [hb, ha, hc, Verdict.of]
  | abandoned hb hends =>
    obtain ⟨rfl, ha⟩ := Context.abandoned_of_settle_zero hends
    simp [hb, ha, Verdict.of]
  | rejected hb hends hf =>
    obtain ⟨rfl, ha, hc⟩ := Context.done_of_settle_zero hends
    simp [hb, ha, hf, Verdict.of, OperationError.ofRepository]
  | missed hb hends hf hm =>
    obtain ⟨rfl, ha, hc⟩ := Context.done_of_settle_zero hends
    simp [hb, ha, hc, hf, hm, Verdict.of]
  | committed hb hends hf hm =>
    obtain ⟨rfl, ha, hc⟩ := Context.done_of_settle_zero hends
    simp [hb, ha, hc, hf, hm, Verdict.of]

end Service

namespace Server

section

variable {s : Server} (hs : s.Resting)
include hs

theorem Resting.run_verdict (draw : Draw) (op : Operation) :
    Verdict.of (s.run draw op).value = op.verdict s.service.maxPageLimit s.store := by
  have halike := stack_alike hs.core
  have hsettles := Service.users_settles s.service.maxPageLimit s.latency draw op s.store
  rw [run_value, halike.result, hsettles.accept, hs.latency]
  exact (Service.users_ends _ _ _ _ _).of_zero.2

/-- An operation that is not answered leaves the server as it was, but for the counts. -/
theorem Resting.run_unanswered (draw : Draw) (op : Operation)
    (h : Verdict.of (s.run draw op).value ≠ .answered) :
    (∃ counts, (s.run draw op).server = { s with counts }) ∧
      (s.stack draw op s.store).announced = [] := by
  have halike := stack_alike hs.core
  have hsettles := Service.users_settles s.service.maxPageLimit s.latency draw op s.store
  have hfail (response : Response) : (Service.users s.service.maxPageLimit s.latency
      MemoryStore.repository draw op s.store).result ≠ some (.ok response) := by
    intro hok
    rw [run_value, halike.result, hsettles.accept, hok] at h
    exact h rfl
  obtain ⟨hstate, hannounced⟩ := hsettles.keeps_of_not_ok hfail
  rw [← halike.state] at hstate
  rw [← halike.announced] at hannounced
  have helapsed : (s.stack draw op s.store).elapsed = 0 := by
    rw [halike.elapsed, hs.latency]
    exact (Service.users_ends _ _ _ _ _).of_zero.1
  refine ⟨?_, hannounced⟩
  simp only [run, helapsed, pass, Monitor.advance_zero hs.monitor, hstate, hannounced, finish,
    announceAll, hs.channel]
  exact ⟨_, rfl⟩

theorem Resting.run_untimed (draw : Draw) (op : Operation) (timeoutMs : UInt64) :
    s.run draw (op.limited timeoutMs) = s.run draw op := by
  have hcore : s.innermost draw (op.limited timeoutMs) s.store = s.innermost draw op s.store := by
    simp only [innermost, hs.core, hs.latency, Service.users, Context.settle_zero]
    rfl
  have hstack : s.stack draw (op.limited timeoutMs) s.store = s.stack draw op s.store :=
    Service.pipeline_awaited s.service s.reporter hcore
  simp only [run, hstack]
  rfl

end

/-- However a server came to be as it is, an operation comes out as its request, its context and the
store say. Unless it is answered, nothing but the counts changes and nothing is announced. The
deadline makes no difference. -/
theorem outcome_exact {s : Server} (hs : s.Reachable) (draw : Draw) (op : Operation) :
    Verdict.of (s.run draw op).value = op.verdict s.service.maxPageLimit s.store ∧
      (Verdict.of (s.run draw op).value ≠ .answered →
        (∃ counts, (s.run draw op).server = { s with counts }) ∧
          (s.stack draw op s.store).announced = []) ∧
      ∀ timeoutMs, s.run draw (op.limited timeoutMs) = s.run draw op :=
  ⟨hs.resting.run_verdict draw op, hs.resting.run_unanswered draw op,
    hs.resting.run_untimed draw op⟩

/-- A store that rejects does not tell that there is no such account. -/
theorem outcome_exact_rejecting :
    let s := initial.course [.setFailing true]
    let op : Operation := ⟨{ callId := 0, timeoutMs := 1 }, .delete { id := "a" }⟩
    s.Reachable ∧ Verdict.of (s.run ⟨"", .epoch⟩ op).value = .unavailable ∧
      (∃ counts, (s.run ⟨"", .epoch⟩ op).server = { s with counts }) ∧
      s.run ⟨"", .epoch⟩ (op.limited 0) = s.run ⟨"", .epoch⟩ op := by
  intro s op
  have hs : s.Reachable := ⟨initial, _, initial_started, rfl⟩
  obtain ⟨hverdict, hkept, hlimited⟩ := outcome_exact hs ⟨"", .epoch⟩ op
  have hunavailable : Verdict.of (s.run ⟨"", .epoch⟩ op).value = .unavailable := hverdict.trans rfl
  have hnot : Verdict.of (s.run ⟨"", .epoch⟩ op).value ≠ .answered := by
    rw [hunavailable]
    decide
  exact ⟨hs, hunavailable, (hkept hnot).1, hlimited 0⟩

end Server

end Roster
