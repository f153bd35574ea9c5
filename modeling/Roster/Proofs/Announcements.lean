import Mathlib.Data.List.Perm.Basic
import Roster.Proofs.Runs
/-! # One announcement for every change

An announcement is a task of its own: it is done at some time after its call, before or after other
tasks and later calls. In whatever order everything happens, there is one announcement for each
update that was answered, and it is made when the changed row stands in the store. -/
namespace Roster

/-- The changes of a call that are to be announced. -/
def Answered.announces (a : Answered) : List Envelope :=
  match a.request, a.result with
  | .update r, some (.ok _) => [r.envelope]
  | _, _ => []

/-- The announcement of the change that a call made. Calls have numbers, the first one zero. -/
structure Announcement where
  call : Nat
  envelope : Envelope

/-- The announcements that calls ask for. -/
def owed (calls : List Answered) : List Announcement :=
  calls.zipIdx.flatMap fun c => c.1.announces.map (.mk c.2)

theorem owed_append (calls : List Answered) (a : Answered) :
    owed (calls ++ [a]) = owed calls ++ a.announces.map (.mk calls.length) := by
  simp [owed, List.zipIdx_append]

theorem mem_owed {calls : List Answered} {n : Announcement} :
    n ∈ owed calls ↔ ∃ a, calls[n.call]? = some a ∧ n.envelope ∈ a.announces := by
  simp only [owed, List.mem_flatMap, List.mem_map, Prod.exists, List.mem_zipIdx_iff_getElem?]
  constructor
  · rintro ⟨a, k, ha, e, he, rfl⟩
    exact ⟨a, ha, he⟩
  · rintro ⟨a, ha, he⟩
    exact ⟨a, n.call, ha, n.envelope, he, rfl⟩

theorem Answered.eq_of_mem_announces {a : Answered} {e : Envelope} (h : e ∈ a.announces) :
    ∃ r response, a = ⟨a.draw, .update r, some (.ok response)⟩ ∧ e = r.envelope := by
  obtain ⟨draw, request, result⟩ := a
  unfold announces at h
  split at h
  · rename_i r response hrequest hresult
    dsimp only at hrequest hresult
    subst hrequest hresult
    exact ⟨r, response, rfl, List.mem_singleton.mp h⟩
  · simp at h

namespace Service.Settles

variable {maxLimit : UInt32} {draw : Draw} {request : Request} {s t : MemoryStore}
  {result : Option (Except OperationError Response)} {announced : List Envelope}

theorem announced_eq (h : Settles maxLimit draw request s result t announced) :
    announced = Answered.announces ⟨draw, request, result⟩ := by
  cases h with
  | commits h => cases h <;> rfl
  | keeps h =>
    rcases result with _ | e | response
    · cases request <;> rfl
    · cases request <;> rfl
    · exact absurd rfl (h response)

theorem changeRow_eq {r : UpdateUser} {response : Response}
    (h : Settles maxLimit draw (.update r) s (some (.ok response)) t announced) :
    changeRow r.id (fun u => u.apply r.profile draw.now) s.rows = some t.rows := by
  obtain ⟨rows, hcommits, rfl, -⟩ := h.commits_of_ok
  cases hcommits with
  | update hr => exact hr

end Service.Settles

/-- An attempt to announce a change: how many calls were over when it was made, and the rows of the
store at that time. -/
structure Attempted where
  announcement : Announcement
  finished : Nat
  rows : List User

/-- A server with its announcements that are still to be made, and a record of what has happened. -/
structure Desk where
  server : Server
  calls : List Answered := []
  /-- The rows before all calls and after each of them. -/
  tables : List (List User)
  pending : List Announcement := []
  attempts : List Attempted := []

/-- The server after a call of which nothing is announced yet. -/
def Server.commit (s : Server) (c : ClientCall) : Server := { (s.call c).server with channel := s.channel }

namespace Desk

def opened (s : Server) : Desk := { server := s, tables := [s.store.rows] }

inductive Move
  | act (action : Server.Action)
  | announce (index : Nat)
  | deliver

def after (d : Desk) : Move → Desk
  | .act (.call c) =>
    { d with
      server := d.server.commit c
      calls := d.calls ++ [⟨c.draw, c.request, (d.server.call c).value⟩]
      tables := d.tables ++ [(d.server.commit c).store.rows]
      pending := d.pending ++ (d.server.announced c).map (.mk d.calls.length) }
  | .act a => { d with server := d.server.after a }
  | .announce i =>
    match d.pending[i]? with
    | none => d
    | some n =>
      { d with
        server := { d.server with channel := (Server.announce d.server.channel n.envelope).1 }
        pending := d.pending.eraseIdx i
        attempts := d.attempts ++ [⟨n, d.calls.length, d.server.store.rows⟩] }
  | .deliver => { d with server := { d.server with channel := d.server.channel.drain.1 } }

def course (d : Desk) (moves : List Move) : Desk := moves.foldl after d

theorem after_act_of_not_call (d : Desk) {a : Server.Action} (h : d.server.answered? a = none) :
    d.after (.act a) = { d with server := d.server.after a } := by
  cases a with
  | call c => cases h
  | _ => rfl

/-- What an attempt has behind it: an update that was answered, and whose row had been changed when
the attempt was made. -/
def Follows (d : Desk) (a : Attempted) : Prop :=
  ∃ draw r response before changed,
    d.calls[a.announcement.call]? = some ⟨draw, .update r, some (.ok response)⟩ ∧
      a.announcement.envelope = r.envelope ∧
      d.tables[a.announcement.call]? = some before ∧
      d.tables[a.announcement.call + 1]? = some changed ∧
      changeRow r.id (fun u => u.apply r.profile draw.now) before = some changed ∧
      a.announcement.call < a.finished ∧ d.tables[a.finished]? = some a.rows

/-- The rows of all times are on record, each update that was answered has changed its row, and each
announcement that is owed is pending or was made after its call. -/
structure Kept (d : Desk) : Prop where
  core : d.server.core = .users
  length : d.tables.length = d.calls.length + 1
  current : d.tables[d.calls.length]? = some d.server.store.rows
  changed : ∀ {k draw r response}, d.calls[k]? = some ⟨draw, .update r, some (.ok response)⟩ →
    ∃ before changed, d.tables[k]? = some before ∧ d.tables[k + 1]? = some changed ∧
      changeRow r.id (fun u => u.apply r.profile draw.now) before = some changed
  once : (d.attempts.map (·.announcement) ++ d.pending).Perm (owed d.calls)
  later : ∀ a ∈ d.attempts, a.announcement.call < a.finished ∧ d.tables[a.finished]? = some a.rows

theorem Kept.of_server {d : Desk} (hd : d.Kept) {s : Server} (hcore : s.core = .users)
    (hrows : s.store.rows = d.server.store.rows) : Kept { d with server := s } :=
  ⟨hcore, hd.length, hd.current.trans (congrArg some hrows.symm), hd.changed, hd.once, hd.later⟩

theorem Kept.after_call {d : Desk} (hd : d.Kept) (c : ClientCall) : (d.after (.act (.call c))).Kept := by
  have hsettles := Server.call_settles hd.core c
  have hold {i : Nat} {rows more : List User} (h : d.tables[i]? = some rows) :
      (d.tables ++ [more])[i]? = some rows := by
    rw [List.getElem?_append_left (List.getElem?_eq_some_iff.mp h).1, h]
  have hnew (rows : List User) : (d.tables ++ [rows])[d.calls.length + 1]? = some rows := by
    rw [← hd.length, List.getElem?_concat_length]
  refine ⟨hd.core, ?_, ?_, ?_, ?_, ?_⟩
  · simp [after, hd.length]
  · simpa [after] using hnew _
  -- The update is one of the calls before, or this one.
  · intro k draw r response h
    by_cases hk : k < d.calls.length
    · have hcall : d.calls[k]? = some ⟨draw, .update r, some (.ok response)⟩ := by
        rwa [after, List.getElem?_append_left hk] at h
      obtain ⟨before, changed, hbefore, hchanged, hrow⟩ := hd.changed hcall
      exact ⟨before, changed, hold hbefore, hold hchanged, hrow⟩
    · have hlast : k = d.calls.length := by
        have hlt := (List.getElem?_eq_some_iff.mp h).1
        simp only [after, List.length_append, List.length_singleton] at hlt
        omega
      rw [after, hlast, List.getElem?_concat_length] at h
      obtain ⟨rfl, hrequest, hvalue⟩ := Answered.mk.inj (Option.some.inj h)
      rw [hrequest, hvalue] at hsettles
      exact ⟨_, _, hlast ▸ hold hd.current, hlast ▸ hnew _, hsettles.changeRow_eq⟩
  · have howed := hsettles.announced_eq
    simp only [after, owed_append, howed, ← List.append_assoc]
    exact hd.once.append_right _
  · intro a ha
    obtain ⟨hlt, hrows⟩ := hd.later a ha
    exact ⟨hlt, hold hrows⟩

theorem Kept.after_announce {d : Desk} (hd : d.Kept) (i : Nat) : (d.after (.announce i)).Kept := by
  cases hi : d.pending[i]? with
  | none => simpa only [after, hi] using hd
  | some n =>
    obtain ⟨hlt, hn⟩ := List.getElem?_eq_some_iff.mp hi
    simp only [after, hi]
    refine ⟨hd.core, hd.length, hd.current, hd.changed, ?_, ?_⟩
    · have hpick : (n :: d.pending.eraseIdx i).Perm d.pending := by
        rw [← hn]
        exact List.getElem_cons_eraseIdx_perm hlt
      simp only [List.map_append, List.map_singleton, List.append_assoc, List.singleton_append]
      exact (hpick.append_left _).trans hd.once
    · intro a ha
      rcases List.mem_append.mp ha with ha | ha
      · exact hd.later a ha
      · obtain rfl := List.mem_singleton.mp ha
        have howed : n ∈ owed d.calls :=
          hd.once.subset (List.mem_append_right _ (hn ▸ List.getElem_mem hlt))
        obtain ⟨_, hcall, -⟩ := mem_owed.mp howed
        exact ⟨(List.getElem?_eq_some_iff.mp hcall).1, hd.current⟩

theorem Kept.after {d : Desk} (hd : d.Kept) (m : Move) : (d.after m).Kept := by
  cases m with
  | act a =>
    have hcore : (d.server.after a).core = .users := by rw [Server.after_core, hd.core]
    cases a with
    | call c => exact hd.after_call c
    | _ => exact hd.of_server hcore (Server.after_rows_of_not_call rfl)
  | announce i => exact hd.after_announce i
  | deliver => exact hd.of_server hd.core rfl

theorem Kept.course {d : Desk} (hd : d.Kept) (moves : List Move) : (d.course moves).Kept := by
  induction moves generalizing d with
  | nil => exact hd
  | cons m moves ih => exact ih (hd.after m)

theorem Kept.follows {d : Desk} (hd : d.Kept) {a : Attempted} (ha : a ∈ d.attempts) : d.Follows a := by
  have howed : a.announcement ∈ owed d.calls :=
    hd.once.subset (List.mem_append_left _ (List.mem_map_of_mem ha))
  obtain ⟨call, hcall, he⟩ := mem_owed.mp howed
  obtain ⟨r, response, heq, henvelope⟩ := Answered.eq_of_mem_announces he
  rw [heq] at hcall
  obtain ⟨before, changed, hbefore, hchanged, hrow⟩ := hd.changed hcall
  exact ⟨_, r, response, before, changed, hcall, henvelope, hbefore, hchanged, hrow, hd.later a ha⟩

theorem course_append (d : Desk) (moves more : List Move) :
    d.course (moves ++ more) = (d.course moves).course more := List.foldl_append

end Desk

end Roster
