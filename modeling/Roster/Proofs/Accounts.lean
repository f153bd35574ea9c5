import Mathlib.Data.List.Induction
import Roster.Proofs.Listing
import Roster.Proofs.Runs
/-! # The accounts that a history tells of

The accounts are read off the calls of a history, without a table: an account stands for its making
and for all that was changed in it later, and is gone once a call has removed it. The rows of the
store are these accounts, and a list query is answered from them. -/
namespace Roster

namespace Answered

/-- The account that the call made, as it was then. -/
def made? (a : Answered) : Option User :=
  match a.request, a.result with
  | .create r, some (.ok (.created created)) =>
    some { id := created.id, profile := r.profile, createdAt := a.draw.now, updatedAt := a.draw.now }
  | _, _ => none

/-- What the call changed in the account with an identifier, and when. -/
def changed? (a : Answered) (id : String) : Option (Profile × Time.Timestamp) :=
  match a.request, a.result with
  | .update r, some (.ok _) => if r.id = id then some (r.profile, a.draw.now) else none
  | _, _ => none

def removed (a : Answered) (id : String) : Bool :=
  match a.request, a.result with
  | .delete r, some (.ok _) => r.id == id
  | _, _ => false

end Answered

/-- The last value that is not empty; the empty text if there is none. -/
def lastSupplied (values : List String) : String := (values.reverse.find? (· != "")).getD ""

/-- An account that was made, after the calls since. -/
def User.since (made : User) (later : List Answered) : User :=
  let changes := later.filterMap (·.changed? made.id)
  { id := made.id
    profile := .ofFn fun a => lastSupplied (made.profile.get a :: changes.map fun c => c.1.get a)
    createdAt := made.createdAt
    updatedAt := (changes.map (·.2)).getLastD made.createdAt }

/-- The accounts that were made and not removed since, in the order of their making. -/
def accounts : List Answered → List User
  | [] => []
  | a :: later =>
    match a.made? with
    | some made =>
      if later.any (·.removed made.id) then accounts later else made.since later :: accounts later
    | none => accounts later

/-- The identifiers of all accounts that were ever made. -/
def madeIds (h : List Answered) : List String := (h.filterMap (·.made?)).map (·.id)

theorem lastSupplied_append (values : List String) (v : String) :
    lastSupplied (values ++ [v]) = if v = "" then lastSupplied values else v := by
  by_cases h : v = "" <;> simp [lastSupplied, h]

@[simp] theorem lastSupplied_singleton (v : String) : lastSupplied [v] = v := by
  by_cases h : v = "" <;> simp [lastSupplied, h]

def User.absorb (u : User) (a : Answered) : User :=
  match a.changed? u.id with
  | some (changes, now) => u.apply changes now
  | none => u

theorem User.since_append (made : User) (later : List Answered) (a : Answered) :
    made.since (later ++ [a]) = (made.since later).absorb a := by
  have hid : (made.since later).id = made.id := rfl
  cases h : a.changed? made.id with
  | none => simp [since, absorb, List.filterMap_append, h]
  | some change =>
    obtain ⟨changes, now⟩ := change
    simp only [absorb, hid, h]
    simp only [since, User.apply, List.filterMap_append, List.filterMap_cons, h, List.filterMap_nil,
      List.map_append, List.map_cons, List.map_nil, ← List.cons_append, lastSupplied_append,
      List.getLastD_concat]
    rfl

theorem Answered.since_nil {a : Answered} {made : User} (h : a.made? = some made) :
    made.since [] = made := by
  unfold made? at h
  split at h
  · obtain rfl := Option.some.inj h
    simp only [User.since, List.filterMap_nil, List.map_nil, lastSupplied_singleton, List.getLastD_nil]
    rfl
  · cases h

/-- One call removes, changes and makes accounts. -/
def Answered.replay (a : Answered) (rows : List User) : List User :=
  (rows.filter fun u => !a.removed u.id).map (·.absorb a) ++ a.made?.toList

theorem Answered.replay_eq_map {a : Answered} (hr : ∀ id, a.removed id = false) (rows : List User) :
    a.replay rows = rows.map (·.absorb a) ++ a.made?.toList := by
  have hf : rows.filter (fun u => !a.removed u.id) = rows :=
    List.filter_eq_self.mpr fun u _ => by simp [hr]
  rw [replay, hf]

theorem Answered.replay_eq_append {a : Answered} (hr : ∀ id, a.removed id = false)
    (hc : ∀ id, a.changed? id = none) (rows : List User) :
    a.replay rows = rows ++ a.made?.toList := by
  have habsorb (u : User) : u.absorb a = u := by simp only [User.absorb, hc]
  rw [replay_eq_map hr, List.map_congr_left fun u _ => habsorb u, List.map_id']

theorem accounts_append (h : List Answered) (a : Answered) :
    accounts (h ++ [a]) = a.replay (accounts h) := by
  unfold Answered.replay
  -- The last call meets each account as the calls before it have left it, or not at all.
  induction h with
  | nil =>
    cases hm : a.made? with
    | none => simp [accounts, hm]
    | some made => simp [accounts, hm, Answered.since_nil hm]
  | cons b h ih =>
    cases hm : b.made? with
    | none => simpa [accounts, hm] using ih
    | some made =>
      have hid : (made.since h).id = made.id := rfl
      by_cases hgone : h.any (·.removed made.id) = true
      · simpa [accounts, hm, hgone] using ih
      · cases hr : a.removed made.id with
        | true => simpa [accounts, hm, hgone, hr, hid] using ih
        | false => simpa [accounts, hm, hgone, hr, hid, User.since_append] using ih

theorem map_id_accounts_sublist (h : List Answered) :
    List.Sublist ((accounts h).map (·.id)) (madeIds h) := by
  induction h with
  | nil => exact .slnil
  | cons a h ih =>
    cases hm : a.made? with
    | none => simpa [accounts, madeIds, hm] using ih
    | some made =>
      by_cases hgone : h.any (·.removed made.id) = true
      · simpa [accounts, madeIds, hm, hgone] using ih.cons made.id
      · simpa [accounts, madeIds, hm, hgone, User.since] using ih

section

variable {maxLimit : UInt32} {draw : Draw} {request : Request} {s t : MemoryStore}
  {result : Option (Except OperationError Response)} {announced : List Envelope}

/-- A call does to the rows what it does to the accounts. -/
theorem Service.Settles.rows (h : Settles maxLimit draw request s result t announced)
    (hn : (s.rows.map (·.id)).Nodup) : t.rows = Answered.replay ⟨draw, request, result⟩ s.rows := by
  cases h with
  | commits h =>
    cases h with
    | @create r =>
      let a : Answered := ⟨draw, .create r, some (.ok (.created ⟨draw.id⟩))⟩
      exact (a.replay_eq_append (fun _ => rfl) (fun _ => rfl) s.rows).symm
    | @list r page h =>
      let a : Answered := ⟨draw, .list r, some (.ok (.users
        ((page.slice (s.rows.filter r.conditions.holds)).map UserView.ofUser)))⟩
      exact ((a.replay_eq_append (fun _ => rfl) (fun _ => rfl) s.rows).trans (List.append_nil _)).symm
    | @update r changed h =>
      let a : Answered := ⟨draw, .update r, some (.ok (.status .ok))⟩
      have habsorb (u : User) :
          (if u.id = r.id then u.apply r.profile draw.now else u) = u.absorb a := by
        by_cases hid : u.id = r.id
        · simp [a, User.absorb, Answered.changed?, hid]
        · simp [a, User.absorb, Answered.changed?, hid, Ne.symm hid]
      dsimp only
      rw [changeRow_eq_map hn h, List.map_congr_left fun u _ => habsorb u]
      exact ((a.replay_eq_map (fun _ => rfl) s.rows).trans (List.append_nil _)).symm
    | @delete r h =>
      let a : Answered := ⟨draw, .delete r, some (.ok (.status .ok))⟩
      have habsorb : (fun u : User => u.absorb a) = id := rfl
      have hremoved (u : User) : (u.id != r.id) = !a.removed u.id := by
        simp [a, Answered.removed, bne, Bool.beq_comm]
      have hmade : a.made?.toList = [] := rfl
      show s.rows.filter (fun u => u.id != r.id) = a.replay s.rows
      rw [Answered.replay, habsorb, hmade, List.map_id, List.append_nil,
        List.filter_congr fun u _ => hremoved u]
  | keeps h =>
    let a : Answered := ⟨draw, request, result⟩
    have hfail (id : String) : a.removed id = false ∧ a.changed? id = none ∧ a.made? = none := by
      rcases result with _ | e | response
      · cases request <;> exact ⟨rfl, rfl, rfl⟩
      · cases request <;> exact ⟨rfl, rfl, rfl⟩
      · exact absurd rfl (h response)
    have hr := a.replay_eq_append (fun id => (hfail id).1) (fun id => (hfail id).2.1) s.rows
    rw [(hfail "").2.2] at hr
    exact (hr.trans (List.append_nil _)).symm

end

namespace Server

/-- After any run that began with no accounts, the rows are the accounts that its calls tell of. -/
theorem rows_course {s : Server} (hs : s.core = .users) (hrows : s.store.rows = [])
    (run : List Action) (hfresh : (madeIds (s.history run)).Nodup) :
    (s.course run).store.rows = accounts (s.history run) := by
  -- By the last action: as long as the identifiers made so far are fresh, those of the rows are
  -- unique, and a change that finds one row finds no other.
  induction run using List.reverseRecOn with
  | nil => exact hrows
  | append_singleton run a ih =>
    rw [history_append] at hfresh ⊢
    have hsub : List.Sublist (madeIds (s.history run))
        (madeIds (s.history run ++ (s.course run).history [a])) := by
      simp [madeIds, List.filterMap_append]
    have hold := ih (hfresh.sublist hsub)
    have hn : ((s.course run).store.rows.map (·.id)).Nodup := by
      rw [hold]
      exact (hfresh.sublist hsub).sublist (map_id_accounts_sublist _)
    have hafter : s.course (run ++ [a]) = (s.course run).after a := course_append s run [a]
    rw [hafter, history_singleton]
    cases ha : (s.course run).answered? a with
    | none => rw [after_rows_of_not_call ha, hold, Option.toList_none, List.append_nil]
    | some answered =>
      cases a with
      | call c =>
        have hc : (s.course run).core = .users := by rw [course_core, hs]
        obtain rfl := Option.some.inj ha
        rw [Option.toList_some, accounts_append, ← hold]
        exact (call_settles hc c).rows hn
      | _ => cases ha

/-- A list query that succeeds is answered with the window that it asks for of the accounts that it
selects, as the calls before it have made them. -/
theorem list_of_history {s : Server} (hs : s.core = .users) (hrows : s.store.rows = [])
    (run : List Action) (hfresh : (madeIds (s.history run)).Nodup) {c : ClientCall} {r : ListUsers}
    (hc : c.request = .list r) {response : Response}
    (hok : ((s.course run).call c).value = some (.ok response)) :
    response = .users
      ((r.window s.service.maxPageLimit (accounts (s.history run))).map UserView.ofUser) := by
  have hcore : (s.course run).core = .users := by rw [course_core, hs]
  have hsettles := call_settles hcore c
  rw [hok, hc, course_service] at hsettles
  obtain ⟨rows, hcommits, -, -⟩ := hsettles.commits_of_ok
  cases hcommits with
  | list hp => rw [Page.slice_of_resolve hp, rows_course hs hrows run hfresh]

/-- Of two accounts one is changed, at the second attempt, and the other one removed. -/
def twoAccounts : List Action :=
  let make (id name : String) : Action :=
    .call { draw := ⟨id, .epoch⟩, request := .create { profile := { firstName := name, country := "UK" } } }
  let change (now : Time.Timestamp) : Action :=
    .call { draw := ⟨"", now⟩, request := .update { id := "a", profile := { nickname := "Lady" } } }
  [make "a" "Ada", make "b" "Bob", .setFailing true, change ⟨60, 0, by decide⟩, .setFailing false,
    .call { draw := ⟨"", .epoch⟩, request := .delete { id := "b" } }, change ⟨3600, 0, by decide⟩]

def inCountry : ListUsers := { country := "UK", limit := 5, offset := 1 }

theorem list_of_history_of_two :
    let views : List UserView :=
      [{ id := "a", firstName := "Ada", nickname := "Lady", country := "UK"
         createdAt := "1970-01-01T00:00:00", updatedAt := "1970-01-01T01:00:00" }]
    ((initial.course twoAccounts).call ⟨⟨"", .epoch⟩, .internal, id, .list inCountry⟩).value =
        some (.ok (.users views)) ∧
      Response.users views = .users ((inCountry.window initial.service.maxPageLimit
        (accounts (initial.history twoAccounts))).map UserView.ofUser) := by
  have hfresh : (madeIds (initial.history twoAccounts)).Nodup := by decide +kernel
  have hok : ((initial.course twoAccounts).call
      ⟨⟨"", .epoch⟩, .internal, id, .list inCountry⟩).value = some (.ok (.users
        [{ id := "a", firstName := "Ada", nickname := "Lady", country := "UK"
           createdAt := "1970-01-01T00:00:00", updatedAt := "1970-01-01T01:00:00" }])) := by
    decide +kernel
  exact ⟨hok, list_of_history initial_started.core initial_started.rows twoAccounts hfresh rfl hok⟩

end Server

end Roster
