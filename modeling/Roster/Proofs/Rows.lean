import Roster.Service.Users
import Roster.Repository.Memory
/-! # What a call does to the rows of a store

A call over accounts in memory either commits, which changes the rows in the way of its request, or
leaves the store as it was. -/
namespace Roster

theorem changeRow_eq_none_iff {id : String} {f : User → User} {rows : List User} :
    changeRow id f rows = none ↔ ∀ u ∈ rows, u.id ≠ id := by
  induction rows with
  | nil => simp [changeRow]
  | cons u rows ih =>
    by_cases h : u.id = id
    · simp [changeRow, h]
    · simp [changeRow, h, ih]

theorem exists_of_changeRow {id : String} {f : User → User} {rows changed : List User}
    (h : changeRow id f rows = some changed) : ∃ u ∈ rows, u.id = id := by
  apply Classical.byContradiction
  intro hnone
  have hall : ∀ u ∈ rows, u.id ≠ id := fun u hu hid => hnone ⟨u, hu, hid⟩
  rw [changeRow_eq_none_iff.mpr hall] at h
  cases h

/-- Where identifiers are unique, changing the first row with one changes every row with it. -/
theorem changeRow_eq_map {id : String} {f : User → User} {rows changed : List User}
    (hn : (rows.map (·.id)).Nodup) (h : changeRow id f rows = some changed) :
    changed = rows.map fun u => if u.id = id then f u else u := by
  induction rows generalizing changed with
  | nil => simp [changeRow] at h
  | cons u rows ih =>
    obtain ⟨hu, hn⟩ := List.nodup_cons.mp hn
    by_cases hid : u.id = id
    · have hrest : ∀ v ∈ rows, (if v.id = id then f v else v) = v := by
        intro v hv
        have hne : v.id ≠ id := fun hv' => hu (List.mem_map.mpr ⟨v, hv, hv'.trans hid.symm⟩)
        exact if_neg hne
      simp only [changeRow, if_pos hid, Option.some.injEq] at h
      rw [← h, List.map_cons, if_pos hid, List.map_congr_left hrest, List.map_id']
    · simp only [changeRow, if_neg hid, Option.map_eq_some_iff] at h
      obtain ⟨rest, hrest, rfl⟩ := h
      rw [List.map_cons, if_neg hid, ih hn hrest]

theorem length_filter_ne_eq_iff {id : String} {rows : List User} :
    (rows.filter fun u => u.id != id).length = rows.length ↔ ∀ u ∈ rows, u.id ≠ id := by
  simp [List.length_filter_eq_length_iff]

/-- Of rows with identifiers of their own there is one with an identifier, or none. -/
theorem exists_row {rows : List User} (hn : (rows.map (·.id)).Nodup) {id : String}
    (h : ∃ u ∈ rows, u.id = id) :
    ∃ before u after, rows = before ++ u :: after ∧ u.id = id ∧ ∀ v ∈ before ++ after, v.id ≠ id := by
  obtain ⟨u, hu, rfl⟩ := h
  obtain ⟨before, after, rfl⟩ := List.append_of_mem hu
  refine ⟨before, u, after, rfl, rfl, fun v hv heq => ?_⟩
  have hperm : ((before ++ u :: after).map (·.id)).Perm ((u :: (before ++ after)).map (·.id)) :=
    List.perm_middle.map _
  have hfirst := (List.nodup_cons.mp (hperm.nodup_iff.mp hn)).1
  exact hfirst (List.mem_map.mpr ⟨v, hv, heq⟩)

section

variable {before after : List User} {u : User}

theorem filter_ne_eq (h : ∀ v ∈ before ++ after, v.id ≠ u.id) :
    ((before ++ u :: after).filter fun v => v.id != u.id) = before ++ after := by
  have hothers : (before ++ after).filter (fun v => v.id != u.id) = before ++ after :=
    List.filter_eq_self.mpr fun v hv => bne_iff_ne.mpr (h v hv)
  rw [List.filter_append] at hothers
  rw [List.filter_append, List.filter_cons_of_neg (by simp), hothers]

theorem map_change_eq (h : ∀ v ∈ before ++ after, v.id ≠ u.id) (f : User → User) :
    ((before ++ u :: after).map fun v => if v.id = u.id then f v else v) = before ++ f u :: after := by
  have hsame (vs : List User) (hvs : ∀ v ∈ vs, v.id ≠ u.id) :
      vs.map (fun v => if v.id = u.id then f v else v) = vs := by
    rw [List.map_congr_left fun v hv => if_neg (hvs v hv), List.map_id']
  rw [List.map_append, List.map_cons, if_pos rfl,
    hsame before fun v hv => h v (List.mem_append_left _ hv),
    hsame after fun v hv => h v (List.mem_append_right _ hv)]

end

namespace Request

/-- The request breaks the rule of its own kind. -/
def Breaks (maxLimit : UInt32) : Request → Prop
  | create r => r.profile.password ≠ r.passwordConfirm
  | list r => maxLimit < r.limit
  | update r => r.id = ""
  | delete r => r.id = ""

instance (maxLimit : UInt32) : DecidablePred (Breaks maxLimit)
  | create r => inferInstanceAs (Decidable (r.profile.password ≠ r.passwordConfirm))
  | list r => inferInstanceAs (Decidable (maxLimit < r.limit))
  | update r => inferInstanceAs (Decidable (r.id = ""))
  | delete r => inferInstanceAs (Decidable (r.id = ""))

/-- The request is to change or to remove an account that has no row. -/
def Misses (rows : List User) : Request → Prop
  | update r => ∀ u ∈ rows, u.id ≠ r.id
  | delete r => ∀ u ∈ rows, u.id ≠ r.id
  | _ => False

instance (rows : List User) : DecidablePred (Misses rows)
  | create _ => inferInstanceAs (Decidable False)
  | list _ => inferInstanceAs (Decidable False)
  | update r => inferInstanceAs (Decidable (∀ u ∈ rows, u.id ≠ r.id))
  | delete r => inferInstanceAs (Decidable (∀ u ∈ rows, u.id ≠ r.id))

/-- A request is refused exactly if it breaks its rule. -/
theorem command_eq_error_iff {maxLimit : UInt32} {request : Request} :
    (∃ reason, request.command maxLimit = .error reason) ↔ request.Breaks maxLimit := by
  cases request with
  | create r =>
    by_cases h : r.profile.password = r.passwordConfirm <;>
      simp [command, Breaks, CreateUser.validate, h, Except.map]
  | list r =>
    by_cases h : maxLimit < r.limit <;> simp [command, Breaks, Page.resolve, h, Except.map]
  | update r =>
    by_cases h : r.id = "" <;> simp [command, Breaks, UpdateUser.validate, h, Except.map]
  | delete r =>
    by_cases h : r.id = "" <;> simp [command, Breaks, DeleteUser.validate, h, Except.map]

end Request

/-- How a request that succeeds is answered, and the rows it leaves behind. -/
inductive Commits (maxLimit : UInt32) (draw : Draw) (rows : List User) :
    Request → Response → List User → Prop
  | create {r : CreateUser} :
      Commits maxLimit draw rows (.create r) (.created ⟨draw.id⟩)
        (rows ++ [⟨draw.id, r.profile, draw.now, draw.now⟩])
  | list {r : ListUsers} {page : Page} (h : Page.resolve r.limit r.offset maxLimit = .ok page) :
      Commits maxLimit draw rows (.list r)
        (.users ((page.slice (rows.filter r.conditions.holds)).map UserView.ofUser)) rows
  | update {r : UpdateUser} {changed : List User}
      (h : changeRow r.id (fun u => u.apply r.profile draw.now) rows = some changed) :
      Commits maxLimit draw rows (.update r) (.status .ok) changed
  | delete {r : DeleteUser} (h : ∃ u ∈ rows, u.id = r.id) :
      Commits maxLimit draw rows (.delete r) (.status .ok) (rows.filter fun u => u.id != r.id)

theorem eq_ok_of_map_eq_ok {α β : Type} {f : α → β} {x : Except Invalid α} {b : β}
    (h : x.map f = .ok b) : ∃ a, x = .ok a ∧ b = f a := by
  cases x with
  | error reason => cases h
  | ok a => exact ⟨a, rfl, (Except.ok.inj h).symm⟩

/-- What a store does with the command of a request: it commits, or there is no such account. -/
theorem MemoryStore.perform_command {maxLimit : UInt32} {request : Request} {command : Command}
    (hc : request.command maxLimit = .ok command) (rows : List User) (draw : Draw) :
    (¬ request.Misses rows ∧ ∃ reply changed, perform rows draw command = .ok (reply, changed) ∧
      Commits maxLimit draw rows request (.ofReply reply) changed) ∨
    (request.Misses rows ∧ ∃ operation, perform rows draw command = .error (.notFound operation)) := by
  cases request with
  | create r =>
    obtain ⟨_, _, rfl⟩ := eq_ok_of_map_eq_ok hc
    exact .inl ⟨id, _, _, rfl, .create⟩
  | list r =>
    obtain ⟨page, hp, rfl⟩ := eq_ok_of_map_eq_ok hc
    exact .inl ⟨id, _, _, rfl, .list hp⟩
  | update r =>
    obtain ⟨_, _, rfl⟩ := eq_ok_of_map_eq_ok hc
    cases h : changeRow r.id (fun u => u.apply r.profile draw.now) rows with
    | none => exact .inr ⟨changeRow_eq_none_iff.mp h, "update", by simp [perform, h]⟩
    | some changed =>
      refine .inl ⟨fun hm => ?_, .done, changed, by simp [perform, h], .update h⟩
      rw [changeRow_eq_none_iff.mpr hm] at h
      cases h
  | delete r =>
    obtain ⟨_, _, rfl⟩ := eq_ok_of_map_eq_ok hc
    by_cases h : ∀ u ∈ rows, u.id ≠ r.id
    · exact .inr ⟨h, "delete", by simp [perform, length_filter_ne_eq_iff.mpr h]⟩
    · have hl : ¬ (rows.filter fun u => u.id != r.id).length = rows.length :=
        fun hl => h (length_filter_ne_eq_iff.mp hl)
      refine .inl ⟨h, .done, _, by simp [perform, hl], .delete ?_⟩
      simpa using h

end Roster
