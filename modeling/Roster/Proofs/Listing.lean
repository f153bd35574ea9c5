import Roster.Message
/-! # What a list query selects

A query selects the rows that have every filter value which is not empty, and of these a window. -/
namespace Roster

namespace Conditions

theorem get?_insertSupplied (c : Conditions) (k k' : FilterKey) (v : String) :
    (c.insertSupplied k v).get? k' = if k' = k ∧ v ≠ "" then some v else c.get? k' := by
  by_cases h : v = ""
  · simp [insertSupplied, h]
  · simp [insertSupplied, h, get?_insert]

theorem holds_iff {c : Conditions} {u : User} :
    c.holds u = true ↔ ∀ k v, c.get? k = some v → k.value u = v := by
  simp only [holds, List.all_eq_true, beq_iff_eq, Prod.forall, mem_entries]

end Conditions

namespace ListUsers

/-- The account has the value of every filter that is set. -/
def selects (r : ListUsers) (u : User) : Bool :=
  FilterKey.all.all fun k => r.filter k == "" || k.value u == r.filter k

/-- How many rows the query asks for, if it may: of none the default, as far as it is allowed. -/
def windowSize (r : ListUsers) (maxLimit : UInt32) : Nat :=
  if r.limit = 0 then min 50 maxLimit.toNat else r.limit.toNat

/-- The rows that the query selects in its window; the first one has the number one. -/
def window (r : ListUsers) (maxLimit : UInt32) (rows : List User) : List User :=
  ((rows.filter r.selects).drop (max r.offset.toNat 1 - 1)).take (r.windowSize maxLimit)

theorem get?_conditions (r : ListUsers) (k : FilterKey) :
    r.conditions.get? k = if r.filter k = "" then none else some (r.filter k) := by
  cases k <;> simp [conditions, FilterKey.all, Conditions.get?_insertSupplied, ite_not]

theorem holds_conditions (r : ListUsers) (u : User) : r.conditions.holds u = r.selects u := by
  rw [Bool.eq_iff_iff, Conditions.holds_iff]
  simp only [selects, List.all_eq_true, Bool.or_eq_true, beq_iff_eq, get?_conditions]
  constructor
  · intro h k _
    by_cases hk : r.filter k = ""
    · exact .inl hk
    · exact .inr (h k _ (if_neg hk))
  · intro h k v hv
    rcases h k (FilterKey.mem_all k) with hk | hk
    · rw [if_pos hk] at hv
      cases hv
    · split at hv
      · cases hv
      · exact hk.trans (Option.some.inj hv)

end ListUsers

namespace Page

theorem limit_of_resolve {limit offset maxLimit : UInt32} {page : Page}
    (h : resolve limit offset maxLimit = .ok page) :
    page.limit.toNat = if limit = 0 then min 50 maxLimit.toNat else limit.toNat := by
  unfold resolve at h
  split at h
  · cases h
  · obtain rfl := Except.ok.inj h
    dsimp only
    split
    · split
      · rename_i hlt
        have hlt : maxLimit.toNat < 50 := UInt32.lt_iff_toNat_lt.mp hlt
        omega
      · rename_i hlt
        have hlt : ¬ maxLimit.toNat < 50 := fun h => hlt (UInt32.lt_iff_toNat_lt.mpr h)
        have hd : defaultLimit.toNat = 50 := rfl
        omega
    · rfl

theorem skip_of_resolve {limit offset maxLimit : UInt32} {page : Page}
    (h : resolve limit offset maxLimit = .ok page) : page.skip.toNat = max offset.toNat 1 - 1 := by
  unfold resolve at h
  split at h
  · cases h
  · obtain rfl := Except.ok.inj h
    by_cases h0 : offset = 0
    · simp [skip, h0]
    · have hpos : offset.toNat ≠ 0 := fun hn => h0 (UInt32.toNat_inj.mp hn)
      have hle : (1 : UInt32) ≤ offset := UInt32.le_iff_toNat_le.mpr (by
        have h1 : (1 : UInt32).toNat = 1 := rfl
        omega)
      simp only [skip, if_neg h0, UInt32.toNat_sub_of_le _ _ hle]
      have h1 : (1 : UInt32).toNat = 1 := rfl
      omega

/-- The window of a resolved page is the one that its query describes. -/
theorem slice_of_resolve {r : ListUsers} {maxLimit : UInt32} {page : Page}
    (h : resolve r.limit r.offset maxLimit = .ok page) (rows : List User) :
    page.slice (rows.filter r.conditions.holds) = r.window maxLimit rows := by
  rw [slice, skip_of_resolve h, limit_of_resolve h, funext r.holds_conditions]
  rfl

end Page

end Roster
