import Roster.Postgres.Exchange
import Roster.Proofs.Dialect
/-! # What a database does with the table of accounts

The standard meaning of a statement about accounts: what it adds, changes, removes or finds. The rows
of a table lie in no order of their own, so a list of them stands for all its permutations. How texts
are sorted is left to the database. -/
namespace Roster.Sql
open Postgres Time

/-- The value of a row in a column. -/
def cell (u : User) : Column → Value
  | .id => .text u.id
  | .profile a => .text (u.profile.get a)
  | .createdAt => .time u.createdAt
  | .updatedAt => .time u.updatedAt

theorem eq_of_cell_eq {u v : User} (h : ∀ c, cell u c = cell v c) : u = v := by
  have hid : u.id = v.id := Value.text.inj (h .id)
  have hprofile : u.profile = v.profile :=
    Profile.ext_get fun a => Value.text.inj (h (.profile a))
  have hcreated : u.createdAt = v.createdAt := Value.time.inj (h .createdAt)
  have hupdated : u.updatedAt = v.updatedAt := Value.time.inj (h .updatedAt)
  cases u
  cases v
  simp_all

theorem cell_ofKey (u : User) (k : FilterKey) : cell u (.ofKey k) = .text (k.value u) := by
  cases k <;> rfl

/-- The value is of the type of the column. -/
def typed : Column × Value → Bool
  | (.id, .text _) | (.profile _, .text _) | (.createdAt, .time _) | (.updatedAt, .time _) => true
  | _ => false

/-- The row with another value in a column. -/
def put (u : User) : Column × Value → User
  | (.id, .text s) => { u with id := s }
  | (.profile a, .text s) =>
    { u with profile := .ofFn fun b => if b = a then s else u.profile.get b }
  | (.createdAt, .time t) => { u with createdAt := t }
  | (.updatedAt, .time t) => { u with updatedAt := t }
  | _ => u

theorem cell_put_self {e : Column × Value} (h : typed e = true) (u : User) :
    cell (put u e) e.1 = e.2 := by
  obtain ⟨c, v⟩ := e
  cases c <;> cases v <;> first | exact absurd h Bool.false_ne_true | simp [cell, put]

theorem cell_put_of_ne {e : Column × Value} {c : Column} (h : c ≠ e.1) (u : User) :
    cell (put u e) c = cell u c := by
  rcases e with ⟨_ | a | _ | _, _ | _ | _⟩ <;> cases c <;>
    first | rfl | exact absurd rfl h | skip
  rename_i s b
  have hb : b ≠ a := fun hb => h (congrArg Column.profile hb)
  simp [cell, put, hb]

/-- The row with other values in some columns. -/
def assign (u : User) (changes : List (Column × Value)) : User := changes.foldl put u

/-- Every column is named once and gets a value of its type. -/
def Sound (changes : List (Column × Value)) : Prop :=
  (changes.map (·.1)).Nodup ∧ ∀ e ∈ changes, typed e = true

instance : DecidablePred Sound := fun changes =>
  inferInstanceAs (Decidable ((changes.map (·.1)).Nodup ∧ ∀ e ∈ changes, typed e = true))

theorem cell_assign_of_not_mem {changes : List (Column × Value)} {c : Column}
    (h : c ∉ changes.map (·.1)) (u : User) : cell (assign u changes) c = cell u c := by
  induction changes generalizing u with
  | nil => rfl
  | cons e changes ih =>
    rw [List.map_cons, List.mem_cons, not_or] at h
    obtain ⟨hne, hrest⟩ := h
    exact (ih hrest (put u e)).trans (cell_put_of_ne hne u)

theorem cell_assign_of_mem {changes : List (Column × Value)} (hs : Sound changes)
    {e : Column × Value} (he : e ∈ changes) (u : User) : cell (assign u changes) e.1 = e.2 := by
  induction changes generalizing u with
  | nil => cases he
  | cons d changes ih =>
    obtain ⟨hn, ht⟩ := hs
    rw [List.map_cons, List.nodup_cons] at hn
    rw [List.forall_mem_cons] at ht
    rcases List.mem_cons.mp he with rfl | he
    · exact (cell_assign_of_not_mem hn.1 (put u e)).trans (cell_put_self ht.1 u)
    · exact ih ⟨hn.2, ht.2⟩ he (put u d)

/-- The row has every value that it is compared with. -/
def meets (conditions : List (Column × Value)) (u : User) : Bool :=
  conditions.all fun c => cell u c.1 == c.2

theorem meets_id (id : String) (u : User) : meets [(.id, .text id)] u = decide (u.id = id) := by
  simp [meets, cell, beq_eq_decide]

theorem meets_entries (conditions : Conditions) (u : User) :
    meets (conditions.entries.map fun c => (.ofKey c.1, .text c.2)) u = conditions.holds u := by
  simp only [meets, Conditions.holds, List.all_map, Function.comp_def, cell_ofKey]
  congr 1
  funext e
  rw [Bool.eq_iff_iff, beq_iff_eq, beq_iff_eq, Value.text.injEq]

/-- One value comes before another of its type. -/
def Value.Before (collate : String → String → Prop) : Value → Value → Prop
  | .text s, .text t => collate s t
  | .count m, .count n => m < n
  | .time s, .time t => s < t
  | _, _ => False

/-- One row may stand before another: the first key in which they differ decides. -/
def Precedes (collate : String → String → Prop) : List Column → User → User → Prop
  | [], _, _ => True
  | c :: keys, u, v =>
    (cell u c).Before collate (cell v c) ∨ cell u c = cell v c ∧ Precedes collate keys u v

namespace Plan

/-- The columns without which there is no new row; the others have a default, the empty text. -/
def required : List Column := [.id, .createdAt, .updatedAt]

/-- How many rows a change concerns and what it makes of the table, unless the database refuses it.
Identifiers are unique. -/
def change? (rows : List User) : Plan → Option (Nat × List User)
  | insert row =>
    let u := assign default row
    if Sound row ∧ required ⊆ row.map (·.1) ∧ u.id ∉ rows.map (·.id) then some (1, u :: rows)
    else none
  | update changes conditions =>
    let changed := rows.map fun u => if meets conditions u then assign u changes else u
    if Sound changes ∧ (changed.map (·.id)).Nodup then
      some (rows.countP (meets conditions), changed)
    else none
  | delete conditions =>
    some (rows.countP (meets conditions), rows.filter fun u => !meets conditions u)
  | select .. => none

/-- What may come of a plan: an answer, and a table after it. -/
def Carries (collate : String → String → Prop) (rows : List User) :
    Plan → Except String Answer → List User → Prop
  | select conditions keys limit offset, answer, after =>
    after.Perm rows ∧
      ∃ sorted : List User, sorted.Perm (rows.filter (meets conditions)) ∧
        sorted.Pairwise (Precedes collate keys) ∧
        answer = .ok { rows := (sorted.drop offset).take limit }
  | plan, answer, after =>
    match plan.change? rows with
    | some (affected, changed) => answer = .ok { affected } ∧ after.Perm changed
    | none => (∃ message, answer = .error message) ∧ after.Perm rows

/-- A plan that changes nothing. -/
def reads : Plan → Bool
  | select .. => true
  | _ => false

/-- The values that a plan stores. -/
def stored : Plan → List (Column × Value)
  | insert row => row
  | update changes _ => changes
  | delete _ | select .. => []

/-- Every text that is stored is within the width of its column. -/
def Within (plan : Plan) : Prop := ∀ e ∈ plan.stored, ∀ s, e.2 = .text s → s.length ≤ 64

end Plan

end Roster.Sql

namespace Roster.Postgres
open Sql

/-- The databases give the statements about accounts their standard meaning, the replica being in
step with the master and open to queries only. -/
structure Standard {σ : Type} (peers : Peers σ) (table : σ → List User)
    (collate : String → String → Prop) : Prop where
  admits : ∀ side state, peers.refusal side state = none
  carries : ∀ side s state plan, planOf? s.text s.binds = some plan → plan.Within →
    side = .master ∨ plan.reads = true →
    plan.Carries collate (table state) (peers.answer side s state).1
      (table (peers.answer side s state).2)

end Roster.Postgres

namespace Roster.Sql
open Postgres Time

theorem text_trichotomy (s t : String) : s < t ∨ s = t ∨ t < s := by
  by_cases hst : s < t
  · exact .inl hst
  · by_cases hts : t < s
    · exact .inr (.inr hts)
    · exact .inr (.inl (String.le_antisymm (String.not_lt.mp hts) (String.not_lt.mp hst)))

theorem before_cell_trichotomy (c : Column) (u v : User) :
    (cell u c).Before (· < ·) (cell v c) ∨ cell u c = cell v c ∨
      (cell v c).Before (· < ·) (cell u c) := by
  cases c with
  | id | profile a => simpa [cell, Value.Before] using text_trichotomy _ _
  | createdAt | updatedAt => simpa [cell, Value.Before] using Timestamp.lt_trichotomy _ _

theorem before_cell_trans {c : Column} {u v w : User}
    (huv : (cell u c).Before (· < ·) (cell v c)) (hvw : (cell v c).Before (· < ·) (cell w c)) :
    (cell u c).Before (· < ·) (cell w c) := by
  cases c with
  | id | profile a => exact String.lt_trans huv hvw
  | createdAt | updatedAt => exact Timestamp.lt_trans huv hvw

theorem precedes_total (keys : List Column) (u v : User) :
    Precedes (· < ·) keys u v ∨ Precedes (· < ·) keys v u := by
  induction keys with
  | nil => exact .inl trivial
  | cons c keys ih =>
    rcases before_cell_trichotomy c u v with hlt | heq | hgt
    · exact .inl (.inl hlt)
    · exact ih.imp (fun h => .inr ⟨heq, h⟩) fun h => .inr ⟨heq.symm, h⟩
    · exact .inr (.inl hgt)

theorem precedes_trans {keys : List Column} {u v w : User} (huv : Precedes (· < ·) keys u v)
    (hvw : Precedes (· < ·) keys v w) : Precedes (· < ·) keys u w := by
  induction keys with
  | nil => trivial
  | cons c keys ih =>
    rcases huv with huv | ⟨heq, huv⟩
    · rcases hvw with hvw | ⟨heq, -⟩
      · exact .inl (before_cell_trans huv hvw)
      · exact .inl (heq ▸ huv)
    · rcases hvw with hvw | ⟨heq', hvw⟩
      · exact .inl (heq ▸ hvw)
      · exact .inr ⟨heq.trans heq', ih huv hvw⟩

instance : DecidableRel (Value.Before (· < ·))
  | .text s, .text t => inferInstanceAs (Decidable (s < t))
  | .count m, .count n => inferInstanceAs (Decidable (m < n))
  | .time s, .time t => inferInstanceAs (Decidable (s < t))
  | .text _, .count _ | .text _, .time _ | .count _, .text _ | .count _, .time _
  | .time _, .text _ | .time _, .count _ => inferInstanceAs (Decidable False)

instance decidablePrecedes : (keys : List Column) → DecidableRel (Precedes (· < ·) keys)
  | [], _, _ => inferInstanceAs (Decidable True)
  | c :: keys, u, v =>
    have := decidablePrecedes keys u v
    inferInstanceAs (Decidable ((cell u c).Before (· < ·) (cell v c) ∨
      cell u c = cell v c ∧ Precedes (· < ·) keys u v))

/-- The rows in the order of some keys. -/
def sortedBy (keys : List Column) (rows : List User) : List User :=
  rows.mergeSort fun u v => decide (Precedes (· < ·) keys u v)

theorem sortedBy_perm (keys : List Column) (rows : List User) : (sortedBy keys rows).Perm rows :=
  List.mergeSort_perm rows _

theorem pairwise_sortedBy (keys : List Column) (rows : List User) :
    (sortedBy keys rows).Pairwise (Precedes (· < ·) keys) := by
  have htrans (u v w : User) (huv : decide (Precedes (· < ·) keys u v) = true)
      (hvw : decide (Precedes (· < ·) keys v w) = true) :
      decide (Precedes (· < ·) keys u w) = true :=
    decide_eq_true (precedes_trans (of_decide_eq_true huv) (of_decide_eq_true hvw))
  have htotal (u v : User) :
      (decide (Precedes (· < ·) keys u v) || decide (Precedes (· < ·) keys v u)) = true := by
    simpa using precedes_total keys u v
  exact (List.pairwise_mergeSort htrans htotal rows).imp of_decide_eq_true

/-- A database carries out a plan. -/
def Plan.carryOut (rows : List User) : Plan → Except String Answer × List User
  | select conditions keys limit offset =>
    let sorted := sortedBy keys (rows.filter (meets conditions))
    (.ok { rows := (sorted.drop offset).take limit }, rows)
  | plan =>
    match plan.change? rows with
    | some (affected, changed) => (.ok { affected }, changed)
    | none => (.error "violates a constraint", rows)

theorem Plan.carries_carryOut (plan : Plan) (rows : List User) :
    plan.Carries (· < ·) rows (plan.carryOut rows).1 (plan.carryOut rows).2 := by
  cases plan with
  | select conditions keys limit offset =>
    exact ⟨.refl rows, _, sortedBy_perm _ _, pairwise_sortedBy _ _, rfl⟩
  | insert _ | update _ _ | delete _ =>
    simp only [Carries, carryOut]
    split
    · exact ⟨rfl, .refl _⟩
    · exact ⟨⟨_, rfl⟩, .refl _⟩

end Roster.Sql

namespace Roster.Postgres
open Sql

/-- A pair of databases with one table between them. Statements that are not about its rows leave it
as it is. -/
def oneTable : Peers (List User) where
  refusal _ _ := none
  answer side s rows :=
    match planOf? s.text s.binds with
    | some plan =>
      if side = .master ∨ plan.reads = true then plan.carryOut rows
      else (.error "cannot change rows in a read-only transaction", rows)
    | none => (.ok {}, rows)

theorem standard_oneTable : Standard oneTable id (· < ·) where
  admits _ _ := rfl
  carries side s rows plan hplan _ hside := by
    simp only [oneTable, hplan, if_pos hside, id]
    exact plan.carries_carryOut rows

end Roster.Postgres
