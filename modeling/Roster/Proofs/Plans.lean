import Mathlib.Data.List.Nodup
import Roster.Postgres.Repository
import Roster.Proofs.Table
/-! # What the statements of a repository ask for

The statement of a command is read back as its plan. A new row has the values of the account in every
column, and a change sets the columns of what is supplied, and the time of the change. -/
namespace Roster
open Postgres Sql

/-- The value of a column in a new row. -/
def newValue (draw : Draw) (profile : Profile) : Column → Value
  | .id => .text draw.id
  | .profile a => .text (profile.get a)
  | .createdAt | .updatedAt => .time draw.now

/-- The values of a new row come in the order of the columns. -/
theorem newValues_eq (draw : Draw) (profile : Profile) :
    newValues draw profile = Column.all.map (newValue draw profile) := rfl

namespace Command

/-- What a command sets in the row of an account. -/
def changesOf (draw : Draw) (changes : Profile) : List (Column × Value) :=
  changes.supplied.map (fun e => (.profile e.1, .text e.2)) ++ [(.updatedAt, .time draw.now)]

/-- Every change sets the time of the change at least. -/
theorem exists_changesOf (draw : Draw) (changes : Profile) :
    ∃ c cs, changesOf draw changes = c :: cs :=
  List.exists_cons_of_ne_nil (by simp [changesOf])

/-- What the statement of a command asks for. -/
def plan (draw : Draw) : Command → Plan
  | create profile => .insert (Column.all.map fun c => (c, newValue draw profile c))
  | update id changes => .update (changesOf draw changes) [(.id, .text id)]
  | delete id => .delete [(.id, .text id)]
  | get conditions page =>
    .select (conditions.entries.map fun c => (.ofKey c.1, .text c.2)) [.createdAt, .id]
      page.limit.toNat page.skip.toNat

theorem planOf?_statement (draw : Draw) (command : Command) :
    planOf? (statement draw command).2.text (statement draw command).2.binds =
      some (command.plan draw) := by
  cases command with
  | create profile =>
    have hlength : (newValues draw profile).length = Column.all.length := rfl
    have hplan := Statement.planOf?_insert hlength
    exact hplan
  | update id changes =>
    obtain ⟨c, cs, hc⟩ := exists_changesOf draw changes
    have hp := Statement.planOf?_update c cs id
    rw [← hc] at hp
    exact hp
  | delete id => exact Statement.planOf?_delete id
  | get conditions page =>
    exact Statement.planOf?_select conditions.entries page.limit.toNat page.skip.toNat

theorem master_or_reads (draw : Draw) (command : Command) :
    (statement draw command).1 = .master ∨ (command.plan draw).reads = true := by
  cases command with
  | create _ | update _ _ | delete _ => exact .inl rfl
  | get _ _ => exact .inr rfl

end Command

theorem Profile.mem_supplied {p : Profile} {e : Attribute × String} :
    e ∈ p.supplied ↔ p.get e.1 = e.2 ∧ e.2 ≠ "" := by
  obtain ⟨a, s⟩ := e
  simp only [supplied, List.mem_filter, List.mem_map, Prod.mk.injEq, bne_iff_ne]
  constructor
  · rintro ⟨⟨_, _, rfl, h⟩, hne⟩
    exact ⟨h, hne⟩
  · rintro ⟨h, hne⟩
    exact ⟨⟨a, Attribute.mem_all a, rfl, h⟩, hne⟩

theorem Profile.nodup_supplied (p : Profile) : (p.supplied.map (·.1)).Nodup := by
  have hall : ((Attribute.all.map fun a => (a, p.get a)).map (·.1)) = Attribute.all := by
    simp [Function.comp_def]
  have hn : Attribute.all.Nodup := by decide
  rw [← hall] at hn
  exact hn.sublist (List.filter_sublist.map _)

theorem sound_newRow (draw : Draw) (profile : Profile) :
    Sound (Column.all.map fun c => (c, newValue draw profile c)) := by
  have hcolumns : (Column.all.map fun c => (c, newValue draw profile c)).map (·.1) =
      Column.all := by
    simp [Function.comp_def]
  refine ⟨?_, ?_⟩
  · rw [hcolumns]
    decide
  · intro e he
    obtain ⟨c, -, rfl⟩ := List.mem_map.mp he
    cases c <;> rfl

theorem assign_newRow (draw : Draw) (profile : Profile) (u : User) :
    assign u (Column.all.map fun c => (c, newValue draw profile c)) =
      ⟨draw.id, profile, draw.now, draw.now⟩ := by
  refine eq_of_cell_eq fun c => ?_
  have hc : (c, newValue draw profile c) ∈ Column.all.map fun c => (c, newValue draw profile c) :=
    List.mem_map_of_mem (Column.mem_all c)
  rw [cell_assign_of_mem (sound_newRow draw profile) hc]
  cases c <;> rfl

theorem mem_changesOf {draw : Draw} {changes : Profile} {e : Column × Value} :
    e ∈ Command.changesOf draw changes ↔
      (∃ a, changes.get a ≠ "" ∧ e = (.profile a, .text (changes.get a))) ∨
        e = (.updatedAt, .time draw.now) := by
  simp only [Command.changesOf, List.mem_append, List.mem_map, List.mem_singleton,
    Profile.mem_supplied]
  constructor
  · rintro (⟨⟨a, s⟩, ⟨hs, hne⟩, rfl⟩ | h)
    · obtain rfl : changes.get a = s := hs
      exact .inl ⟨a, hne, rfl⟩
    · exact .inr h
  · rintro (⟨a, hne, rfl⟩ | h)
    · exact .inl ⟨(a, changes.get a), ⟨rfl, hne⟩, rfl⟩
    · exact .inr h

theorem sound_changesOf (draw : Draw) (changes : Profile) :
    Sound (Command.changesOf draw changes) := by
  refine ⟨?_, ?_⟩
  · have hn : ((changes.supplied.map (·.1)).map Column.profile).Nodup :=
      changes.nodup_supplied.map fun _ _ => Column.profile.inj
    rw [List.map_map] at hn
    have hapart : (changes.supplied.map (Column.profile ∘ (·.1))).Disjoint [.updatedAt] := by
      intro c hc hu
      obtain ⟨e, -, rfl⟩ := List.mem_map.mp hc
      cases List.mem_singleton.mp hu
    have hall := hn.append (List.nodup_singleton Column.updatedAt) hapart
    simpa [Command.changesOf, Function.comp_def] using hall
  · intro e he
    rcases mem_changesOf.mp he with ⟨a, -, rfl⟩ | rfl <;> rfl

/-- A change of a row sets what is supplied and the time, and nothing else. -/
theorem assign_changesOf (draw : Draw) (changes : Profile) (u : User) :
    assign u (Command.changesOf draw changes) = u.apply changes draw.now := by
  have hs := sound_changesOf draw changes
  have hnot {c : Column} (h : ∀ v, (c, v) ∉ Command.changesOf draw changes) :
      cell (assign u (Command.changesOf draw changes)) c = cell u c := by
    refine cell_assign_of_not_mem (fun hc => ?_) u
    obtain ⟨⟨c, v⟩, he, rfl⟩ := List.mem_map.mp hc
    exact h v he
  refine eq_of_cell_eq fun c => ?_
  cases c with
  | id | createdAt => exact hnot fun v => by simp [mem_changesOf]
  | updatedAt => exact cell_assign_of_mem hs (mem_changesOf.mpr (.inr rfl)) u
  | profile a =>
    have hget : cell (u.apply changes draw.now) (.profile a) =
        .text (if changes.get a = "" then u.profile.get a else changes.get a) := by
      rw [cell, User.apply, Profile.get_overwrite]
    rw [hget]
    by_cases ha : changes.get a = ""
    · rw [if_pos ha, hnot]
      · rfl
      · intro v
        simp only [mem_changesOf, not_or, not_exists, not_and]
        refine ⟨fun b hb heq => hb ?_, by simp⟩
        obtain rfl : a = b := Column.profile.inj (Prod.mk.inj heq).1
        exact ha
    · rw [if_neg ha]
      exact cell_assign_of_mem hs (mem_changesOf.mpr (.inl ⟨a, ha, rfl⟩)) u

namespace Attempt

/-- The texts that the attempt stores. -/
def texts (a : Attempt) : List String :=
  match a.command with
  | .create profile => a.draw.id :: Attribute.all.map profile.get
  | .update _ changes => Attribute.all.map changes.get
  | .delete _ | .get .. => []

/-- The texts that the attempt stores are within the widths of their columns. -/
def Within (a : Attempt) : Prop := ∀ s ∈ a.texts, s.length ≤ 64

instance : DecidablePred Within := fun a =>
  inferInstanceAs (Decidable (∀ s ∈ a.texts, s.length ≤ 64))

theorem Within.plan {a : Attempt} (h : a.Within) : (a.command.plan a.draw).Within := by
  intro e he s hs
  unfold Within texts at h
  cases hc : a.command with
  | create profile =>
    rw [hc] at h he
    obtain ⟨hid, hprofile⟩ := List.forall_mem_cons.mp h
    obtain ⟨c, -, rfl⟩ := List.mem_map.mp he
    cases c with
    | id => exact Value.text.inj hs ▸ hid
    | profile field =>
      exact Value.text.inj hs ▸ hprofile _ (List.mem_map_of_mem (Attribute.mem_all field))
    | createdAt | updatedAt => cases hs
  | update id changes =>
    rw [hc] at h he
    rcases mem_changesOf.mp he with ⟨field, -, rfl⟩ | rfl
    · exact Value.text.inj hs ▸ h _ (List.mem_map_of_mem (Attribute.mem_all field))
    · cases hs
  | delete id | get conditions page =>
    rw [hc] at he
    cases he

end Attempt

end Roster
