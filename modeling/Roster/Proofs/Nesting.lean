import Mathlib.Data.List.DropRight
import Roster.Proofs.Passing
/-! # Values that are read can be passed over

Whoever passes over a value keeps the frames around the place and takes them off one by one.
Reading follows the frames by recursion, and gives up where they are too many. A value that is read
takes the other no more steps than twice the characters that it has. -/
namespace Roster.Json

theorem skipBlanks_skipBlanks (cs : List Char) : skipBlanks (skipBlanks cs) = skipBlanks cs :=
  List.dropWhile_idempotent _ _

theorem length_skipBlanks_le (cs : List Char) : (skipBlanks cs).length ≤ cs.length :=
  (List.dropWhile_sublist _).length_le

/-- Blanks before a value make no difference. -/
theorem passOn_skipBlanks (fuel : Nat) (frames : List Frame) (cs : List Char) :
    passOn (fuel + 1) .value frames (skipBlanks cs) = passOn (fuel + 1) .value frames cs := by
  simp only [passOn, skipBlanks_skipBlanks]

theorem passName_skipBlanks (cs : List Char) : passName (skipBlanks cs) = passName cs := by
  simp only [passName, skipBlanks_skipBlanks]

/-- Passing over a value takes so many steps, whatever the frames around it. -/
def Passes (steps : Nat) (cs rest : List Char) : Prop :=
  ∀ fuel frames, passOn (fuel + steps) .value frames cs = passOn fuel (.frame true) frames rest

/-- Passing over what is left of a frame takes so many steps. -/
def Leaves (frame : Frame) (isFirst : Bool) (steps : Nat) (cs rest : List Char) : Prop :=
  ∀ fuel frames, passOn (fuel + steps) (.frame !isFirst) (frame :: frames) cs =
    passOn fuel (.frame true) frames rest

section

variable {frame : Frame} {isFirst : Bool} {cs rest : List Char}

theorem passes_scalar (h : passScalar (skipBlanks cs) = .ok rest) : Passes 1 cs rest := by
  intro fuel frames
  rw [passOn]
  split
  · rename_i heq
    rw [heq] at h
    cases h
  · rename_i heq
    rw [heq] at h
    cases h
  · rw [h]

theorem passes_list {more : List Char} {steps : Nat} (hopen : skipBlanks cs = '[' :: more)
    (h : Leaves .list true steps more rest) : Passes (steps + 1) cs rest := by
  intro fuel frames
  rw [← Nat.add_assoc, passOn, hopen]
  exact h fuel frames

theorem passes_object {more : List Char} {steps : Nat} (hopen : skipBlanks cs = '{' :: more)
    (h : Leaves .object true steps more rest) : Passes (steps + 1) cs rest := by
  intro fuel frames
  rw [← Nat.add_assoc, passOn, hopen]
  exact h fuel frames

theorem readClosing_eq_ok (h : readClosing frame cs = .ok rest) :
    skipBlanks cs = frame.closing :: rest := by
  unfold readClosing at h
  split at h
  · cases h
  · rename_i c more heq
    split at h
    · rename_i hc
      rw [heq, hc, Except.ok.inj h]
    · split at h
      · cases frame <;> cases h
      · cases h

theorem leaves_closing (h : readClosing frame cs = .ok rest) : Leaves frame isFirst 1 cs rest := by
  intro fuel frames
  rw [passOn, readClosing_eq_ok h]
  simp

/-- In front of an item stand blanks, and a comma if it is not the first. -/
theorem nextItem_eq_some {item : List Char} (h : nextItem frame isFirst cs = .ok (some item)) :
    ∃ c more, skipBlanks cs = c :: more ∧ c ≠ frame.closing ∧
      if isFirst then item = c :: more else c = ',' ∧ item = skipBlanks more := by
  unfold nextItem at h
  split at h
  · cases h
  · rename_i c more heq
    refine ⟨c, more, heq, ?_⟩
    split at h
    · cases h
    · rename_i hc
      refine ⟨hc, ?_⟩
      split at h
      · rename_i hfirst
        rw [if_pos hfirst]
        exact (Option.some.inj (Except.ok.inj h)).symm
      · rename_i hlater
        rw [if_neg hlater]
        split at h
        · cases h
        · rename_i hcomma
          refine ⟨not_not.mp hcomma, ?_⟩
          split at h
          · cases h
          · rename_i heq'
            split at h
            · cases h
            · rw [heq']
              exact (Option.some.inj (Except.ok.inj h)).symm

theorem length_of_nextItem {item : List Char} (h : nextItem frame isFirst cs = .ok (some item)) :
    item.length + (if isFirst then 0 else 1) ≤ cs.length := by
  obtain ⟨c, more, heq, -, hitem⟩ := nextItem_eq_some h
  have hblanks := length_skipBlanks_le cs
  have hmore := length_skipBlanks_le more
  rw [heq, List.length_cons] at hblanks
  cases isFirst with
  | true =>
    simp only [if_true] at hitem ⊢
    rw [hitem, List.length_cons]
    omega
  | false =>
    simp only [Bool.false_eq_true, if_false] at hitem ⊢
    rw [hitem.2]
    omega

/-- Passes over an item inside a frame, which has a name if the frame is an object. -/
def passItem (fuel : Nat) (frames : List Frame) (cs : List Char) : Frame → Except Fault (List Char)
  | .list => passOn fuel .value (.list :: frames) cs
  | .object => (passName cs).bind (passOn fuel .value (.object :: frames))

theorem passItem_eq (frame : Frame) (fuel : Nat) (frames : List Frame) (cs : List Char) :
    (match frame with
      | .list => passOn fuel .value (frame :: frames) cs
      | .object =>
        match passName cs with
        | .error f => .error f
        | .ok rest => passOn fuel .value (frame :: frames) rest) =
      passItem fuel frames cs frame := by
  cases frame with
  | list => rfl
  | object =>
    unfold passItem
    cases passName cs <;> rfl

/-- Behind a comma, blanks may still stand in front of the item. -/
theorem passOn_frame {item : List Char} (h : nextItem frame isFirst cs = .ok (some item)) :
    ∃ behind, skipBlanks behind = item ∧ ∀ fuel frames,
      passOn (fuel + 1) (.frame !isFirst) (frame :: frames) cs =
        passItem fuel frames behind frame := by
  obtain ⟨c, more, heq, hc, hitem⟩ := nextItem_eq_some h
  cases isFirst with
  | true =>
    have hblanks : skipBlanks (c :: more) = c :: more := by rw [← heq, skipBlanks_skipBlanks]
    refine ⟨c :: more, hblanks.trans hitem.symm, fun fuel frames => ?_⟩
    rw [passOn, heq]
    simp only [Bool.not_true, Bool.false_eq_true, if_neg hc, if_false, false_and]
    exact passItem_eq frame fuel frames _
  | false =>
    obtain ⟨rfl, rfl⟩ := hitem
    refine ⟨more, rfl, fun fuel frames => ?_⟩
    rw [passOn, heq]
    simp only [Bool.not_false, if_neg hc, ne_eq, not_true_eq_false, and_false, if_false, if_true]
    exact passItem_eq frame fuel frames _

theorem leaves_item {item more : List Char} {j k : Nat}
    (hnext : nextItem .list isFirst cs = .ok (some item)) (hitem : Passes (k + 1) item more)
    (hmore : Leaves .list false j more rest) : Leaves .list isFirst (j + (k + 1) + 1) cs rest := by
  intro fuel frames
  obtain ⟨behind, rfl, hstep⟩ := passOn_frame hnext
  have hvalue := hitem (fuel + j) (.list :: frames)
  rw [← Nat.add_assoc, passOn_skipBlanks] at hvalue
  rw [← Nat.add_assoc, ← Nat.add_assoc, hstep]
  exact hvalue.trans (hmore fuel frames)

theorem leaves_member {item behind more : List Char} {j k : Nat}
    (hnext : nextItem .object isFirst cs = .ok (some item)) (hname : passName item = .ok behind)
    (hvalue : Passes k behind more) (hmore : Leaves .object false j more rest) :
    Leaves .object isFirst (j + k + 1) cs rest := by
  intro fuel frames
  obtain ⟨start, rfl, hstep⟩ := passOn_frame hnext
  rw [passName_skipBlanks] at hname
  rw [← Nat.add_assoc, ← Nat.add_assoc, hstep, passItem, hname]
  exact (hvalue (fuel + j) (.object :: frames)).trans (hmore fuel frames)

theorem passName_of_readName {item behind more : List Char} {name : String}
    (hname : readName item = .ok (name, behind)) (hcolon : readColon behind = .ok more) :
    passName item = .ok more := by
  unfold readName at hname
  split at hname
  · rename_i text
    have hgap : skipBlanks ('"' :: text) = '"' :: text := rfl
    rw [passName, hgap]
    simp only [passText_of_readText hname]
    exact hcolon
  · cases hname

theorem length_of_readColon {behind : List Char} (h : readColon cs = .ok behind) :
    behind.length < cs.length := by
  have hblanks := length_skipBlanks_le cs
  unfold readColon at h
  split at h
  · cases h
  · rename_i heq
    rw [heq, List.length_cons, Except.ok.inj h] at hblanks
    exact hblanks
  · cases h

theorem length_of_passName {item more : List Char} (h : passName item = .ok more) :
    more.length < item.length := by
  have hblanks := length_skipBlanks_le item
  unfold passName at h
  split at h
  · cases h
  · rename_i text heq
    obtain ⟨behind, htext, hcolon⟩ := ok_of_bind h
    have hname := length_of_passText htext
    have hmore := length_of_readColon hcolon
    rw [heq, List.length_cons] at hblanks
    omega
  · cases h

theorem length_of_readClosing (h : readClosing frame cs = .ok rest) : rest.length < cs.length := by
  have hblanks := length_skipBlanks_le cs
  rw [readClosing_eq_ok h, List.length_cons] at hblanks
  exact hblanks

end

/-- A value is passed over, in no more steps than twice the characters that it has. -/
def Passable (cs rest : List Char) : Prop :=
  ∃ k, Passes (k + 1) cs rest ∧ k + 1 + 2 * rest.length ≤ 2 * cs.length

/-- What is left of a frame is passed over, and each item but the first brings a comma besides. -/
def Leavable (frame : Frame) (isFirst : Bool) (cs rest : List Char) : Prop :=
  ∃ k, Leaves frame isFirst k cs rest ∧
    k + (if isFirst then 0 else 1) + 2 * rest.length ≤ 2 * cs.length

section

variable {frame : Frame} {isFirst : Bool} {cs rest : List Char}

theorem leavable_closing (h : readClosing frame cs = .ok rest) :
    Leavable frame isFirst cs rest := by
  have hlength := length_of_readClosing h
  exact ⟨1, leaves_closing h, by split <;> omega⟩

theorem leavable_item {item more : List Char}
    (hnext : nextItem .list isFirst cs = .ok (some item)) (hitem : Passable item more)
    (hmore : Leavable .list false more rest) : Leavable .list isFirst cs rest := by
  obtain ⟨k, hpasses, hk⟩ := hitem
  obtain ⟨j, hleaves, hj⟩ := hmore
  have hlength := length_of_nextItem hnext
  refine ⟨_, leaves_item hnext hpasses hleaves, ?_⟩
  cases isFirst <;> simp only [Bool.false_eq_true, if_false, if_true] at hj hlength ⊢ <;> omega

theorem leavable_member {item behind more : List Char}
    (hnext : nextItem .object isFirst cs = .ok (some item)) (hname : passName item = .ok behind)
    (hvalue : Passable behind more) (hmore : Leavable .object false more rest) :
    Leavable .object isFirst cs rest := by
  obtain ⟨k, hpasses, hk⟩ := hvalue
  obtain ⟨j, hleaves, hj⟩ := hmore
  have hlength := length_of_nextItem hnext
  have hbehind := length_of_passName hname
  refine ⟨_, leaves_member hnext hname hpasses hleaves, ?_⟩
  cases isFirst <;> simp only [Bool.false_eq_true, if_false, if_true] at hj hlength ⊢ <;> omega

theorem passable_list {more : List Char} (hopen : skipBlanks cs = '[' :: more)
    (h : Leavable .list true more rest) : Passable cs rest := by
  obtain ⟨k, hleaves, hk⟩ := h
  have hlength := length_skipBlanks_le cs
  rw [hopen, List.length_cons] at hlength
  rw [if_pos rfl] at hk
  exact ⟨k, passes_list hopen hleaves, by omega⟩

theorem passable_object {more : List Char} (hopen : skipBlanks cs = '{' :: more)
    (h : Leavable .object true more rest) : Passable cs rest := by
  obtain ⟨k, hleaves, hk⟩ := h
  have hlength := length_skipBlanks_le cs
  rw [hopen, List.length_cons] at hlength
  rw [if_pos rfl] at hk
  exact ⟨k, passes_object hopen hleaves, by omega⟩

theorem passable_of_passScalar (h : passScalar (skipBlanks cs) = .ok rest) : Passable cs rest := by
  have hblanks := length_skipBlanks_le cs
  have hlength := length_of_passScalar h
  exact ⟨0, passes_scalar h, by omega⟩

theorem passable_scalar {v : Json} (h : readScalar (skipBlanks cs) = .ok (v, rest)) :
    Passable cs rest := passable_of_passScalar (passScalar_of_readScalar h)

/-- What is passed over within these steps is passed over by itself. -/
theorem Passable.passValue (h : Passable cs rest) : passValue cs = .ok rest := by
  obtain ⟨k, hpasses, hk⟩ := h
  obtain ⟨fuel, hfuel⟩ : ∃ fuel, 2 * cs.length + 2 = fuel + 1 + (k + 1) :=
    ⟨2 * cs.length - k, by omega⟩
  rw [Json.passValue, hfuel, hpasses (fuel + 1) []]
  rfl

end

/-- Reading follows the frames by recursion, one kind of step for each of its functions. -/
theorem passable_of_read (fuel : Nat) :
    (∀ {depth cs v rest}, readOn fuel depth cs = .ok (v, rest) → Passable cs rest) ∧
    (∀ {depth isFirst seen cs v rest}, readItems fuel depth isFirst seen cs = .ok (v, rest) →
      Leavable .list isFirst cs rest) ∧
    (∀ {depth isFirst seen cs v rest}, readMembers fuel depth isFirst seen cs = .ok (v, rest) →
      Leavable .object isFirst cs rest) := by
  induction fuel with
  | zero => exact ⟨nofun, nofun, nofun⟩
  | succ fuel ih =>
    obtain ⟨hvalue, hitems, hmembers⟩ := ih
    refine ⟨fun h => ?_, fun h => ?_, fun h => ?_⟩
    · rw [readOn] at h
      split at h
      · rename_i hopen
        split at h
        · cases h
        · exact passable_list hopen (hitems h)
      · rename_i hopen
        split at h
        · cases h
        · exact passable_object hopen (hmembers h)
      · exact passable_scalar h
    · rw [readItems] at h
      split at h
      · cases h
      · obtain ⟨_, hclosing, heq⟩ := ok_of_map h
        obtain ⟨-, rfl⟩ := Prod.mk.inj heq
        exact leavable_closing hclosing
      · rename_i hnext
        split at h
        · cases h
        · rename_i hitem
          exact leavable_item hnext (hvalue hitem) (hitems h)
    · rw [readMembers] at h
      split at h
      · cases h
      · obtain ⟨_, hclosing, heq⟩ := ok_of_map h
        obtain ⟨-, rfl⟩ := Prod.mk.inj heq
        exact leavable_closing hclosing
      · rename_i hnext
        split at h
        · cases h
        · rename_i hname
          split at h
          · cases h
          · rename_i hcolon
            split at h
            · cases h
            · rename_i hmember
              exact leavable_member hnext (passName_of_readName hname hcolon) (hvalue hmember)
                (hmembers h)

/-- A value that is read, however deep the place, is passed over. -/
theorem passValue_of_readValue {depth : Nat} {cs rest : List Char} {v : Json}
    (h : readValue depth cs = .ok (v, rest)) : passValue cs = .ok rest :=
  ((passable_of_read _).1 h).passValue

end Roster.Json
