import Roster.Proofs.Nesting
import Roster.Proofs.Records
import Roster.Proofs.Spellings
/-! # How values are written

A grammar for JSON values with blanks between their lexemes. It is strict or not: a value that is
read has characters for all its code units and numbers in range, and is nested no deeper than the
reader allows; a value that is passed over need not. Each of the two readers takes what its grammar
allows, up to whatever stands behind it. -/
namespace Roster.Json
open Text

/-- Blanks alone. -/
def Blank (cs : List Char) : Prop := ∀ c ∈ cs, isGap c = true

instance (cs : List Char) : Decidable (Blank cs) := List.decidableBAll _ cs

/-- A value with the blanks around it. -/
structure Slot where
  before : List Char := []
  value : List Char
  after : List Char := []
  blank_before : Blank before := by decide
  blank_after : Blank after := by decide

def Slot.text (s : Slot) : List Char := s.before ++ (s.value ++ s.after)

/-- A member of an object, its name as it stands between the quotes. -/
structure Member where
  before : List Char := []
  marks : List Char
  between : List Char := []
  slot : Slot
  blank_before : Blank before := by decide
  blank_between : Blank between := by decide

def Member.text (m : Member) : List Char :=
  m.before ++ '"' :: (m.marks ++ '"' :: (m.between ++ ':' :: m.slot.text))

/-- What may stand between the quotes of a string. -/
def Quoted : Bool → List Char → Prop
  | true, marks => ∃ cs, Spelling cs marks
  | false, marks => Marks marks

/-- The size of a number matters where it is read. -/
def Numeral.Allowed (n : Numeral) : Bool → Prop
  | true => n.InRange
  | false => True

def sign : Bool → List Char
  | true => ['-']
  | false => []

/-- The text of a value with at most so many levels of lists and objects. -/
inductive Written (strict : Bool) : Nat → List Char → Prop
  | word {levels : Nat} {w : List Char}
      (hw : w ∈ [['n', 'u', 'l', 'l'], ['t', 'r', 'u', 'e'], ['f', 'a', 'l', 's', 'e']]) :
      Written strict levels w
  | text {levels : Nat} {marks : List Char} (hmarks : Quoted strict marks) :
      Written strict levels ('"' :: (marks ++ ['"']))
  | number {levels : Nat} {n : Numeral} {isNegative : Bool} (hn : n.Allowed strict) :
      Written strict levels (sign isNegative ++ n.text)
  | list {levels : Nat} {gap : List Char} {slots : List Slot} (hgap : Blank gap)
      (hslots : ∀ s ∈ slots, Written strict levels s.value) :
      Written strict (levels + 1) ('[' :: (gap ++ (separate (slots.map Slot.text) ++ [']'])))
  | object {levels : Nat} {gap : List Char} {members : List Member} (hgap : Blank gap)
      (hmarks : ∀ m ∈ members, Quoted strict m.marks)
      (hmembers : ∀ m ∈ members, Written strict levels m.slot.value) :
      Written strict (levels + 1) ('{' :: (gap ++ (separate (members.map Member.text) ++ ['}'])))

theorem blank_nil : Blank [] := nofun

theorem Blank.append {gap more : List Char} (h : Blank gap) (hmore : Blank more) :
    Blank (gap ++ more) := List.forall_mem_append.mpr ⟨h, hmore⟩

theorem blank_takeWhile (cs : List Char) : Blank (cs.takeWhile isGap) :=
  fun _ hc => List.mem_takeWhile_imp hc

theorem exists_blank (cs : List Char) : ∃ gap, Blank gap ∧ cs = gap ++ skipBlanks cs :=
  ⟨cs.takeWhile isGap, blank_takeWhile cs, List.takeWhile_append_dropWhile.symm⟩

section

variable {gap : List Char} (hgap : Blank gap)
include hgap

theorem skipBlanks_append (cs : List Char) : skipBlanks (gap ++ cs) = skipBlanks cs :=
  List.dropWhile_append_of_pos hgap

theorem skipBlanks_append_cons {c : Char} (hc : isGap c = false) (cs : List Char) :
    skipBlanks (gap ++ c :: cs) = c :: cs := by
  rw [skipBlanks_append hgap, skipBlanks_cons hc]

theorem readColon_append (cs : List Char) : readColon (gap ++ ':' :: cs) = .ok cs := by
  simp only [readColon, skipBlanks_append_cons hgap (rfl : isGap ':' = false)]

theorem ends_append {rest : List Char} (hrest : Ends rest) : Ends (gap ++ rest) := by
  cases gap with
  | nil => exact hrest
  | cons c gap =>
    intro d hd
    obtain rfl : c = d := by simpa using hd
    have hc : isGap c = true := hgap c List.mem_cons_self
    simp only [isGap, Bool.or_eq_true, beq_iff_eq] at hc
    obtain ((rfl | rfl) | rfl) | rfl := hc <;> decide

theorem nextItem_blank_closing (frame : Frame) (isFirst : Bool) (rest : List Char) :
    nextItem frame isFirst (gap ++ frame.closing :: rest) = .ok none := by
  simp [nextItem, skipBlanks_append_cons hgap (isGap_closing frame)]

theorem readClosing_blank_closing (frame : Frame) (rest : List Char) :
    readClosing frame (gap ++ frame.closing :: rest) = .ok rest := by
  simp [readClosing, skipBlanks_append_cons hgap (isGap_closing frame)]

/-- An item follows blanks, and a comma and more blanks unless it is the first. -/
theorem nextItem_part (frame : Frame) (isFirst : Bool) {before : List Char} {c : Char}
    (hbefore : Blank before) (hc : isGap c = false) (hclose : c ≠ frame.closing)
    (part : List Char) (parts : List (List Char)) (rest : List Char) :
    nextItem frame isFirst (gap ++ (remaining isFirst ((before ++ c :: part) :: parts) ++ rest)) =
      .ok (some (c :: (part ++ (remaining false parts ++ rest)))) := by
  have hcomma : ',' ≠ frame.closing := by cases frame <;> decide
  rw [remaining_cons]
  cases isFirst with
  | true =>
    simp [nextItem, skipBlanks_append hgap, skipBlanks_append_cons hbefore hc, hclose]
  | false =>
    have hgap' : isGap ',' = false := rfl
    simp [nextItem, skipBlanks_append_cons hgap hgap', skipBlanks_append_cons hbefore hc, hclose,
      hcomma]

end

theorem ends_after_item {gap : List Char} (hgap : Blank gap) (frame : Frame)
    (parts : List (List Char)) (rest : List Char) :
    Ends (gap ++ (remaining false parts ++ frame.closing :: rest)) :=
  ends_append hgap (ends_remaining frame rest parts)

theorem marks_of_quoted {strict : Bool} {marks : List Char} (h : Quoted strict marks) :
    Marks marks := by
  cases strict with
  | true => exact marks_of_spelling h.choose_spec
  | false => exact h

theorem Numeral.exists_text (n : Numeral) :
    ∃ c cs, n.text = c :: cs ∧ c.isDigit = true := by
  obtain ⟨c, ws, hws⟩ := List.exists_cons_of_ne_nil n.whole_ne
  exact ⟨c, ws ++ _, by rw [Numeral.text, hws]; rfl, n.whole_digit (hws ▸ List.mem_cons_self)⟩

theorem passScalar_digit {c : Char} (hc : c.isDigit = true) (cs : List Char) :
    passScalar (c :: cs) = passNumber (c :: cs) := by
  have hne (d : Char) (hd : d.isDigit = false) : c ≠ d := ne_of_isDigit hc hd
  simp [passScalar, hne 'n' rfl, hne 't' rfl, hne 'f' rfl, hne '"' rfl, hne '-' rfl, hc]

theorem readScalar_digit {c : Char} (hc : c.isDigit = true) (cs : List Char) :
    readScalar (c :: cs) = (readNumber false (c :: cs)).map fun r => (Json.number r.1, r.2) := by
  have hne (d : Char) (hd : d.isDigit = false) : c ≠ d := ne_of_isDigit hc hd
  simp [readScalar, hne 'n' rfl, hne 't' rfl, hne 'f' rfl, hne '"' rfl, hne '-' rfl, hc]

theorem passScalar_number (n : Numeral) (isNegative : Bool) {rest : List Char}
    (hrest : Ends rest) : passScalar (sign isNegative ++ (n.text ++ rest)) = .ok rest := by
  have hpass := passNumber_text (stops_of_ends hrest n)
  cases isNegative with
  | true => exact hpass
  | false =>
    obtain ⟨c, cs, htext, hc⟩ := n.exists_text
    rw [htext, List.cons_append] at hpass ⊢
    exact (passScalar_digit hc _).trans hpass

theorem readScalar_number {n : Numeral} {isNegative : Bool} {a : Number}
    (h : n.value? isNegative = some a) {rest : List Char} (hrest : Ends rest) :
    readScalar (sign isNegative ++ (n.text ++ rest)) = .ok (.number a, rest) := by
  have hread := readNumber_value h hrest
  cases isNegative with
  | true =>
    change (readNumber true (n.text ++ rest)).map _ = _
    rw [hread]
    rfl
  | false =>
    obtain ⟨c, cs, htext, hc⟩ := n.exists_text
    rw [htext, List.cons_append] at hread ⊢
    change readScalar (c :: (cs ++ rest)) = _
    rw [readScalar_digit hc, hread]
    rfl

/-- A value begins with a character that neither is a blank nor closes a frame. -/
theorem Written.exists_cons {strict : Bool} {levels : Nat} {v : List Char}
    (h : Written strict levels v) :
    ∃ c cs, v = c :: cs ∧ isGap c = false ∧ ∀ frame : Frame, c ≠ frame.closing := by
  cases h with
  | word hw =>
    simp only [List.mem_cons, List.not_mem_nil, or_false] at hw
    obtain rfl | rfl | rfl := hw <;> exact ⟨_, _, rfl, rfl, fun frame => by cases frame <;> decide⟩
  | text => exact ⟨'"', _, rfl, rfl, fun frame => by cases frame <;> decide⟩
  | @number _ n isNegative =>
    cases isNegative with
    | true => exact ⟨'-', _, rfl, rfl, fun frame => by cases frame <;> decide⟩
    | false =>
      obtain ⟨c, cs, htext, hc⟩ := n.exists_text
      refine ⟨c, cs, htext, isGap_of_isDigit hc, fun frame => ?_⟩
      cases frame <;> exact ne_of_isDigit hc rfl
  | list => exact ⟨'[', _, rfl, rfl, fun frame => by cases frame <;> decide⟩
  | object => exact ⟨'{', _, rfl, rfl, fun frame => by cases frame <;> decide⟩

theorem Written.skipBlanks_eq {strict : Bool} {levels : Nat} {v : List Char}
    (h : Written strict levels v) (rest : List Char) : skipBlanks (v ++ rest) = v ++ rest := by
  obtain ⟨c, cs, rfl, hc, -⟩ := h.exists_cons
  exact skipBlanks_cons hc _

theorem Written.mono {strict : Bool} {levels more : Nat} {v : List Char}
    (h : Written strict levels v) (hle : levels ≤ more) : Written strict more v := by
  induction h generalizing more with
  | word hw => exact .word hw
  | text hmarks => exact .text hmarks
  | number hn => exact .number hn
  | list hgap _ ih =>
    obtain ⟨more, rfl⟩ : ∃ k, more = k + 1 := Nat.exists_eq_add_one.mpr (by omega)
    exact .list hgap fun s hs => ih s hs (Nat.le_of_succ_le_succ hle)
  | object hgap hmarks _ ih =>
    obtain ⟨more, rfl⟩ : ∃ k, more = k + 1 := Nat.exists_eq_add_one.mpr (by omega)
    exact .object hgap hmarks fun m hm => ih m hm (Nat.le_of_succ_le_succ hle)

/-- What is written strictly is also written. -/
theorem Written.relax {strict : Bool} {levels : Nat} {v : List Char}
    (h : Written strict levels v) : Written false levels v := by
  induction h with
  | word hw => exact .word hw
  | text hmarks => exact .text (marks_of_quoted hmarks)
  | number => exact .number trivial
  | list hgap _ ih => exact .list hgap ih
  | object hgap hmarks _ ih => exact .object hgap (fun m hm => marks_of_quoted (hmarks m hm)) ih

/-- A value is passed over in front of anything that ends it. -/
def Passed (v : List Char) : Prop := ∀ rest, Ends rest → Passable (v ++ rest) rest

/-- What stands in a list behind the value of an item. -/
def behindSlot (s : Slot) (slots : List Slot) (rest : List Char) : List Char :=
  s.after ++ (remaining false (slots.map Slot.text) ++ ']' :: rest)

theorem ends_behindSlot (s : Slot) (slots : List Slot) (rest : List Char) :
    Ends (behindSlot s slots rest) := ends_after_item s.blank_after .list _ rest

theorem nextItem_slot {gap : List Char} (hgap : Blank gap) (isFirst : Bool) {s : Slot}
    {strict : Bool} {levels : Nat} (hs : Written strict levels s.value) (slots : List Slot)
    (rest : List Char) :
    nextItem .list isFirst
        (gap ++ (remaining isFirst ((s :: slots).map Slot.text) ++ ']' :: rest)) =
      .ok (some (s.value ++ behindSlot s slots rest)) := by
  obtain ⟨c, cs, hc, hgap', hclose⟩ := hs.exists_cons
  have hpart := nextItem_part hgap .list isFirst s.blank_before hgap' (hclose _) (cs ++ s.after)
    (slots.map Slot.text) (']' :: rest)
  simpa [Slot.text, hc, behindSlot] using hpart

theorem leavable_slots {gap : List Char} (hgap : Blank gap) (isFirst : Bool) {slots : List Slot}
    {strict : Bool} {levels : Nat} (hslots : ∀ s ∈ slots, Written strict levels s.value)
    (hpassed : ∀ s ∈ slots, Passed s.value) (rest : List Char) :
    Leavable .list isFirst (gap ++ (remaining isFirst (slots.map Slot.text) ++ ']' :: rest))
      rest := by
  induction slots generalizing isFirst gap with
  | nil =>
    rw [List.map_nil, remaining_nil]
    exact leavable_closing (readClosing_blank_closing hgap .list rest)
  | cons s slots ih =>
    obtain ⟨hs, hslots⟩ := List.forall_mem_cons.mp hslots
    obtain ⟨hpass, hpassed⟩ := List.forall_mem_cons.mp hpassed
    exact leavable_item (nextItem_slot hgap isFirst hs slots rest)
      (hpass _ (ends_behindSlot s slots rest)) (ih s.blank_after false hslots hpassed)

theorem Passable.blank {gap cs rest : List Char} (hgap : Blank gap) (h : Passable cs rest) :
    Passable (gap ++ cs) rest := by
  obtain ⟨k, hpasses, hk⟩ := h
  refine ⟨k, fun fuel frames => ?_, by rw [List.length_append]; omega⟩
  rw [← hpasses fuel frames, ← Nat.add_assoc, ← passOn_skipBlanks, skipBlanks_append hgap,
    passOn_skipBlanks]

/-- What stands in an object behind the value of a member. -/
def behindMember (m : Member) (members : List Member) (rest : List Char) : List Char :=
  m.slot.after ++ (remaining false (members.map Member.text) ++ '}' :: rest)

theorem ends_behindMember (m : Member) (members : List Member) (rest : List Char) :
    Ends (behindMember m members rest) := ends_after_item m.slot.blank_after .object _ rest

/-- What stands in an object from the value of a member on. -/
def fromValue (m : Member) (members : List Member) (rest : List Char) : List Char :=
  m.slot.before ++ (m.slot.value ++ behindMember m members rest)

/-- What stands in an object from the name of a member on. -/
def fromName (m : Member) (members : List Member) (rest : List Char) : List Char :=
  m.marks ++ '"' :: (m.between ++ ':' :: fromValue m members rest)

theorem nextItem_fromName {gap : List Char} (hgap : Blank gap) (isFirst : Bool) (m : Member)
    (members : List Member) (rest : List Char) :
    nextItem .object isFirst
        (gap ++ (remaining isFirst ((m :: members).map Member.text) ++ '}' :: rest)) =
      .ok (some ('"' :: fromName m members rest)) := by
  have hpart := nextItem_part hgap .object isFirst m.blank_before (c := '"') rfl (by decide)
    (m.marks ++ '"' :: (m.between ++ ':' :: m.slot.text)) (members.map Member.text) ('}' :: rest)
  simpa [Member.text, Slot.text, fromName, fromValue, behindMember] using hpart

theorem passName_fromName {m : Member} (hmarks : Marks m.marks) (members : List Member)
    (rest : List Char) :
    passName ('"' :: fromName m members rest) = .ok (fromValue m members rest) := by
  have hgap : isGap '"' = false := rfl
  simp only [passName, skipBlanks_cons hgap, fromName, passText_marks hmarks]
  exact readColon_append m.blank_between _

theorem leavable_members {gap : List Char} (hgap : Blank gap) (isFirst : Bool)
    {members : List Member} (hmarks : ∀ m ∈ members, Marks m.marks)
    (hpassed : ∀ m ∈ members, Passed m.slot.value) (rest : List Char) :
    Leavable .object isFirst (gap ++ (remaining isFirst (members.map Member.text) ++ '}' :: rest))
      rest := by
  induction members generalizing isFirst gap with
  | nil =>
    rw [List.map_nil, remaining_nil]
    exact leavable_closing (readClosing_blank_closing hgap .object rest)
  | cons m members ih =>
    obtain ⟨hm, hmarks⟩ := List.forall_mem_cons.mp hmarks
    obtain ⟨hpass, hpassed⟩ := List.forall_mem_cons.mp hpassed
    have hvalue : Passable (fromValue m members rest) (behindMember m members rest) :=
      (hpass _ (ends_behindMember m members rest)).blank m.slot.blank_before
    exact leavable_member (nextItem_fromName hgap isFirst m members rest)
      (passName_fromName hm members rest) hvalue (ih m.slot.blank_after false hmarks hpassed)

/-- A value that is written is passed over. -/
theorem Written.passed {strict : Bool} {levels : Nat} {v : List Char}
    (h : Written strict levels v) : Passed v := by
  intro rest hrest
  induction h generalizing rest with
  | word hw =>
    simp only [List.mem_cons, List.not_mem_nil, or_false] at hw
    obtain rfl | rfl | rfl := hw <;> exact passable_of_passScalar rfl
  | @text _ marks hmarks =>
    have hgap : isGap '"' = false := rfl
    refine passable_of_passScalar ?_
    simpa [skipBlanks_cons hgap, passScalar] using passText_marks (marks_of_quoted hmarks) rest
  | @number _ n isNegative hn =>
    refine passable_of_passScalar ?_
    rw [(Written.number hn : Written strict 0 _).skipBlanks_eq, List.append_assoc]
    exact passScalar_number n isNegative hrest
  | list hgap hslots ih =>
    have hgap' : isGap '[' = false := rfl
    refine passable_list (skipBlanks_cons hgap' _) ?_
    simpa [remaining] using leavable_slots hgap true hslots (fun s hs rest => ih s hs rest) rest
  | object hgap hmarks hmembers ih =>
    have hgap' : isGap '{' = false := rfl
    refine passable_object (skipBlanks_cons hgap' _) ?_
    simpa [remaining] using leavable_members hgap true
      (fun m hm => marks_of_quoted (hmarks m hm)) (fun m hm rest => ih m hm rest) rest

/-- A value is read inside so many frames in front of anything that ends it, if there are steps for
its characters. -/
def Readable (depth : Nat) (v : List Char) : Prop :=
  ∀ {fuel rest}, v.length ≤ fuel → Ends rest → ∃ j, readOn fuel depth (v ++ rest) = .ok (j, rest)

theorem readOn_blank {gap : List Char} (hgap : Blank gap) (fuel depth : Nat) (cs : List Char) :
    readOn (fuel + 1) depth (gap ++ cs) = readOn (fuel + 1) depth cs := by
  simp only [readOn, skipBlanks_append hgap]

theorem readOn_scalar {cs rest : List Char} {j : Json}
    (h : readScalar (skipBlanks cs) = .ok (j, rest)) (fuel depth : Nat) :
    readOn (fuel + 1) depth cs = .ok (j, rest) := by
  rw [readOn]
  split
  · rename_i heq
    rw [heq] at h
    cases h
  · rename_i heq
    rw [heq] at h
    cases h
  · exact h

theorem readItems_slots {gap : List Char} (hgap : Blank gap) (isFirst : Bool) {slots : List Slot}
    {levels depth fuel : Nat} (hslots : ∀ s ∈ slots, Written true levels s.value)
    (hreads : ∀ s ∈ slots, Readable depth s.value) (seen : List Json) (rest : List Char)
    (hfuel : (gap ++ remaining isFirst (slots.map Slot.text)).length < fuel) :
    ∃ j, readItems fuel depth isFirst seen
      (gap ++ (remaining isFirst (slots.map Slot.text) ++ ']' :: rest)) = .ok (j, rest) := by
  obtain ⟨fuel, rfl⟩ : ∃ k, fuel = k + 1 := Nat.exists_eq_add_one.mpr (Nat.zero_lt_of_lt hfuel)
  induction slots generalizing isFirst gap fuel seen with
  | nil =>
    have hnext := nextItem_blank_closing hgap .list isFirst rest
    have hclosing := readClosing_blank_closing hgap .list rest
    simp only [Frame.closing] at hnext hclosing
    rw [List.map_nil, remaining_nil, List.nil_append]
    simp [readItems, hnext, hclosing, Except.map]
  | cons s slots ih =>
    obtain ⟨hs, hslots⟩ := List.forall_mem_cons.mp hslots
    obtain ⟨hread, hreads⟩ := List.forall_mem_cons.mp hreads
    rw [List.map_cons, remaining_cons] at hfuel
    simp only [Slot.text, List.length_append] at hfuel
    obtain ⟨v, hv⟩ := hread (by omega : s.value.length ≤ fuel) (ends_behindSlot s slots rest)
    obtain ⟨c, cs, hc, -⟩ := hs.exists_cons
    have hone : 0 < s.value.length := by rw [hc]; exact Nat.succ_pos _
    obtain ⟨more, rfl⟩ : ∃ k, fuel = k + 1 := Nat.exists_eq_add_one.mpr (by omega)
    obtain ⟨j, hj⟩ := ih s.blank_after false hslots hreads (v :: seen) more
      (by rw [List.length_append]; omega)
    refine ⟨j, ?_⟩
    rw [readItems, nextItem_slot hgap isFirst hs]
    simp only [hv]
    exact hj

theorem readName_fromName {m : Member} {name : String} (hname : Spelling name.toList m.marks)
    (members : List Member) (rest : List Char) :
    readName ('"' :: fromName m members rest) =
      .ok (name, m.between ++ ':' :: fromValue m members rest) := readText_spelling hname _

/-- Members of an object are read one after the other. -/
theorem readMembers_members {gap : List Char} (hgap : Blank gap) (isFirst : Bool)
    {members : List Member} {depth fuel : Nat} (hmarks : ∀ m ∈ members, Quoted true m.marks)
    (hreads : ∀ m ∈ members, Readable depth m.slot.value) (seen : List (String × Json))
    (rest : List Char)
    (hfuel : (gap ++ remaining isFirst (members.map Member.text)).length < fuel) :
    ∃ j, readMembers fuel depth isFirst seen
      (gap ++ (remaining isFirst (members.map Member.text) ++ '}' :: rest)) = .ok (j, rest) := by
  obtain ⟨fuel, rfl⟩ : ∃ k, fuel = k + 1 := Nat.exists_eq_add_one.mpr (Nat.zero_lt_of_lt hfuel)
  induction members generalizing isFirst gap fuel seen with
  | nil =>
    have hnext := nextItem_blank_closing hgap .object isFirst rest
    have hclosing := readClosing_blank_closing hgap .object rest
    simp only [Frame.closing] at hnext hclosing
    rw [List.map_nil, remaining_nil, List.nil_append]
    simp [readMembers, hnext, hclosing, Except.map]
  | cons m members ih =>
    obtain ⟨⟨cs, hcs⟩, hmarks⟩ := List.forall_mem_cons.mp hmarks
    obtain ⟨hread, hreads⟩ := List.forall_mem_cons.mp hreads
    rw [List.map_cons, remaining_cons] at hfuel
    simp only [Member.text, Slot.text, List.length_append, List.length_cons] at hfuel
    obtain ⟨more, rfl⟩ : ∃ k, fuel = k + 1 := Nat.exists_eq_add_one.mpr (by omega)
    obtain ⟨v, hv⟩ := hread (by omega : m.slot.value.length ≤ more + 1)
      (ends_behindMember m members rest)
    have hspelled : Spelling (String.ofList cs).toList m.marks := by simpa using hcs
    have hname := readName_fromName hspelled members rest
    have hcolon := readColon_append m.blank_between (fromValue m members rest)
    have hvalue : readOn (more + 1) depth (fromValue m members rest) =
        .ok (v, behindMember m members rest) := (readOn_blank m.slot.blank_before _ _ _).trans hv
    obtain ⟨j, hj⟩ := ih m.slot.blank_after false hmarks hreads ((String.ofList cs, v) :: seen) more
      (by rw [List.length_append]; omega)
    refine ⟨j, ?_⟩
    rw [readMembers, nextItem_fromName hgap isFirst]
    simp only [hname, hcolon, hvalue]
    exact hj

/-- A value that is written strictly is read wherever there are frames left for its levels. -/
theorem Written.readable {levels depth : Nat} {v : List Char} (h : Written true levels v)
    (hdepth : depth + levels ≤ maxDepth) : Readable depth v := by
  induction h generalizing depth with
  | word hw =>
    intro fuel rest hfuel hrest
    simp only [List.mem_cons, List.not_mem_nil, or_false] at hw
    obtain rfl | rfl | rfl := hw <;>
      obtain ⟨fuel, rfl⟩ := Nat.exists_eq_add_one.mpr (Nat.zero_lt_of_lt hfuel) <;> exact ⟨_, rfl⟩
  | @text _ marks hmarks =>
    intro fuel rest hfuel hrest
    obtain ⟨fuel, rfl⟩ := Nat.exists_eq_add_one.mpr (Nat.zero_lt_of_lt hfuel)
    obtain ⟨cs, hcs⟩ := hmarks
    have hspelling : Spelling (String.ofList cs).toList marks := by simpa using hcs
    have hgap : isGap '"' = false := rfl
    have hread := readText_spelling hspelling rest
    exact ⟨.text (String.ofList cs), by
      simp [readOn, skipBlanks_cons hgap, readScalar, hread, Except.map]⟩
  | @number _ n isNegative hn =>
    intro fuel rest hfuel hrest
    have hwritten : Written true 0 (sign isNegative ++ n.text) := .number hn
    obtain ⟨c, cs, hc, -⟩ := hwritten.exists_cons
    rw [hc] at hfuel
    obtain ⟨fuel, rfl⟩ := Nat.exists_eq_add_one.mpr (Nat.zero_lt_of_lt hfuel)
    obtain ⟨a, ha⟩ : ∃ a, n.value? isNegative = some a := Numeral.exists_value_iff.mpr hn
    have hread := readScalar_number ha hrest
    refine ⟨.number a, readOn_scalar ?_ fuel depth⟩
    rwa [hwritten.skipBlanks_eq, List.append_assoc]
  | @list levels gap slots hgap hslots ih =>
    intro fuel rest hfuel hrest
    obtain ⟨fuel, rfl⟩ := Nat.exists_eq_add_one.mpr (Nat.zero_lt_of_lt hfuel)
    have hgap' : isGap '[' = false := rfl
    have hdeep : ¬ maxDepth ≤ depth := by omega
    have hinner : (gap ++ remaining true (slots.map Slot.text)).length < fuel := by
      simp [remaining] at hfuel ⊢
      omega
    have hlevels : depth + 1 + levels ≤ maxDepth := by omega
    obtain ⟨j, hj⟩ := readItems_slots hgap true hslots (fun s hs => ih s hs hlevels) [] rest hinner
    exact ⟨j, by simpa [readOn, skipBlanks_cons hgap', hdeep, remaining] using hj⟩
  | @object levels gap members hgap hmarks hmembers ih =>
    intro fuel rest hfuel hrest
    obtain ⟨fuel, rfl⟩ := Nat.exists_eq_add_one.mpr (Nat.zero_lt_of_lt hfuel)
    have hgap' : isGap '{' = false := rfl
    have hdeep : ¬ maxDepth ≤ depth := by omega
    have hinner : (gap ++ remaining true (members.map Member.text)).length < fuel := by
      simp [remaining] at hfuel ⊢
      omega
    have hlevels : depth + 1 + levels ≤ maxDepth := by omega
    obtain ⟨j, hj⟩ := readMembers_members hgap true hmarks (fun m hm => ih m hm hlevels) [] rest
      hinner
    exact ⟨j, by simpa [readOn, skipBlanks_cons hgap', hdeep, remaining] using hj⟩

end Roster.Json
