import Roster.Proofs.Grammar
/-! # What is read or passed over is written

The other direction: at the front of a text that a reader takes something off stands what the
grammar of the reader allows. -/
namespace Roster.Json

theorem eq_of_readWord {word cs rest : List Char} (h : readWord word cs = .ok rest) :
    cs = word ++ rest := by
  fun_induction readWord word cs with
  | case1 => exact Except.ok.inj h
  | case2 => cases h
  | case3 _ _ _ ih => rw [ih h, List.cons_append]
  | case4 => cases h

theorem written_of_readWord {strict : Bool} {c : Char} {word cs rest : List Char}
    (h : readWord word cs = .ok rest)
    (hw : c :: word ∈ [['n', 'u', 'l', 'l'], ['t', 'r', 'u', 'e'], ['f', 'a', 'l', 's', 'e']]) :
    ∃ v, c :: cs = v ++ rest ∧ Written strict 0 v :=
  ⟨c :: word, by rw [eq_of_readWord h]; rfl, .word hw⟩

theorem written_of_passScalar {cs rest : List Char} (h : passScalar cs = .ok rest) :
    ∃ v, cs = v ++ rest ∧ Written false 0 v := by
  unfold passScalar at h
  split at h
  · exact written_of_readWord h (by decide)
  · exact written_of_readWord h (by decide)
  · exact written_of_readWord h (by decide)
  · obtain ⟨marks, hmarks, rfl⟩ := marks_of_passText h
    have hquoted : Quoted false marks := hmarks
    exact ⟨_, by simp, .text hquoted⟩
  · obtain ⟨n, rfl, -⟩ := numeral_of_passNumber h
    exact ⟨_, by simp [sign], @Written.number false 0 n true trivial⟩
  · split at h
    · obtain ⟨n, hn, -⟩ := numeral_of_passNumber h
      exact ⟨_, hn, @Written.number false 0 n false trivial⟩
    · cases h
  · cases h

theorem written_of_readScalar {cs rest : List Char} {j : Json}
    (h : readScalar cs = .ok (j, rest)) : ∃ v, cs = v ++ rest ∧ Written true 0 v := by
  unfold readScalar at h
  split at h
  · exact written_of_readWord (ok_of_map_word h) (by decide)
  · exact written_of_readWord (ok_of_map_word h) (by decide)
  · exact written_of_readWord (ok_of_map_word h) (by decide)
  · obtain ⟨s, hs⟩ := ok_of_map_lexeme h
    obtain ⟨marks, hmarks, rfl⟩ := spelling_of_readText hs
    have hquoted : Quoted true marks := ⟨_, hmarks⟩
    exact ⟨_, by simp, .text hquoted⟩
  · obtain ⟨a, ha⟩ := ok_of_map_lexeme h
    obtain ⟨n, rfl, hn⟩ := numeral_of_readNumber ha
    exact ⟨_, by simp [sign], @Written.number true 0 n true (Numeral.exists_value_iff.mp ⟨a, hn⟩)⟩
  · split at h
    · obtain ⟨a, ha⟩ := ok_of_map_lexeme h
      obtain ⟨n, heq, hn⟩ := numeral_of_readNumber ha
      exact ⟨_, heq, @Written.number true 0 n false (Numeral.exists_value_iff.mp ⟨a, hn⟩)⟩
    · cases h
  · cases h

/-- The items that are left in a list and its closing bracket stand in front of the rest. -/
def Slots (P : List Char → Prop) (isFirst : Bool) (cs rest : List Char) : Prop :=
  ∃ (gap : List Char) (slots : List Slot), Blank gap ∧ (∀ s ∈ slots, P s.value) ∧
    cs = gap ++ (remaining isFirst (slots.map Slot.text) ++ ']' :: rest)

/-- The members that are left in an object and its closing bracket stand in front of the rest. -/
def Fields (Q P : List Char → Prop) (isFirst : Bool) (cs rest : List Char) : Prop :=
  ∃ (gap : List Char) (members : List Member), Blank gap ∧
    (∀ m ∈ members, Q m.marks ∧ P m.slot.value) ∧
    cs = gap ++ (remaining isFirst (members.map Member.text) ++ '}' :: rest)

section

variable {Q P : List Char → Prop} {isFirst : Bool} {gap before cs more rest : List Char}

theorem slots_cons {v : List Char} (hgap : Blank gap) (hbefore : Blank before) (hv : P v)
    (hmore : Slots P false more rest) :
    Slots P isFirst (gap ++ ((if isFirst then [] else [',']) ++ (before ++ (v ++ more)))) rest := by
  obtain ⟨after, slots, hafter, hslots, rfl⟩ := hmore
  refine ⟨gap, ⟨before, v, after, hbefore, hafter⟩ :: slots, hgap,
    List.forall_mem_cons.mpr ⟨hv, hslots⟩, ?_⟩
  simp [remaining_cons, Slot.text]

theorem fields_cons {marks between start v : List Char} (hgap : Blank gap) (hbefore : Blank before)
    (hmarks : Q marks) (hbetween : Blank between) (hstart : Blank start) (hv : P v)
    (hmore : Fields Q P false more rest) :
    Fields Q P isFirst (gap ++ ((if isFirst then [] else [',']) ++
      (before ++ '"' :: (marks ++ '"' :: (between ++ ':' :: (start ++ (v ++ more))))))) rest := by
  obtain ⟨after, members, hafter, hmembers, rfl⟩ := hmore
  refine ⟨gap, ⟨before, marks, between, ⟨start, v, after, hstart, hafter⟩, hbefore, hbetween⟩ ::
    members, hgap, List.forall_mem_cons.mpr ⟨⟨hmarks, hv⟩, hmembers⟩, ?_⟩
  simp [remaining_cons, Member.text, Slot.text]

theorem gap_of_readClosing {frame : Frame} (h : readClosing frame cs = .ok rest) :
    ∃ gap, Blank gap ∧ cs = gap ++ frame.closing :: rest := by
  obtain ⟨gap, hgap, heq⟩ := exists_blank cs
  rw [readClosing_eq_ok h] at heq
  exact ⟨gap, hgap, heq⟩

theorem slots_closing (h : readClosing .list cs = .ok rest) : Slots P isFirst cs rest := by
  obtain ⟨gap, hgap, rfl⟩ := gap_of_readClosing h
  exact ⟨gap, [], hgap, nofun, by rw [List.map_nil, remaining_nil]; rfl⟩

theorem fields_closing (h : readClosing .object cs = .ok rest) : Fields Q P isFirst cs rest := by
  obtain ⟨gap, hgap, rfl⟩ := gap_of_readClosing h
  exact ⟨gap, [], hgap, nofun, by rw [List.map_nil, remaining_nil]; rfl⟩

theorem written_of_slots {strict : Bool} {levels : Nat}
    (h : Slots (Written strict levels) true cs rest) :
    ∃ body, cs = body ++ rest ∧ Written strict (levels + 1) ('[' :: body) := by
  obtain ⟨gap, slots, hgap, hslots, rfl⟩ := h
  exact ⟨_, by simp [remaining], .list hgap hslots⟩

theorem written_of_fields {strict : Bool} {levels : Nat}
    (h : Fields (Quoted strict) (Written strict levels) true cs rest) :
    ∃ body, cs = body ++ rest ∧ Written strict (levels + 1) ('{' :: body) := by
  obtain ⟨gap, members, hgap, hmembers, rfl⟩ := h
  exact ⟨_, by simp [remaining],
    .object hgap (fun m hm => (hmembers m hm).1) fun m hm => (hmembers m hm).2⟩

theorem gap_of_readColon (h : readColon cs = .ok rest) :
    ∃ gap, Blank gap ∧ cs = gap ++ ':' :: rest := by
  obtain ⟨gap, hgap, heq⟩ := exists_blank cs
  unfold readColon at h
  split at h
  · cases h
  · rename_i hcolon
    rw [hcolon, Except.ok.inj h] at heq
    exact ⟨gap, hgap, heq⟩
  · cases h

theorem parts_of_nextItem {frame : Frame} {item : List Char}
    (h : nextItem frame isFirst cs = .ok (some item)) : ∃ gap before, Blank gap ∧ Blank before ∧
      cs = gap ++ ((if isFirst then [] else [',']) ++ (before ++ item)) := by
  obtain ⟨c, more, hblanks, -, hitem⟩ := nextItem_eq_some h
  obtain ⟨gap, hgap, heq⟩ := exists_blank cs
  cases isFirst with
  | true =>
    obtain rfl : item = c :: more := hitem
    exact ⟨gap, [], hgap, blank_nil, heq.trans (by rw [hblanks]; rfl)⟩
  | false =>
    obtain ⟨rfl, rfl⟩ : c = ',' ∧ item = skipBlanks more := hitem
    obtain ⟨before, hbefore, hmore⟩ := exists_blank more
    refine ⟨gap, before, hgap, hbefore, heq.trans ?_⟩
    rw [hblanks, ← hmore]
    rfl

end

theorem spelling_of_readName {cs rest : List Char} {name : String}
    (h : readName cs = .ok (name, rest)) :
    ∃ marks, Spelling name.toList marks ∧ cs = '"' :: (marks ++ '"' :: rest) := by
  unfold readName at h
  split at h
  · obtain ⟨marks, hmarks, rfl⟩ := spelling_of_readText h
    exact ⟨marks, hmarks, rfl⟩
  · cases h

/-- With so many steps the readers take strictly written values alone, with as many levels as there
are frames left. -/
structure ReadsWritten (fuel : Nat) : Prop where
  value {depth : Nat} {cs rest : List Char} {j : Json} (h : readOn fuel depth cs = .ok (j, rest)) :
    ∃ before v, Blank before ∧ cs = before ++ (v ++ rest) ∧ Written true (maxDepth - depth) v
  items {depth : Nat} {isFirst : Bool} {seen : List Json} {cs rest : List Char} {j : Json}
    (h : readItems fuel depth isFirst seen cs = .ok (j, rest)) :
    Slots (Written true (maxDepth - depth)) isFirst cs rest
  members {depth : Nat} {isFirst : Bool} {seen : List (String × Json)} {cs rest : List Char}
    {j : Json} (h : readMembers fuel depth isFirst seen cs = .ok (j, rest)) :
    Fields (Quoted true) (Written true (maxDepth - depth)) isFirst cs rest

namespace ReadsWritten

variable {fuel depth : Nat} {isFirst : Bool} {cs rest : List Char} {j : Json}
  (ih : ReadsWritten fuel)
include ih

theorem value_succ (h : readOn (fuel + 1) depth cs = .ok (j, rest)) : ∃ before v, Blank before ∧
    cs = before ++ (v ++ rest) ∧ Written true (maxDepth - depth) v := by
  obtain ⟨before, hbefore, heq⟩ := exists_blank cs
  rw [readOn] at h
  -- There is a frame left for a list or an object.
  have hframe (hdepth : ¬ maxDepth ≤ depth) : maxDepth - (depth + 1) + 1 = maxDepth - depth := by
    omega
  split at h
  · rename_i hopen
    split at h
    · cases h
    · rename_i hdepth
      obtain ⟨body, rfl, hwritten⟩ := written_of_slots (ih.items h)
      rw [hframe hdepth] at hwritten
      exact ⟨before, _, hbefore, heq.trans (by rw [hopen]; rfl), hwritten⟩
  · rename_i hopen
    split at h
    · cases h
    · rename_i hdepth
      obtain ⟨body, rfl, hwritten⟩ := written_of_fields (ih.members h)
      rw [hframe hdepth] at hwritten
      exact ⟨before, _, hbefore, heq.trans (by rw [hopen]; rfl), hwritten⟩
  · obtain ⟨v, hv, hwritten⟩ := written_of_readScalar h
    exact ⟨before, v, hbefore, by rw [← hv, ← heq], hwritten.mono (Nat.zero_le _)⟩

theorem items_succ {seen : List Json}
    (h : readItems (fuel + 1) depth isFirst seen cs = .ok (j, rest)) :
    Slots (Written true (maxDepth - depth)) isFirst cs rest := by
  rw [readItems] at h
  split at h
  · cases h
  · obtain ⟨_, hclosing, heq⟩ := ok_of_map h
    obtain ⟨-, rfl⟩ := Prod.mk.inj heq
    exact slots_closing hclosing
  · rename_i hnext
    split at h
    · cases h
    · rename_i hitem
      obtain ⟨gap, before, hgap, hbefore, rfl⟩ := parts_of_nextItem hnext
      obtain ⟨start, v, hstart, rfl, hv⟩ := ih.value hitem
      rw [← List.append_assoc before]
      exact slots_cons hgap (hbefore.append hstart) hv (ih.items h)

theorem members_succ {seen : List (String × Json)}
    (h : readMembers (fuel + 1) depth isFirst seen cs = .ok (j, rest)) :
    Fields (Quoted true) (Written true (maxDepth - depth)) isFirst cs rest := by
  rw [readMembers] at h
  split at h
  · cases h
  · obtain ⟨_, hclosing, heq⟩ := ok_of_map h
    obtain ⟨-, rfl⟩ := Prod.mk.inj heq
    exact fields_closing hclosing
  · rename_i hnext
    split at h
    · cases h
    · rename_i hname
      split at h
      · cases h
      · rename_i hcolon
        split at h
        · cases h
        · rename_i hmember
          obtain ⟨gap, before, hgap, hbefore, rfl⟩ := parts_of_nextItem hnext
          obtain ⟨marks, hmarks, rfl⟩ := spelling_of_readName hname
          obtain ⟨between, hbetween, rfl⟩ := gap_of_readColon hcolon
          obtain ⟨start, v, hstart, rfl, hv⟩ := ih.value hmember
          exact fields_cons hgap hbefore ⟨_, hmarks⟩ hbetween hstart hv (ih.members h)

end ReadsWritten

theorem reads_written (fuel : Nat) : ReadsWritten fuel := by
  induction fuel with
  | zero => exact ⟨nofun, nofun, nofun⟩
  | succ fuel ih => exact ⟨ih.value_succ, ih.items_succ, ih.members_succ⟩

/-- A value that may be passed over. -/
def Loose (v : List Char) : Prop := ∃ levels, Written false levels v

/-- Several values have no more levels than one of them. -/
theorem exists_levels {α : Type} {strict : Bool} {l : List α} {f : α → List Char}
    (h : ∀ a ∈ l, ∃ levels, Written strict levels (f a)) :
    ∃ levels, ∀ a ∈ l, Written strict levels (f a) := by
  induction l with
  | nil => exact ⟨0, nofun⟩
  | cons a l ih =>
    obtain ⟨⟨n, hn⟩, hl⟩ := List.forall_mem_cons.mp h
    obtain ⟨m, hm⟩ := ih hl
    exact ⟨max n m, List.forall_mem_cons.mpr
      ⟨hn.mono (Nat.le_max_left n m), fun b hb => (hm b hb).mono (Nat.le_max_right n m)⟩⟩

theorem loose_of_slots {cs rest : List Char} (h : Slots Loose true cs rest) :
    ∃ body, cs = body ++ rest ∧ Loose ('[' :: body) := by
  obtain ⟨gap, slots, hgap, hslots, hcs⟩ := h
  obtain ⟨levels, hlevels⟩ := exists_levels hslots
  obtain ⟨body, hbody, hwritten⟩ := written_of_slots ⟨gap, slots, hgap, hlevels, hcs⟩
  exact ⟨body, hbody, _, hwritten⟩

theorem loose_of_fields {cs rest : List Char} (h : Fields Marks Loose true cs rest) :
    ∃ body, cs = body ++ rest ∧ Loose ('{' :: body) := by
  obtain ⟨gap, members, hgap, hmembers, hcs⟩ := h
  obtain ⟨levels, hlevels⟩ := exists_levels (f := fun m : Member => m.slot.value)
    fun m hm => (hmembers m hm).2
  have hfields : Fields (Quoted false) (Written false levels) true cs rest :=
    ⟨gap, members, hgap, fun m hm => ⟨(hmembers m hm).1, hlevels m hm⟩, hcs⟩
  obtain ⟨body, hbody, hwritten⟩ := written_of_fields hfields
  exact ⟨body, hbody, _, hwritten⟩

/-- What a stack of frames still demands of the text. -/
inductive Closes : Bool → List Frame → List Char → List Char → Prop
  | done {isFirst : Bool} {rest : List Char} : Closes isFirst [] rest rest
  | list {isFirst : Bool} {frames : List Frame} {cs more rest : List Char}
      (hslots : Slots Loose isFirst cs more) (hmore : Closes false frames more rest) :
      Closes isFirst (.list :: frames) cs rest
  | object {isFirst : Bool} {frames : List Frame} {cs more rest : List Char}
      (hfields : Fields Marks Loose isFirst cs more) (hmore : Closes false frames more rest) :
      Closes isFirst (.object :: frames) cs rest

theorem marks_of_passName {cs rest : List Char} (h : passName cs = .ok rest) :
    ∃ before marks between, Blank before ∧ Marks marks ∧ Blank between ∧
      cs = before ++ '"' :: (marks ++ '"' :: (between ++ ':' :: rest)) := by
  obtain ⟨before, hbefore, heq⟩ := exists_blank cs
  unfold passName at h
  split at h
  · cases h
  · rename_i text hquote
    obtain ⟨behind, htext, hcolon⟩ := ok_of_bind h
    obtain ⟨marks, hmarks, rfl⟩ := marks_of_passText htext
    obtain ⟨between, hbetween, rfl⟩ := gap_of_readColon hcolon
    exact ⟨before, marks, between, hbefore, hmarks, hbetween, heq.trans (by rw [hquote])⟩
  · cases h

theorem closes_closing {frame : Frame} {frames : List Frame} {isFirst : Bool}
    {gap cs rest : List Char} (hgap : Blank gap) (h : Closes false frames cs rest) :
    Closes isFirst (frame :: frames) (gap ++ frame.closing :: cs) rest := by
  have hclosing := readClosing_blank_closing hgap frame cs
  cases frame with
  | list => exact .list (slots_closing hclosing) h
  | object => exact .object (fields_closing hclosing) h

/-- With so many steps written values alone are passed over, and what closes the frames around
them. -/
structure PassesWritten (fuel : Nat) : Prop where
  value {frames : List Frame} {cs rest : List Char} (h : passOn fuel .value frames cs = .ok rest) :
    ∃ before v more, Blank before ∧ cs = before ++ (v ++ more) ∧ Loose v ∧
      Closes false frames more rest
  frame {afterItem : Bool} {frames : List Frame} {cs rest : List Char}
    (h : passOn fuel (.frame afterItem) frames cs = .ok rest) : Closes (!afterItem) frames cs rest

namespace PassesWritten

variable {fuel : Nat} {isFirst : Bool} {frames : List Frame} {gap cs rest : List Char}
  (ih : PassesWritten fuel)
include ih

theorem value_succ (h : passOn (fuel + 1) .value frames cs = .ok rest) :
    ∃ before v more, Blank before ∧ cs = before ++ (v ++ more) ∧ Loose v ∧
      Closes false frames more rest := by
  obtain ⟨before, hbefore, heq⟩ := exists_blank cs
  rw [passOn] at h
  split at h
  · rename_i hopen
    cases ih.frame h with
    | list hslots hmore =>
      obtain ⟨body, rfl, hloose⟩ := loose_of_slots hslots
      exact ⟨before, _, _, hbefore, heq.trans (by rw [hopen]; rfl), hloose, hmore⟩
  · rename_i hopen
    cases ih.frame h with
    | object hfields hmore =>
      obtain ⟨body, rfl, hloose⟩ := loose_of_fields hfields
      exact ⟨before, _, _, hbefore, heq.trans (by rw [hopen]; rfl), hloose, hmore⟩
  · split at h
    · cases h
    · rename_i hscalar
      obtain ⟨v, hv, hwritten⟩ := written_of_passScalar hscalar
      exact ⟨before, v, _, hbefore, by rw [← hv, ← heq], ⟨0, hwritten⟩, ih.frame h⟩

/-- An item of a list and what follows it. -/
theorem slot (hgap : Blank gap) {item : List Char}
    (h : passOn fuel .value (.list :: frames) item = .ok rest) :
    Closes isFirst (.list :: frames) (gap ++ ((if isFirst then [] else [',']) ++ item)) rest := by
  obtain ⟨before, v, behind, hbefore, rfl, hv, hcloses⟩ := ih.value h
  cases hcloses with
  | list hslots hmore => exact .list (slots_cons hgap hbefore hv hslots) hmore

/-- A member of an object and what follows it. -/
theorem field (hgap : Blank gap) {item start : List Char} (hname : passName item = .ok start)
    (h : passOn fuel .value (.object :: frames) start = .ok rest) :
    Closes isFirst (.object :: frames) (gap ++ ((if isFirst then [] else [',']) ++ item)) rest := by
  obtain ⟨before, marks, between, hbefore, hmarks, hbetween, rfl⟩ := marks_of_passName hname
  obtain ⟨start, v, behind, hstart, rfl, hv, hcloses⟩ := ih.value h
  cases hcloses with
  | object hfields hmore =>
    exact .object (fields_cons hgap hbefore hmarks hbetween hstart hv hfields) hmore

theorem frame_succ {afterItem : Bool}
    (h : passOn (fuel + 1) (.frame afterItem) frames cs = .ok rest) :
    Closes (!afterItem) frames cs rest := by
  cases frames with
  | nil =>
    obtain rfl := Except.ok.inj h
    exact .done
  | cons frame frames =>
    obtain ⟨gap, hgap, heq⟩ := exists_blank cs
    rw [passOn] at h
    split at h
    · cases h
    · rename_i c more hc
      rw [heq, hc]
      split at h
      · rename_i hclose
        rw [hclose]
        exact closes_closing hgap (ih.frame h)
      · split at h
        · cases h
        · rename_i hcomma
          have hitem : c :: more = (if !afterItem then [] else [',']) ++
              (if afterItem then more else c :: more) := by
            cases afterItem with
            | true => simpa using hcomma
            | false => rfl
          rw [hitem]
          generalize (if afterItem then more else c :: more) = item at h
          cases frame with
          | list => exact ih.slot hgap h
          | object =>
            simp only at h
            split at h
            · cases h
            · rename_i hname
              exact ih.field hgap hname h

end PassesWritten

theorem passes_written (fuel : Nat) : PassesWritten fuel := by
  induction fuel with
  | zero => exact ⟨nofun, nofun⟩
  | succ fuel ih => exact ⟨ih.value_succ, ih.frame_succ⟩

section

variable {before v rest : List Char} (hbefore : Blank before)
include hbefore

theorem Written.passValue_eq {strict : Bool} {levels : Nat} (h : Written strict levels v)
    (hrest : Ends rest) : passValue (before ++ (v ++ rest)) = .ok rest :=
  ((h.passed rest hrest).blank hbefore).passValue

theorem Written.exists_readValue {levels depth : Nat} (h : Written true levels v)
    (hdepth : depth + levels ≤ maxDepth) (hrest : Ends rest) :
    ∃ j, readValue depth (before ++ (v ++ rest)) = .ok (j, rest) := by
  have hfuel : v.length ≤ 2 * (before ++ (v ++ rest)).length + 1 + 1 := by
    simp only [List.length_append]
    omega
  obtain ⟨j, hj⟩ := h.readable hdepth hfuel hrest
  exact ⟨j, (readOn_blank hbefore _ _ _).trans hj⟩

/-- A text has one value at its front. -/
theorem eq_of_front {before' v' : List Char} {strict strict' : Bool} {levels levels' : Nat}
    (hv : Written strict levels v) (hbefore' : Blank before') (hv' : Written strict' levels' v')
    (h : before ++ (v ++ rest) = before' ++ (v' ++ rest)) : v = v' := by
  have hskip := congrArg skipBlanks h
  rw [skipBlanks_append hbefore, skipBlanks_append hbefore', hv.skipBlanks_eq,
    hv'.skipBlanks_eq] at hskip
  exact List.append_cancel_right hskip

end

theorem loose_of_passValue {cs rest : List Char} (h : passValue cs = .ok rest) :
    ∃ before v, Blank before ∧ cs = before ++ (v ++ rest) ∧ Loose v := by
  obtain ⟨before, v, more, hbefore, rfl, hv, hcloses⟩ := (passes_written _).value h
  cases hcloses
  exact ⟨before, v, hbefore, rfl, hv⟩

/-- What is read at the place of a value is that value, which is written strictly. -/
theorem written_of_readValue {before v rest rest' : List Char} (hbefore : Blank before)
    (hv : Loose v) (hrest : Ends rest) {depth : Nat} {j : Json}
    (h : readValue depth (before ++ (v ++ rest)) = .ok (j, rest')) :
    rest' = rest ∧ Written true (maxDepth - depth) v := by
  obtain ⟨levels, hv⟩ := hv
  obtain rfl : rest' = rest :=
    Except.ok.inj ((passValue_of_readValue h).symm.trans (hv.passValue_eq hbefore hrest))
  obtain ⟨before', v', hbefore', heq, hv'⟩ := (reads_written _).value h
  rw [eq_of_front hbefore hv hbefore' hv' heq]
  exact ⟨rfl, hv'⟩

end Roster.Json
