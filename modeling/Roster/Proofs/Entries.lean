import Roster.Proofs.Fronts
import Roster.Proofs.Members
/-! # What a record takes from the members of an object

A record is read from an object if each member that it knows has a value of its type, none of them
stands twice, and none is missing if all are required. What it then has are the values of these
members. -/
namespace Roster.Json

/-- A value is a datum. -/
inductive Says : List Char → Datum → Prop
  | text {s : String} {marks : List Char} (hmarks : Spelling s.toList marks) :
      Says ('"' :: (marks ++ ['"'])) (.text s)
  | yes : Says ['t', 'r', 'u', 'e'] (.flag true)
  | no : Says ['f', 'a', 'l', 's', 'e'] (.flag false)
  | count {n : Numeral} {k : UInt32} (hk : n.value? false = some (.natural k.toNat)) :
      Says n.text (.count k)

theorem Says.written {v : List Char} {d : Datum} (h : Says v d) : Written true 0 v := by
  cases h with
  | @text s marks hmarks =>
    have hquoted : Quoted true marks := ⟨s.toList, hmarks⟩
    exact .text hquoted
  | yes => exact .word (by decide)
  | no => exact .word (by decide)
  | @count n k hk =>
    exact @Written.number true 0 n false (Numeral.exists_value_iff.mp ⟨_, hk⟩)

/-- A datum is read where it stands. -/
theorem Says.readDatum_eq {v : List Char} {d : Datum} (h : Says v d) {before rest : List Char}
    (hbefore : Blank before) (hrest : Ends rest) :
    readDatum d.kind (before ++ (v ++ rest)) = .ok (d, rest) := by
  have hskip : skipBlanks (before ++ (v ++ rest)) = v ++ rest := by
    rw [skipBlanks_append hbefore, h.written.skipBlanks_eq]
  generalize before ++ (v ++ rest) = cs at hskip
  cases h with
  | @text s marks hmarks =>
    have hread := readText_spelling hmarks rest
    simp [readDatum, Datum.kind, hskip, hread, Except.map]
  | yes =>
    simp only [readDatum, Datum.kind, hskip]
    rfl
  | no =>
    simp only [readDatum, Datum.kind, hskip]
    rfl
  | @count n k hk =>
    have hread := readNumber_value hk hrest
    obtain ⟨c, cs', htext, hc⟩ := n.exists_text
    rw [htext, List.cons_append] at hread hskip
    simp [readDatum, Datum.kind, hskip, hc, hread, k.toNat_lt_size]

/-- What is read as a datum is one, and a scalar. -/
theorem says_of_readDatum {kind : Kind} {cs rest : List Char} {d : Datum}
    (h : readDatum kind cs = .ok (d, rest)) : d.kind = kind ∧
      (∃ j, readScalar (skipBlanks cs) = .ok (j, rest)) ∧
        ∃ v, skipBlanks cs = v ++ rest ∧ Says v d := by
  unfold readDatum at h
  split at h
  · cases h
  · rename_i more _ heq
    obtain ⟨⟨s, _⟩, hread, hd⟩ := ok_of_map h
    obtain ⟨rfl, rfl⟩ := Prod.mk.inj hd
    obtain ⟨marks, hmarks, rfl⟩ := spelling_of_readText hread
    refine ⟨rfl, ⟨.text s, ?_⟩, _, ?_, .text hmarks⟩
    · simp [heq, readScalar, hread, Except.map]
    · simp [heq]
  · exact absurd h (refuse_ne_ok _ _ _)
  · rename_i more _ heq
    obtain ⟨_, hread, hd⟩ := ok_of_map h
    obtain ⟨rfl, rfl⟩ := Prod.mk.inj hd
    refine ⟨rfl, ⟨.bool true, ?_⟩, _, ?_, .yes⟩
    · simp [heq, readScalar, hread, Except.map]
    · simp [heq, eq_of_readWord hread]
  · rename_i more _ heq
    obtain ⟨_, hread, hd⟩ := ok_of_map h
    obtain ⟨rfl, rfl⟩ := Prod.mk.inj hd
    refine ⟨rfl, ⟨.bool false, ?_⟩, _, ?_, .no⟩
    · simp [heq, readScalar, hread, Except.map]
    · simp [heq, eq_of_readWord hread]
  · exact absurd h (refuse_ne_ok _ _ _)
  · rename_i c more heq
    split at h
    · rename_i hc
      split at h
      · cases h
      · rename_i n _ hread
        split at h
        · rename_i hn
          obtain ⟨rfl, rfl⟩ := Prod.mk.inj (Except.ok.inj h)
          obtain ⟨a, htext, hvalue⟩ := numeral_of_readNumber hread
          refine ⟨rfl, ⟨.number (.natural n), ?_⟩, a.text, heq.trans htext, .count ?_⟩
          · rw [heq, readScalar_digit hc, hread]
            rfl
          · rwa [UInt32.toNat_ofNat_of_lt' hn]
        · cases h
      · cases h
    · split at h
      · split at h <;> cases h
      · exact absurd h (refuse_ne_ok _ _ _)

/-- What is read at the place of a value is that value. -/
theorem readDatum_iff {before v rest rest' : List Char} (hbefore : Blank before) (hv : Loose v)
    (hrest : Ends rest) {kind : Kind} {d : Datum} :
    readDatum kind (before ++ (v ++ rest)) = .ok (d, rest') ↔
      d.kind = kind ∧ Says v d ∧ rest' = rest := by
  constructor
  · intro h
    obtain ⟨hkind, ⟨j, hscalar⟩, w, hfront, hw⟩ := says_of_readDatum h
    obtain ⟨levels, hv⟩ := hv
    obtain rfl : rest' = rest := Except.ok.inj
      ((passable_scalar hscalar).passValue.symm.trans (hv.passValue_eq hbefore hrest))
    rw [skipBlanks_append hbefore, hv.skipBlanks_eq] at hfront
    rw [List.append_cancel_right hfront]
    exact ⟨hkind, hw, rfl⟩
  · rintro ⟨rfl, hd, rfl⟩
    exact hd.readDatum_eq hbefore hrest

theorem Says.unique {v : List Char} {d d' : Datum} (h : Says v d) (h' : Says v d')
    (hkind : d.kind = d'.kind) : d = d' := by
  have hends : Ends [] := by simp [Ends]
  have hread := h.readDatum_eq blank_nil hends
  have hread' := h'.readDatum_eq blank_nil hends
  rw [hkind, hread'] at hread
  exact (Prod.mk.inj (Except.ok.inj hread)).1.symm

/-- A member of an object as records take it: its name is a text. -/
structure Entry extends Member where
  name : String
  spelled : Spelling name.toList marks
  loose : Loose slot.value

def Entry.text (e : Entry) : List Char := e.toMember.text

/-- A member whose name stands as it is. -/
def Entry.plain (name : String) (value : List Char)
    (hname : name.toList.all isPlain = true) (hvalue : Loose value) : Entry where
  marks := name.toList
  slot := { value }
  name
  spelled := spelling_plain hname
  loose := hvalue

/-- Some entries are taken into a record, those of the names that have a type. -/
inductive Gathers (kind? : String → Option Kind) : List Entry → Record → Prop
  | nil : Gathers kind? [] []
  | skip {e : Entry} {es : List Entry} {r : Record} (he : kind? e.name = none)
      (hes : Gathers kind? es r) : Gathers kind? (e :: es) r
  | take {e : Entry} {es : List Entry} {r : Record} {d : Datum} (he : kind? e.name = some d.kind)
      (hd : Says e.slot.value d) (hes : Gathers kind? es r) :
      Gathers kind? (e :: es) ((e.name, d) :: r)

section

variable {kind? : String → Option Kind} {e : Entry} {es : List Entry} {r : Record}

theorem gathers_cons_of_none (h : kind? e.name = none) :
    Gathers kind? (e :: es) r ↔ Gathers kind? es r := by
  refine ⟨fun hr => ?_, .skip h⟩
  cases hr with
  | skip _ hr => exact hr
  | take he =>
    rw [h] at he
    cases he

theorem gathers_cons_of_some {kind : Kind} (h : kind? e.name = some kind) :
    Gathers kind? (e :: es) r ↔ ∃ d r', d.kind = kind ∧ Says e.slot.value d ∧
      Gathers kind? es r' ∧ r = (e.name, d) :: r' := by
  constructor
  · intro hr
    cases hr with
    | skip he =>
      rw [h] at he
      cases he
    | take he hd hr =>
      rw [h] at he
      exact ⟨_, _, (Option.some.inj he).symm, hd, hr, rfl⟩
  · rintro ⟨d, r', rfl, hd, hr, rfl⟩
    exact .take h hd hr

end

/-- The names of a record are those of its entries that have a type. -/
theorem names_of_gathers {kind? : String → Option Kind} {es : List Entry} {r : Record}
    (h : Gathers kind? es r) :
    r.map (·.1) = (es.map (·.name)).filter fun name => (kind? name).isSome := by
  induction h with
  | nil => rfl
  | skip he _ ih => simp [he, ih]
  | take he _ _ ih => simp [he, ih]

/-- Entries in another order give the same data in another order. -/
theorem gathers_perm {kind? : String → Option Kind} {es es' : List Entry} {r : Record}
    (hes : es.Perm es') (h : Gathers kind? es r) : ∃ r', Gathers kind? es' r' ∧ r.Perm r' := by
  induction hes generalizing r with
  | nil => exact ⟨r, h, .refl r⟩
  | cons e _ ih =>
    cases h with
    | skip he h =>
      obtain ⟨r', hr', hperm⟩ := ih h
      exact ⟨r', .skip he hr', hperm⟩
    | take he hd h =>
      obtain ⟨r', hr', hperm⟩ := ih h
      exact ⟨_, .take he hd hr', hperm.cons _⟩
  | swap e e' es =>
    cases h with
    | skip he' h =>
      cases h with
      | skip he h => exact ⟨_, .skip he (.skip he' h), .refl _⟩
      | take he hd h => exact ⟨_, .take he hd (.skip he' h), .refl _⟩
    | take he' hd' h =>
      cases h with
      | skip he h => exact ⟨_, .skip he (.take he' hd' h), .refl _⟩
      | take he hd h => exact ⟨_, .take he hd (.take he' hd' h), .swap _ _ _⟩
  | trans _ _ ih ih' =>
    obtain ⟨r', hr', hperm⟩ := ih h
    obtain ⟨r'', hr'', hperm'⟩ := ih' hr'
    exact ⟨r'', hr'', hperm.trans hperm'⟩

theorem gathers_append_unknown {kind? : String → Option Kind} {es extra : List Entry} {r : Record}
    (hextra : ∀ e ∈ extra, kind? e.name = none) (h : Gathers kind? es r) :
    Gathers kind? (extra ++ es) r := by
  induction extra with
  | nil => exact h
  | cons e extra ih =>
    obtain ⟨he, hextra⟩ := List.forall_mem_cons.mp hextra
    exact .skip he (ih hextra)

/-- Nothing that is required is missing. -/
def Complete (shape : Shape) (r : Record) : Prop :=
  shape.required = true → ∀ m ∈ shape.members, ∃ e ∈ r, e.1 = m.1

section

variable (e : Entry) (es : List Entry) (rest : List Char)

theorem map_text : es.map Entry.text = (es.map Entry.toMember).map Member.text := by
  rw [List.map_map]
  rfl

/-- What stands behind the value of an entry. -/
def behindEntry : List Char := behindMember e.toMember (es.map Entry.toMember) rest

/-- What stands from the value of an entry on. -/
def entryValue : List Char := fromValue e.toMember (es.map Entry.toMember) rest

theorem behindEntry_eq : behindEntry e es rest =
    e.slot.after ++ (remaining false (es.map Entry.text) ++ '}' :: rest) := by
  rw [behindEntry, behindMember, map_text]

theorem ends_behindEntry : Ends (behindEntry e es rest) := ends_behindMember _ _ rest

theorem nextItem_entry {gap : List Char} (hgap : Blank gap) (isFirst : Bool) :
    nextItem .object isFirst (gap ++ (remaining isFirst ((e :: es).map Entry.text) ++ '}' :: rest)) =
      .ok (some ('"' :: fromName e.toMember (es.map Entry.toMember) rest)) := by
  rw [map_text]
  exact nextItem_fromName hgap isFirst e.toMember _ rest

theorem readName_entry : readName ('"' :: fromName e.toMember (es.map Entry.toMember) rest) =
    .ok (e.name, e.between ++ ':' :: entryValue e es rest) := readName_fromName e.spelled _ rest

theorem readColon_entry :
    readColon (e.between ++ ':' :: entryValue e es rest) = .ok (entryValue e es rest) :=
  readColon_append e.blank_between _

theorem passValue_entry : passValue (entryValue e es rest) = .ok (behindEntry e es rest) :=
  e.loose.choose_spec.passValue_eq e.slot.blank_before (ends_behindEntry e es rest)

theorem readDatum_entry {kind : Kind} {d : Datum} {rest' : List Char} :
    readDatum kind (entryValue e es rest) = .ok (d, rest') ↔
      d.kind = kind ∧ Says e.slot.value d ∧ rest' = behindEntry e es rest :=
  readDatum_iff e.slot.blank_before e.loose (ends_behindEntry e es rest)

end

section

variable {shape : Shape} {seen r r' : Record} {gap rest rest' : List Char} {isFirst : Bool}
  {fuel : Nat} {e : Entry} {es : List Entry}

/-- At the end of an object the record is complete, or a member is found to be missing. -/
theorem readShapeMembers_closing (hgap : Blank gap) :
    readShapeMembers shape (fuel + 1) isFirst seen (gap ++ '}' :: rest) = .ok (r', rest') ↔
      Complete shape seen ∧ r' = seen ∧ rest' = rest := by
  have hnext : nextItem .object isFirst (gap ++ '}' :: rest) = .ok none :=
    nextItem_blank_closing hgap .object isFirst rest
  have hclosing : readClosing .object (gap ++ '}' :: rest) = .ok rest :=
    readClosing_blank_closing hgap .object rest
  have hmissing : (if shape.required then
      shape.members.find? fun m => !(seen.any fun e => e.1 == m.1) else none) = none ↔
      Complete shape seen := by
    unfold Complete
    cases shape.required <;> simp [List.find?_eq_none]
  rw [readShapeMembers, hnext]
  simp only [hclosing]
  split
  · rename_i m hm
    refine iff_of_false (by simp) fun h => ?_
    rw [hmissing.mpr h.1] at hm
    cases hm
  · rename_i hnone
    simp only [Except.map, Except.ok.injEq, Prod.mk.injEq, hmissing.mp hnone, true_and, eq_comm]

/-- An entry of another name is passed over. -/
theorem readShapeMembers_skip (hgap : Blank gap) (he : shape.kind? e.name = none) :
    readShapeMembers shape (fuel + 1) isFirst seen
        (gap ++ (remaining isFirst ((e :: es).map Entry.text) ++ '}' :: rest)) =
      readShapeMembers shape fuel false seen (behindEntry e es rest) := by
  rw [readShapeMembers, nextItem_entry e es rest hgap]
  simp only [readName_entry, readColon_entry, Except.bind, he, passValue_entry]

/-- An entry of a known name is taken if it is new and has a value of its type. -/
theorem readShapeMembers_take (hgap : Blank gap) {kind : Kind}
    (he : shape.kind? e.name = some kind) :
    readShapeMembers shape (fuel + 1) isFirst seen
        (gap ++ (remaining isFirst ((e :: es).map Entry.text) ++ '}' :: rest)) = .ok (r', rest') ↔
      e.name ∉ seen.map (·.1) ∧ ∃ d, d.kind = kind ∧ Says e.slot.value d ∧
        readShapeMembers shape fuel false (seen ++ [(e.name, d)]) (behindEntry e es rest) =
          .ok (r', rest') := by
  rw [readShapeMembers, nextItem_entry e es rest hgap]
  simp only [readName_entry, readColon_entry, Except.bind, he]
  have hseen : (seen.any fun d => d.1 == e.name) = true ↔ e.name ∈ seen.map (·.1) := by
    simp
  split
  · rename_i hold
    exact iff_of_false (by simp) fun h => h.1 (hseen.mp hold)
  · rename_i hnew
    rw [and_iff_right (hseen.not.mp hnew)]
    split
    · rename_i hrefused
      refine iff_of_false (by simp) ?_
      rintro ⟨d, hkind, hd, -⟩
      rw [(readDatum_entry e es rest).mpr ⟨hkind, hd, rfl⟩] at hrefused
      cases hrefused
    · rename_i d behind hread
      obtain ⟨hkind, hd, rfl⟩ := (readDatum_entry e es rest).mp hread
      refine ⟨fun h => ⟨d, hkind, hd, h⟩, ?_⟩
      rintro ⟨d', hkind', hd', h⟩
      rwa [hd.unique hd' (hkind.trans hkind'.symm)]

theorem nodup_concat {name : String} (hseen : (seen.map (·.1)).Nodup) (hnew : name ∉ seen.map (·.1))
    (d : Datum) : ((seen ++ [(name, d)]).map (·.1)).Nodup := by
  rw [List.map_append, List.map_singleton, ← List.concat_eq_append]
  exact hseen.concat hnew

/-- A record is read from entries that it can gather. -/
theorem readShapeMembers_iff (hgap : Blank gap) (hfuel : es.length < fuel)
    (hseen : (seen.map (·.1)).Nodup) :
    readShapeMembers shape fuel isFirst seen
        (gap ++ (remaining isFirst (es.map Entry.text) ++ '}' :: rest)) = .ok (r', rest') ↔
      ∃ r, Gathers shape.kind? es r ∧ ((seen ++ r).map (·.1)).Nodup ∧ Complete shape (seen ++ r) ∧
        r' = seen ++ r ∧ rest' = rest := by
  -- The induction is on the entries that are left. What has been read, with no name twice, is on
  -- both sides, since a repeated name is noticed at its second entry.
  induction es generalizing isFirst gap fuel seen with
  | nil =>
    obtain ⟨fuel, rfl⟩ := Nat.exists_eq_add_one.mpr hfuel
    rw [List.map_nil, remaining_nil, List.nil_append, readShapeMembers_closing hgap]
    constructor
    · rintro ⟨hcomplete, rfl, rfl⟩
      exact ⟨[], .nil, by simpa using hseen, by simpa using hcomplete, by simp, rfl⟩
    · rintro ⟨r, hr, -, hcomplete, rfl, rfl⟩
      cases hr
      exact ⟨by simpa using hcomplete, by simp, rfl⟩
  | cons e es ih =>
    obtain ⟨fuel, rfl⟩ := Nat.exists_eq_add_one.mpr (Nat.zero_lt_of_lt hfuel)
    have hfuel : es.length < fuel := Nat.lt_of_succ_lt_succ hfuel
    cases hkind : shape.kind? e.name with
    | none =>
      rw [readShapeMembers_skip hgap hkind, behindEntry_eq, ih e.slot.blank_after hfuel hseen]
      simp only [gathers_cons_of_none hkind]
    | some kind =>
      have hassoc (d : Datum) (r : Record) :
          seen ++ [(e.name, d)] ++ r = seen ++ (e.name, d) :: r := by simp
      rw [readShapeMembers_take hgap hkind]
      simp only [gathers_cons_of_some hkind, behindEntry_eq]
      constructor
      · rintro ⟨hnew, d, hdkind, hd, h⟩
        obtain ⟨r, hr, hnodup, hcomplete, rfl, rfl⟩ :=
          (ih e.slot.blank_after hfuel (nodup_concat hseen hnew d)).mp h
        rw [hassoc] at hnodup hcomplete ⊢
        exact ⟨_, ⟨d, r, hdkind, hd, hr, rfl⟩, hnodup, hcomplete, rfl, rfl⟩
      · rintro ⟨_, ⟨d, r, hdkind, hd, hr, rfl⟩, hnodup, hcomplete, rfl, rfl⟩
        have hnew : e.name ∉ seen.map (·.1) := name_not_mem hnodup
        rw [← hassoc d r] at hnodup hcomplete
        exact ⟨hnew, d, hdkind, hd, (ih e.slot.blank_after hfuel (nodup_concat hseen hnew d)).mpr
          ⟨r, hr, hnodup, hcomplete, (hassoc d r).symm, rfl⟩⟩

/-- An object that a record is read from closes, or a member follows whose value can be passed
over. -/
theorem readShapeMembers_cases {cs : List Char}
    (h : readShapeMembers shape (fuel + 1) isFirst seen cs = .ok (r', rest)) :
    readClosing .object cs = .ok rest ∨ ∃ item name behind start more seen',
      nextItem .object isFirst cs = .ok (some item) ∧ readName item = .ok (name, behind) ∧
        readColon behind = .ok start ∧ passValue start = .ok more ∧
          readShapeMembers shape fuel false seen' more = .ok (r', rest) := by
  rw [readShapeMembers] at h
  split at h
  · cases h
  · split at h
    · cases h
    · obtain ⟨_, hclosing, heq⟩ := ok_of_map h
      obtain ⟨-, rfl⟩ := Prod.mk.inj heq
      exact .inl hclosing
  · rename_i hnext
    split at h
    · cases h
    · rename_i hname
      split at h
      · split at h
        · cases h
        · rename_i hvalue
          obtain ⟨start, hcolon, hpass⟩ := ok_of_bind hvalue
          exact .inr ⟨_, _, _, start, _, _, hnext, hname, hcolon, hpass, h⟩
      · split at h
        · cases h
        · split at h
          · cases h
          · rename_i hvalue
            obtain ⟨start, hcolon, hread⟩ := ok_of_bind hvalue
            obtain ⟨-, ⟨_, hscalar⟩, -⟩ := says_of_readDatum hread
            exact .inr ⟨_, _, _, start, _, _, hnext, hname, hcolon,
              (passable_scalar hscalar).passValue, h⟩

/-- An object that a record is read from has such entries. -/
theorem entries_of_readShapeMembers {cs : List Char}
    (h : readShapeMembers shape fuel isFirst seen cs = .ok (r', rest)) :
    ∃ (gap : List Char) (es : List Entry), Blank gap ∧
      cs = gap ++ (remaining isFirst (es.map Entry.text) ++ '}' :: rest) := by
  induction fuel generalizing isFirst seen cs with
  | zero => cases h
  | succ fuel ih =>
    rcases readShapeMembers_cases h with hclosing |
      ⟨_, name, _, _, _, _, hnext, hname, hcolon, hpass, hmore⟩
    · obtain ⟨gap, hgap, rfl⟩ := gap_of_readClosing hclosing
      exact ⟨gap, [], hgap, by rw [List.map_nil, remaining_nil]; rfl⟩
    · obtain ⟨gap, before, hgap, hbefore, rfl⟩ := parts_of_nextItem hnext
      obtain ⟨marks, hmarks, rfl⟩ := spelling_of_readName hname
      obtain ⟨between, hbetween, rfl⟩ := gap_of_readColon hcolon
      obtain ⟨start, v, hstart, rfl, hv⟩ := loose_of_passValue hpass
      obtain ⟨after, es, hafter, rfl⟩ := ih hmore
      let e : Entry := { before, marks, between, slot := ⟨start, v, after, hstart, hafter⟩,
                         blank_before := hbefore, blank_between := hbetween, name,
                         spelled := hmarks, loose := hv }
      refine ⟨gap, e :: es, hgap, ?_⟩
      simp [remaining_cons, Entry.text, Member.text, Slot.text, e]

/-- At the end of a list the record is complete if it needs no more members. -/
theorem readShapeItems_closing (hgap : Blank gap) (members : List (String × Kind)) :
    readShapeItems shape members isFirst seen (gap ++ ']' :: rest) = .ok (r', rest') ↔
      (shape.required = true → members = []) ∧ r' = seen ∧ rest' = rest := by
  have hnext : nextItem .list isFirst (gap ++ ']' :: rest) = .ok none :=
    nextItem_blank_closing hgap .list isFirst rest
  have hclosing : readClosing .list (gap ++ ']' :: rest) = .ok rest :=
    readClosing_blank_closing hgap .list rest
  cases members with
  | nil =>
    rw [readShapeItems, hclosing]
    simp only [Except.map, Except.ok.injEq, Prod.mk.injEq, implies_true, true_and, eq_comm]
  | cons m members =>
    rw [readShapeItems, hnext]
    simp only [hclosing]
    split
    · rename_i hrequired
      simp [hrequired]
    · rename_i hoptional
      simp [hoptional, eq_comm]

/-- An item is taken if it has a value of the type of its member. -/
theorem readShapeItems_take (hgap : Blank gap) (name : String) (kind : Kind)
    (members : List (String × Kind)) :
    readShapeItems shape ((name, kind) :: members) isFirst seen
        (gap ++ (remaining isFirst (((e :: es).map (·.slot)).map Slot.text) ++ ']' :: rest)) =
          .ok (r', rest') ↔
      ∃ d, d.kind = kind ∧ Says e.slot.value d ∧
        readShapeItems shape members false (seen ++ [(name, d)])
          (behindSlot e.slot (es.map (·.slot)) rest) = .ok (r', rest') := by
  obtain ⟨levels, hwritten⟩ := e.loose
  have hvalue {d : Datum} {more : List Char} :
      readDatum kind (e.slot.value ++ behindSlot e.slot (es.map (·.slot)) rest) =
        .ok (d, more) ↔ _ :=
    readDatum_iff blank_nil e.loose (ends_behindSlot e.slot (es.map (·.slot)) rest)
  rw [List.map_cons, readShapeItems, nextItem_slot hgap isFirst hwritten]
  simp only
  split
  · rename_i hrefused
    refine iff_of_false (by simp) ?_
    rintro ⟨d, hkind, hd, -⟩
    rw [hvalue.mpr ⟨hkind, hd, rfl⟩] at hrefused
    cases hrefused
  · rename_i d behind hread
    obtain ⟨hkind, hd, rfl⟩ := hvalue.mp hread
    refine ⟨fun h => ⟨d, hkind, hd, h⟩, ?_⟩
    rintro ⟨d', hkind', hd', h⟩
    rwa [hd.unique hd' (hkind.trans hkind'.symm)]

/-- The entries that lie in the order of the members give the items of a list. -/
theorem readShapeItems_iff {members : List (String × Kind)} (hgap : Blank gap)
    (hkinds : ∀ m ∈ members, shape.kind? m.1 = some m.2)
    (hnames : es.map (·.name) <+: members.map (·.1)) :
    readShapeItems shape members isFirst seen
        (gap ++ (remaining isFirst ((es.map (·.slot)).map Slot.text) ++ ']' :: rest)) =
          .ok (r', rest') ↔
      ∃ r, Gathers shape.kind? es r ∧ (shape.required = true → es.length = members.length) ∧
        r' = seen ++ r ∧ rest' = rest := by
  induction es generalizing members isFirst gap seen with
  | nil =>
    rw [List.map_nil, List.map_nil, remaining_nil, List.nil_append, readShapeItems_closing hgap]
    have hlength : [] = members ↔ ([] : List Entry).length = members.length := by
      rw [List.length_nil, eq_comm, ← List.length_eq_zero_iff, eq_comm]
    constructor
    · rintro ⟨hrequired, rfl, rfl⟩
      exact ⟨[], .nil, fun h => hlength.mp (hrequired h).symm, by simp, rfl⟩
    · rintro ⟨r, hr, hrequired, rfl, rfl⟩
      cases hr
      exact ⟨fun h => (hlength.mpr (hrequired h)).symm, by simp, rfl⟩
  | cons e es ih =>
    cases members with
    | nil => simp at hnames
    | cons m members =>
      obtain ⟨name, kind⟩ := m
      obtain ⟨hkind, hkinds'⟩ := List.forall_mem_cons.mp hkinds
      obtain ⟨rfl, hnames'⟩ : e.name = name ∧ es.map (·.name) <+: members.map (·.1) := by
        simpa [List.cons_prefix_cons] using hnames
      have hassoc (d : Datum) (r : Record) :
          seen ++ [(e.name, d)] ++ r = seen ++ (e.name, d) :: r := by simp
      rw [readShapeItems_take hgap]
      simp only [gathers_cons_of_some hkind, List.length_cons, Nat.add_right_cancel_iff, behindSlot,
        ih e.slot.blank_after hkinds' hnames']
      constructor
      · rintro ⟨d, hdkind, hd, r, hr, hlength, rfl, rfl⟩
        exact ⟨_, ⟨d, r, hdkind, hd, hr, rfl⟩, hlength, hassoc d r, rfl⟩
      · rintro ⟨_, ⟨d, r, hdkind, hd, hr, rfl⟩, hlength, rfl, rfl⟩
        exact ⟨d, hdkind, hd, r, hr, hlength, (hassoc d r).symm, rfl⟩

end

theorem readValue_says {s : String} {v before rest : List Char} (h : Says v (.text s))
    (hbefore : Blank before) (depth : Nat) :
    readValue depth (before ++ (v ++ rest)) = .ok (.text s, rest) := by
  refine readOn_scalar ?_ _ depth
  rw [skipBlanks_append hbefore, h.written.skipBlanks_eq]
  cases h with
  | text hmarks =>
    have hread := readText_spelling hmarks rest
    simp [readScalar, hread, Except.map]

/-- The attributes among members are picked if each has a text and none stands twice. -/
theorem exists_pickAttributes {seen : List (Attribute × String)} {ms : List (String × Json)}
    (htexts : ∀ m ∈ ms, ∀ a, attribute? m.1 = some a → ∃ s, m.2 = .text s)
    (hnodup : (seen.map (·.1) ++ (ms.map (·.1)).filterMap attribute?).Nodup) :
    ∃ found, pickAttributes seen ms = .ok found := by
  induction ms generalizing seen with
  | nil => exact ⟨seen, rfl⟩
  | cons m ms ih =>
    obtain ⟨name, v⟩ := m
    obtain ⟨hm, hms⟩ := List.forall_mem_cons.mp htexts
    rw [pickAttributes]
    cases ha : attribute? name with
    | none =>
      rw [List.map_cons, List.filterMap_cons_none ha] at hnodup
      exact ih hms hnodup
    | some a =>
      obtain ⟨s, rfl⟩ := hm a ha
      rw [List.map_cons, List.filterMap_cons_some ha] at hnodup
      have hnew : a ∉ seen.map (·.1) := fun hmem =>
        (List.nodup_append.mp hnodup).2.2 a hmem a List.mem_cons_self rfl
      simp only [any_name_eq_false hnew]
      exact ih hms (by simpa using hnodup)

section

variable {own : List String} {seen : List (String × String)} {kept : List (String × Json)}
  {gap rest rest' : List Char} {isFirst : Bool} {fuel : Nat} {e : Entry} {es : List Entry}

/-- Whatever is kept was written strictly. -/
theorem written_of_readEmbeddedMembers (hgap : Blank gap)
    {x : List (String × String) × Profile}
    (h : readEmbeddedMembers own fuel isFirst seen kept
      (gap ++ (remaining isFirst (es.map Entry.text) ++ '}' :: rest)) = .ok (x, rest')) :
    ∀ e ∈ es, e.name ∉ own → Written true (maxDepth - 1) e.slot.value := by
  induction es generalizing isFirst gap fuel seen kept with
  | nil => exact List.forall_mem_nil _
  | cons e es ih =>
    cases fuel with
    | zero => cases h
    | succ fuel =>
      rw [readEmbeddedMembers, nextItem_entry e es rest hgap] at h
      simp only [readName_entry, readColon_entry, Except.bind] at h
      split at h
      · rename_i hown
        split at h
        · cases h
        · split at h
          · cases h
          · rename_i s behind hread
            obtain ⟨-, -, rfl⟩ := (readDatum_entry e es rest).mp hread
            rw [behindEntry_eq] at h
            exact List.forall_mem_cons.mpr
              ⟨fun hother => absurd (by simpa using hown) hother, ih e.slot.blank_after h⟩
          · cases h
      · split at h
        · cases h
        · rename_i j behind hread
          obtain ⟨rfl, hwritten⟩ := written_of_readValue e.slot.blank_before e.loose
            (ends_behindEntry e es rest) hread
          rw [behindEntry_eq] at h
          exact List.forall_mem_cons.mpr ⟨fun _ => hwritten, ih e.slot.blank_after h⟩

variable (e es rest) in
/-- A value that is written strictly can be kept. -/
theorem exists_keptValue (hvalue : Written true (maxDepth - 1) e.slot.value)
    (htext : (attribute? e.name).isSome → ∃ s, Says e.slot.value (.text s)) :
    ∃ j, readValue 1 (entryValue e es rest) = .ok (j, behindEntry e es rest) ∧
      ∀ a, attribute? e.name = some a → ∃ s, j = .text s := by
  cases ha : attribute? e.name with
  | none =>
    have hdepth : 1 + (maxDepth - 1) ≤ maxDepth := by decide
    obtain ⟨j, hj⟩ := hvalue.exists_readValue e.slot.blank_before hdepth
      (ends_behindEntry e es rest)
    exact ⟨j, hj, fun a h => by cases h⟩
  | some a =>
    obtain ⟨s, hs⟩ := htext (by rw [ha]; rfl)
    exact ⟨.text s, readValue_says hs e.slot.blank_before 1, fun _ _ => ⟨s, rfl⟩⟩

/-- A record that embeds a profile is read if its own texts and the attributes stand at most once,
each with a text, and the other values can be kept. -/
theorem exists_readEmbeddedMembers (hapart : ∀ a : Attribute, a.wireName ∉ own) (hgap : Blank gap)
    (hfuel : es.length < fuel)
    (htexts : ∀ e ∈ es, e.name ∈ own ∨ (attribute? e.name).isSome →
      ∃ s, Says e.slot.value (.text s))
    (hwritten : ∀ e ∈ es, e.name ∉ own → Written true (maxDepth - 1) e.slot.value)
    (hkept : ∀ m ∈ kept, ∀ a, attribute? m.1 = some a → ∃ s, m.2 = .text s)
    (hown : (seen.map (·.1) ++ (es.map (·.name)).filter own.contains).Nodup)
    (hothers : ((kept.reverse.map (·.1) ++ es.map (·.name)).filterMap attribute?).Nodup) :
    ∃ x, readEmbeddedMembers own fuel isFirst seen kept
      (gap ++ (remaining isFirst (es.map Entry.text) ++ '}' :: rest)) = .ok (x, rest) := by
  -- Its own texts are taken at once. The others are kept, the last of them first, and only the
  -- attributes are looked for among them when the object ends.
  induction es generalizing isFirst gap fuel seen kept with
  | nil =>
    obtain ⟨fuel, rfl⟩ := Nat.exists_eq_add_one.mpr hfuel
    have hnext : nextItem .object isFirst (gap ++ '}' :: rest) = .ok none :=
      nextItem_blank_closing hgap .object isFirst rest
    have hclosing : readClosing .object (gap ++ '}' :: rest) = .ok rest :=
      readClosing_blank_closing hgap .object rest
    obtain ⟨found, hfound⟩ : ∃ found, pickAttributes [] kept.reverse = .ok found :=
      exists_pickAttributes (fun m hm => hkept m (List.mem_reverse.mp hm)) (by simpa using hothers)
    refine ⟨(seen, profileOf found), ?_⟩
    rw [List.map_nil, remaining_nil, List.nil_append, readEmbeddedMembers, hnext]
    simp only [hfound, hclosing, Except.map]
  | cons e es ih =>
    obtain ⟨fuel, rfl⟩ := Nat.exists_eq_add_one.mpr (Nat.zero_lt_of_lt hfuel)
    have hfuel : es.length < fuel := Nat.lt_of_succ_lt_succ hfuel
    obtain ⟨htext, htexts⟩ := List.forall_mem_cons.mp htexts
    obtain ⟨hvalue, hwritten⟩ := List.forall_mem_cons.mp hwritten
    rw [readEmbeddedMembers, nextItem_entry e es rest hgap]
    simp only [readName_entry, readColon_entry, Except.bind]
    by_cases hmem : e.name ∈ own
    · obtain ⟨s, hs⟩ := htext (.inl hmem)
      have hcontains : own.contains e.name = true := by simpa using hmem
      rw [List.map_cons, List.filter_cons_of_pos hcontains] at hown
      have hnew : e.name ∉ seen.map (·.1) := fun hold =>
        (List.nodup_append.mp hown).2.2 _ hold _ List.mem_cons_self rfl
      have hread : readDatum .text (entryValue e es rest) = .ok (.text s, behindEntry e es rest) :=
        (readDatum_entry e es rest).mpr ⟨rfl, hs, rfl⟩
      have hnone : attribute? e.name = none := by
        rw [Option.eq_none_iff_forall_ne_some]
        intro a ha
        exact hapart a (attribute?_eq_some.mp ha ▸ hmem)
      simp only [hcontains, any_name_eq_false hnew, hread, if_true, Bool.false_eq_true, if_false,
        behindEntry_eq]
      exact ih e.slot.blank_after hfuel htexts hwritten hkept (by simpa using hown)
        (by simpa [hnone] using hothers)
    · have hcontains : ¬ own.contains e.name = true := by simpa using hmem
      obtain ⟨j, hread, hj⟩ := exists_keptValue rest e es (hvalue hmem) fun h => htext (.inr h)
      rw [List.map_cons, List.filter_cons_of_neg hcontains] at hown
      simp only [if_neg hcontains, hread, behindEntry_eq]
      exact ih e.slot.blank_after hfuel htexts hwritten (List.forall_mem_cons.mpr ⟨hj, hkept⟩) hown
        (by simpa using hothers)

end

end Roster.Json
