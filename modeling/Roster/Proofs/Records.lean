import Mathlib.Data.List.Nodup
import Roster.Json.Record
import Roster.Proofs.Lexemes
import Roster.Wire
/-! # Written records are read back

The reader of a frame stands in front of its first item or behind an item, where a comma leads the
next. One lemma for every step says what it takes off the text, and the induction is on the members
that are left. -/
namespace Roster.Json
open Text

/-- A blank of JSON. -/
def isGap (c : Char) : Bool := c == ' ' || c == '\n' || c == '\t' || c == '\r'

theorem skipBlanks_cons {c : Char} (h : isGap c = false) (rest : List Char) :
    skipBlanks (c :: rest) = c :: rest := List.dropWhile_cons_of_neg (by simpa [isGap] using h)

/-- The text of the items that are left in a frame, of which the first may be the first of all. -/
def remaining : Bool → List (List Char) → List Char
  | true, parts => separate parts
  | false, parts => parts.flatMap (',' :: ·)

theorem separate_cons (part : List Char) (parts : List (List Char)) :
    separate (part :: parts) = part ++ remaining false parts := by
  induction parts generalizing part with
  | nil => simp [separate, remaining]
  | cons next parts ih => simp [separate, ih, remaining]

theorem remaining_cons (isFirst : Bool) (part : List Char) (parts : List (List Char)) :
    remaining isFirst (part :: parts) =
      (if isFirst then [] else [',']) ++ (part ++ remaining false parts) := by
  cases isFirst with
  | true => exact separate_cons part parts
  | false => simp [remaining]

theorem remaining_nil (isFirst : Bool) : remaining isFirst [] = [] := by cases isFirst <;> rfl

/-- A text is at least as long as it has items. -/
theorem length_le_remaining (isFirst : Bool) {parts : List (List Char)}
    (hparts : ∀ p ∈ parts, p ≠ []) : parts.length ≤ (remaining isFirst parts).length := by
  induction parts generalizing isFirst with
  | nil => simp
  | cons part parts ih =>
    obtain ⟨hpart, hparts⟩ := List.forall_mem_cons.mp hparts
    have hrest := ih false hparts
    have hone := List.length_pos_of_ne_nil hpart
    rw [remaining_cons, List.length_append, List.length_append, List.length_cons]
    omega

section

variable (frame : Frame) (isFirst : Bool) (rest : List Char)

theorem isGap_closing : isGap frame.closing = false := by cases frame <;> rfl

theorem nextItem_closing : nextItem frame isFirst (frame.closing :: rest) = .ok none := by
  simp [nextItem, skipBlanks_cons (isGap_closing frame)]

theorem nextItem_remaining {c : Char} (hc : isGap c = false) (hclose : c ≠ frame.closing) :
    nextItem frame isFirst ((if isFirst then [] else [',']) ++ c :: rest) =
      .ok (some (c :: rest)) := by
  cases isFirst with
  | true => simp [nextItem, skipBlanks_cons hc, hclose]
  | false =>
    have hcomma : ',' ≠ frame.closing := by cases frame <;> decide
    have hgap : isGap ',' = false := rfl
    simp [nextItem, skipBlanks_cons hgap, skipBlanks_cons hc, hclose, hcomma]

theorem readClosing_closing : readClosing frame (frame.closing :: rest) = .ok rest := by
  simp [readClosing, skipBlanks_cons (isGap_closing frame)]

/-- What stands behind an item: the next one or the closing bracket. -/
theorem ends_remaining (parts : List (List Char)) :
    Ends (remaining false parts ++ frame.closing :: rest) := by
  cases parts with
  | nil =>
    cases frame <;> simp [remaining, Ends, Frame.closing]
  | cons part parts => simp [remaining, Ends]

end

theorem readColon_colon (rest : List Char) : readColon (':' :: rest) = .ok rest := by
  have hgap : isGap ':' = false := rfl
  simp [readColon, skipBlanks_cons hgap]

theorem isGap_of_isDigit {c : Char} (h : c.isDigit = true) : isGap c = false := by
  have hne (d : Char) (hd : d.isDigit = false) : c ≠ d := ne_of_isDigit h hd
  simp [isGap, hne ' ' rfl, hne '\n' rfl, hne '\t' rfl, hne '\r' rfl]

theorem readDatum_write (d : Datum) {rest : List Char} (hrest : Ends rest) :
    readDatum d.kind (write d.toJson ++ rest) = .ok (d, rest) := by
  cases d with
  | text s =>
    have hgap : isGap '"' = false := rfl
    have hwrite : write (Datum.text s).toJson ++ rest =
        '"' :: (s.toList.flatMap escape ++ '"' :: rest) := by
      simp [Datum.toJson, write, writeText]
    simp [hwrite, Datum.kind, readDatum, skipBlanks_cons hgap, readText_writeText, Except.map]
  | flag b =>
    cases b with
    | true => rfl
    | false => rfl
  | count n =>
    have hwrite : write (Datum.count n).toJson = decimal n.toNat := rfl
    have hword : n.toNat ≤ maxWord := by
      have hlt := n.toNat_lt
      unfold maxWord
      omega
    have hread := readNumber_decimal hword hrest
    obtain ⟨c, cs, hcs⟩ := List.exists_cons_of_ne_nil (decimal_ne_nil n.toNat)
    have hc : c.isDigit = true := isDigit_of_mem_decimal (hcs ▸ List.mem_cons_self)
    have hgap : isGap c = false := isGap_of_isDigit hc
    rw [hwrite]
    rw [hcs, List.cons_append] at hread ⊢
    simp [Datum.kind, readDatum, skipBlanks_cons hgap, hc, hread, n.toNat_lt_size]

/-- The text of a member. -/
def memberText (e : String × Datum) : List Char := writeText e.1 ++ ':' :: write e.2.toJson

theorem write_toJson (r : Record) :
    write (Record.toJson r) = '{' :: (remaining true (r.map memberText) ++ ['}']) := by
  have hmembers : writeMembers (r.map fun e => (e.1, e.2.toJson)) = r.map memberText := by
    induction r with
    | nil => rfl
    | cons e r ih => rw [List.map_cons, writeMembers, ih, List.map_cons, memberText]
  simp only [Record.toJson, write, hmembers, List.cons_append]
  rfl

theorem memberText_append (e : String × Datum) (rest : List Char) :
    memberText e ++ rest =
      '"' :: (e.1.toList.flatMap escape ++ '"' :: ':' :: (write e.2.toJson ++ rest)) := by
  simp [memberText, writeText]

theorem memberText_ne_nil (e : String × Datum) : memberText e ≠ [] := by
  simp [memberText, writeText]

theorem length_le_members (isFirst : Bool) (r : Record) :
    r.length ≤ (remaining isFirst (r.map memberText)).length := by
  have hparts : ∀ p ∈ r.map memberText, p ≠ [] := by
    intro p hp
    obtain ⟨e, -, rfl⟩ := List.mem_map.mp hp
    exact memberText_ne_nil e
  simpa using length_le_remaining isFirst hparts

theorem nextItem_member (isFirst : Bool) (e : String × Datum) (parts : List (List Char))
    (rest : List Char) :
    nextItem .object isFirst (remaining isFirst (memberText e :: parts) ++ rest) =
      .ok (some (memberText e ++ (remaining false parts ++ rest))) := by
  rw [remaining_cons, List.append_assoc, List.append_assoc, memberText_append]
  exact nextItem_remaining .object isFirst _ rfl (by decide)

theorem readName_member (e : String × Datum) (rest : List Char) :
    readName (memberText e ++ rest) = .ok (e.1, ':' :: (write e.2.toJson ++ rest)) := by
  rw [memberText_append]
  exact readText_writeText e.1 _

/-- The value of a member, behind its name. -/
theorem readMember_write (d : Datum) (parts : List (List Char)) (rest : List Char) :
    (readColon (':' :: (write d.toJson ++ (remaining false parts ++ '}' :: rest)))).bind
      (readDatum d.kind) = .ok (d, remaining false parts ++ '}' :: rest) := by
  rw [readColon_colon]
  exact readDatum_write d (ends_remaining .object rest parts)

section

variable {α β : Type} [BEq α] [LawfulBEq α] {seen r : List (α × β)} {e : α × β} {name : α}

theorem any_name_eq_false (h : name ∉ seen.map (·.1)) :
    (seen.any fun d => d.1 == name) = false := by
  rw [List.any_eq_false]
  intro d hd heq
  exact h (List.mem_map.mpr ⟨d, hd, by simpa using heq⟩)

omit [BEq α] [LawfulBEq α] in
theorem name_not_mem (h : ((seen ++ e :: r).map (·.1)).Nodup) : e.1 ∉ seen.map (·.1) := by
  rw [List.map_append, List.map_cons] at h
  exact fun hmem => (List.nodup_append.mp h).2.2 _ hmem _ List.mem_cons_self rfl

end

/-- The members are some of those of the shape, in their order, and all of them if need be. -/
structure Fits (shape : Shape) (r : Record) : Prop where
  sublist : (r.map fun e => (e.1, e.2.kind)).Sublist shape.members
  complete : shape.required = true → ∀ m ∈ shape.members, ∃ e ∈ r, e.1 = m.1

theorem readShapeMembers_end {shape : Shape} {seen : Record}
    (hcomplete : shape.required = true → ∀ m ∈ shape.members, ∃ e ∈ seen, e.1 = m.1)
    (fuel : Nat) (isFirst : Bool) (rest : List Char) :
    readShapeMembers shape (fuel + 1) isFirst seen ('}' :: rest) = .ok (seen, rest) := by
  have hnext : nextItem .object isFirst ('}' :: rest) = .ok none := nextItem_closing _ _ _
  have hclosing : readClosing .object ('}' :: rest) = .ok rest := readClosing_closing _ _
  have hmissing : (if shape.required then
      shape.members.find? fun m => !(seen.any fun e => e.1 == m.1) else none) = none := by
    split
    · rename_i hrequired
      rw [List.find?_eq_none]
      intro m hm
      obtain ⟨e, he, heq⟩ := hcomplete hrequired m hm
      simpa using ⟨e.2, heq ▸ he⟩
    · rfl
  simp only [readShapeMembers, hnext, hmissing, hclosing, Except.map]

/-- A member of the shape is read if it has not been read before. -/
theorem readShapeMembers_cons {shape : Shape} {seen : Record} {e : String × Datum}
    (hkind : shape.kind? e.1 = some e.2.kind) (hnew : e.1 ∉ seen.map (·.1)) (fuel : Nat)
    (isFirst : Bool) (parts : List (List Char)) (rest : List Char) :
    readShapeMembers shape (fuel + 1) isFirst seen
        (remaining isFirst (memberText e :: parts) ++ '}' :: rest) =
      readShapeMembers shape fuel false (seen ++ [e]) (remaining false parts ++ '}' :: rest) := by
  have hseen := any_name_eq_false hnew
  have hvalue := readMember_write e.2 parts rest
  simp only [readShapeMembers, nextItem_member, readName_member, hkind, hseen, hvalue]
  simp

theorem readShapeMembers_remaining {shape : Shape} (isFirst : Bool) {fuel : Nat} (seen : Record)
    {r : Record} (hfuel : r.length < fuel)
    (hkinds : ∀ e ∈ r, shape.kind? e.1 = some e.2.kind) (hnodup : ((seen ++ r).map (·.1)).Nodup)
    (hcomplete : shape.required = true → ∀ m ∈ shape.members, ∃ e ∈ seen ++ r, e.1 = m.1)
    (rest : List Char) :
    readShapeMembers shape fuel isFirst seen (remaining isFirst (r.map memberText) ++ '}' :: rest) =
      .ok (seen ++ r, rest) := by
  induction r generalizing isFirst fuel seen with
  | nil =>
    obtain ⟨fuel, rfl⟩ : ∃ k, fuel = k + 1 := Nat.exists_eq_add_one.mpr hfuel
    rw [List.append_nil] at hcomplete
    rw [List.map_nil, remaining_nil, List.nil_append, List.append_nil]
    exact readShapeMembers_end hcomplete fuel isFirst rest
  | cons e r ih =>
    obtain ⟨fuel, rfl⟩ : ∃ k, fuel = k + 1 := Nat.exists_eq_add_one.mpr (Nat.zero_lt_of_lt hfuel)
    obtain ⟨hkind, hkinds⟩ := List.forall_mem_cons.mp hkinds
    have hassoc : seen ++ e :: r = seen ++ [e] ++ r := by simp
    have hnew := name_not_mem hnodup
    rw [hassoc] at hnodup hcomplete
    rw [List.map_cons, readShapeMembers_cons hkind hnew, hassoc]
    exact ih false (seen ++ [e]) (Nat.lt_of_succ_lt_succ hfuel) hkinds hnodup hcomplete

theorem Shape.kind?_of_mem {shape : Shape} (hnodup : (shape.members.map (·.1)).Nodup)
    {m : String × Kind} (hm : m ∈ shape.members) : shape.kind? m.1 = some m.2 := by
  unfold Shape.kind?
  cases hfind : shape.members.find? fun d => d.1 == m.1 with
  | none =>
    exact (List.find?_eq_none.mp hfind m hm (beq_self_eq_true m.1)).elim
  | some d =>
    have hname : d.1 = m.1 := by simpa using List.find?_some hfind
    have hsame : d = m :=
      List.inj_on_of_nodup_map hnodup (List.mem_of_find?_eq_some hfind) hm hname
    rw [Option.map_some, hsame]

/-- A record is read back from its text. -/
theorem readRecord_write {shape : Shape} {r : Record} (h : Fits shape r)
    (hnodup : (shape.members.map (·.1)).Nodup) (rest : List Char) :
    readRecord shape (write (Record.toJson r) ++ rest) = .ok (r, rest) := by
  have hkinds : ∀ e ∈ r, shape.kind? e.1 = some e.2.kind := fun e he =>
    Shape.kind?_of_mem hnodup (h.sublist.subset (List.mem_map_of_mem he))
  have hnames : (r.map (·.1)).Nodup := by
    have hsub := h.sublist.map (·.1)
    rw [List.map_map] at hsub
    exact hnodup.sublist hsub
  have hgap : isGap '{' = false := rfl
  have htext : write (Record.toJson r) ++ rest =
      '{' :: (remaining true (r.map memberText) ++ '}' :: rest) := by
    simp [write_toJson]
  have hfuel : r.length < (remaining true (r.map memberText) ++ '}' :: rest).length + 1 := by
    have hlength := length_le_members true r
    rw [List.length_append]
    omega
  rw [htext]
  simp only [readRecord, skipBlanks_cons hgap]
  exact readShapeMembers_remaining true [] hfuel hkinds hnames h.complete rest

theorem readRecordsOn_remaining {shape : Shape} (hnodup : (shape.members.map (·.1)).Nodup)
    (isFirst : Bool) {fuel : Nat} (seen : List Record) {rs : List Record} (hfuel : rs.length < fuel)
    (hfits : ∀ r ∈ rs, Fits shape r) (rest : List Char) :
    readRecordsOn shape fuel isFirst seen
        (remaining isFirst (rs.map fun r => write (Record.toJson r)) ++ ']' :: rest) =
      .ok (seen.reverse ++ rs, rest) := by
  induction rs generalizing isFirst fuel seen with
  | nil =>
    obtain ⟨fuel, rfl⟩ : ∃ k, fuel = k + 1 := Nat.exists_eq_add_one.mpr hfuel
    have hnext : nextItem .list isFirst (']' :: rest) = .ok none := nextItem_closing _ _ _
    have hclosing : readClosing .list (']' :: rest) = .ok rest := readClosing_closing _ _
    rw [List.map_nil, remaining_nil, List.nil_append, List.append_nil]
    simp only [readRecordsOn, hnext, hclosing, Except.map]
  | cons r rs ih =>
    obtain ⟨fuel, rfl⟩ : ∃ k, fuel = k + 1 := Nat.exists_eq_add_one.mpr (Nat.zero_lt_of_lt hfuel)
    obtain ⟨hr, hfits⟩ := List.forall_mem_cons.mp hfits
    let more := remaining false (rs.map fun r => write (Record.toJson r)) ++ ']' :: rest
    have hread : readRecord shape (write (Record.toJson r) ++ more) = .ok (r, more) :=
      readRecord_write hr hnodup more
    have hnext : nextItem .list isFirst
        (remaining isFirst ((r :: rs).map fun r => write (Record.toJson r)) ++ ']' :: rest) =
        .ok (some (write (Record.toJson r) ++ more)) := by
      rw [List.map_cons, remaining_cons, List.append_assoc, List.append_assoc, write_toJson]
      exact nextItem_remaining .list isFirst _ rfl (by decide)
    have hrest := ih false (r :: seen) (Nat.lt_of_succ_lt_succ hfuel) hfits
    simp only [readRecordsOn, hnext, hread]
    simpa using hrest

theorem writeItems_map {α : Type} (f : α → Json) (as : List α) :
    writeItems (as.map f) = as.map fun a => write (f a) := by
  induction as with
  | nil => rfl
  | cons a as ih => rw [List.map_cons, writeItems, ih, List.map_cons]

/-- A list of records is read back from its text. -/
theorem readRecords_write {shape : Shape} (hnodup : (shape.members.map (·.1)).Nodup)
    {rs : List Record} (hfits : ∀ r ∈ rs, Fits shape r) (rest : List Char) :
    readRecords shape (write (.list (rs.map Record.toJson)) ++ rest) = .ok (rs, rest) := by
  let texts := rs.map fun r => write (Record.toJson r)
  have hgap : isGap '[' = false := rfl
  have htext : write (.list (rs.map Record.toJson)) ++ rest =
      '[' :: (remaining true texts ++ ']' :: rest) := by
    simp [write, writeItems_map, remaining, texts]
  have hparts : ∀ p ∈ texts, p ≠ [] := by
    intro p hp
    obtain ⟨r, -, rfl⟩ := List.mem_map.mp hp
    simp [write_toJson]
  have hfuel : rs.length < (remaining true texts ++ ']' :: rest).length + 1 := by
    have hlength := length_le_remaining true hparts
    rw [List.length_map] at hlength
    rw [List.length_append]
    omega
  rw [htext]
  simp only [readRecords, skipBlanks_cons hgap]
  exact readRecordsOn_remaining hnodup true [] hfuel hfits rest

/-- A value that is a text is kept as it is. -/
theorem readValue_text (depth : Nat) (s : String) (rest : List Char) :
    readValue depth (write (.text s) ++ rest) = .ok (.text s, rest) := by
  have hgap : isGap '"' = false := rfl
  have htext : write (.text s) ++ rest = '"' :: (s.toList.flatMap escape ++ '"' :: rest) := by
    simp [write, writeText]
  rw [htext]
  simp [readValue, readOn, skipBlanks_cons hgap, readScalar, readText_writeText, Except.map]

/-- A member that is a text. -/
def textMember (e : String × String) : String × Datum := (e.1, .text e.2)

section

variable {own : List String} {seen : List (String × String)} {kept : List (String × Json)}
  {e : String × String}

theorem readEmbeddedMembers_own (hown : own.contains e.1 = true) (hnew : e.1 ∉ seen.map (·.1))
    (fuel : Nat) (isFirst : Bool) (parts : List (List Char)) (rest : List Char) :
    readEmbeddedMembers own (fuel + 1) isFirst seen kept
        (remaining isFirst (memberText (textMember e) :: parts) ++ '}' :: rest) =
      readEmbeddedMembers own fuel false (seen ++ [e]) kept
        (remaining false parts ++ '}' :: rest) := by
  have hseen := any_name_eq_false hnew
  have hvalue := readMember_write (.text e.2) parts rest
  rw [Datum.kind] at hvalue
  simp only [readEmbeddedMembers, nextItem_member, readName_member, textMember, hown, hseen, hvalue]
  simp

theorem readEmbeddedMembers_kept (hown : own.contains e.1 = false) (fuel : Nat) (isFirst : Bool)
    (parts : List (List Char)) (rest : List Char) :
    readEmbeddedMembers own (fuel + 1) isFirst seen kept
        (remaining isFirst (memberText (textMember e) :: parts) ++ '}' :: rest) =
      readEmbeddedMembers own fuel false seen ((e.1, .text e.2) :: kept)
        (remaining false parts ++ '}' :: rest) := by
  have hvalue : (readColon (':' :: (write (Datum.text e.2).toJson ++
      (remaining false parts ++ '}' :: rest)))).bind (readValue 1) =
      .ok (.text e.2, remaining false parts ++ '}' :: rest) := by
    rw [readColon_colon]
    exact readValue_text 1 e.2 _
  simp only [readEmbeddedMembers, nextItem_member, readName_member, textMember, hown, hvalue]
  simp

end

/-- The reader finds its own texts among members, and a profile among the others. -/
theorem readEmbeddedMembers_remaining {own : List String} (isFirst : Bool) {fuel : Nat}
    (seen : List (String × String)) (kept : List (String × Json)) {r : List (String × String)}
    {found : List (Attribute × String)} (hfuel : r.length < fuel)
    (hnodup : ((seen ++ r.filter fun e => own.contains e.1).map (·.1)).Nodup)
    (hfound : pickAttributes [] (kept.reverse ++
      (r.filter fun e => !own.contains e.1).map fun e => (e.1, .text e.2)) = .ok found)
    (rest : List Char) :
    readEmbeddedMembers own fuel isFirst seen kept
        (remaining isFirst ((r.map textMember).map memberText) ++ '}' :: rest) =
      .ok ((seen ++ r.filter fun e => own.contains e.1, profileOf found), rest) := by
  induction r generalizing isFirst fuel seen kept with
  | nil =>
    obtain ⟨fuel, rfl⟩ : ∃ k, fuel = k + 1 := Nat.exists_eq_add_one.mpr hfuel
    have hnext : nextItem .object isFirst ('}' :: rest) = .ok none := nextItem_closing _ _ _
    have hclosing : readClosing .object ('}' :: rest) = .ok rest := readClosing_closing _ _
    rw [List.filter_nil, List.map_nil, List.append_nil] at hfound
    rw [List.map_nil, List.map_nil, remaining_nil, List.nil_append, List.filter_nil, List.append_nil]
    simp only [readEmbeddedMembers, hnext, hfound, hclosing, Except.map]
  | cons e r ih =>
    obtain ⟨fuel, rfl⟩ : ∃ k, fuel = k + 1 := Nat.exists_eq_add_one.mpr (Nat.zero_lt_of_lt hfuel)
    have hfuel := Nat.lt_of_succ_lt_succ hfuel
    rw [List.map_cons, List.map_cons]
    cases hown : own.contains e.1 with
    | true =>
      have hassoc : seen ++ e :: r.filter (fun e => own.contains e.1) =
          seen ++ [e] ++ r.filter fun e => own.contains e.1 := by simp
      have hin : (e :: r).filter (fun e => own.contains e.1) =
          e :: r.filter fun e => own.contains e.1 := List.filter_cons_of_pos hown
      have hout : (e :: r).filter (fun e => !own.contains e.1) =
          r.filter fun e => !own.contains e.1 := List.filter_cons_of_neg (by rw [hown]; decide)
      rw [hin] at hnodup ⊢
      rw [hout] at hfound
      have hnew := name_not_mem hnodup
      rw [hassoc] at hnodup ⊢
      rw [readEmbeddedMembers_own hown hnew]
      exact ih false (seen ++ [e]) kept hfuel hnodup hfound
    | false =>
      have hin : (e :: r).filter (fun e => own.contains e.1) =
          r.filter fun e => own.contains e.1 := List.filter_cons_of_neg (by rw [hown]; decide)
      have hout : (e :: r).filter (fun e => !own.contains e.1) =
          e :: r.filter fun e => !own.contains e.1 := List.filter_cons_of_pos (by rw [hown]; rfl)
      rw [hin] at hnodup ⊢
      rw [hout, List.map_cons] at hfound
      rw [readEmbeddedMembers_kept hown]
      exact ih false seen ((e.1, .text e.2) :: kept) hfuel hnodup (by simpa using hfound)

/-- A record that embeds a profile is read back from its text: its own texts, and the profile that
the other members give. -/
theorem readEmbedded_write {own : List String} {r : List (String × String)}
    {found : List (Attribute × String)} (name : String)
    (hnodup : ((r.filter fun e => own.contains e.1).map (·.1)).Nodup)
    (hfound : pickAttributes []
      ((r.filter fun e => !own.contains e.1).map fun e => (e.1, .text e.2)) = .ok found)
    (rest : List Char) :
    readEmbedded name own (write (Record.toJson (r.map textMember)) ++ rest) =
      .ok ((r.filter fun e => own.contains e.1, profileOf found), rest) := by
  have hgap : isGap '{' = false := rfl
  let text := remaining true ((r.map textMember).map memberText) ++ '}' :: rest
  have htext : write (Record.toJson (r.map textMember)) ++ rest = '{' :: text := by
    simp [write_toJson, text]
  have hfuel : r.length < text.length + 1 := by
    have hlength := length_le_members true (r.map textMember)
    rw [List.length_map] at hlength
    rw [List.length_append]
    omega
  rw [htext]
  simp only [readEmbedded, skipBlanks_cons hgap]
  exact readEmbeddedMembers_remaining true [] [] hfuel hnodup hfound rest

/-- A profile is picked from the members of its attributes. -/
theorem pickAttributes_profile (p : Profile) :
    pickAttributes [] (Attribute.all.map fun a => (a.wireName, .text (p.get a))) =
      .ok (Attribute.all.map fun a => (a, p.get a)) := by
  rfl

theorem profileOf_all (p : Profile) :
    profileOf (Attribute.all.map fun a => (a, p.get a)) = p := by
  refine Profile.ext_get fun a => ?_
  cases a <;> rfl

/-- A whole text is read if nothing follows what is read. -/
theorem readWhole_render {α : Type} {read : List Char → Except Fault (α × List Char)} {v : Json}
    {a : α} (h : read v.write = .ok (a, [])) : readWhole read v.render = .ok a := by
  rw [readWhole, render, String.toList_ofList, h]
  rfl

end Roster.Json
