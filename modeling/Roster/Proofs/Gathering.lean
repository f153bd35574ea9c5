import Mathlib.Data.List.Perm.Subperm
import Roster.Proofs.Entries
import Roster.Proofs.RoundTrip
/-! # Records and the whole texts that they are read from

A record is read from the text of an object that has nothing but blanks around it if it can gather
the entries, and from that of a list if it can gather the first of its members. A message that embeds
a profile is read from the objects that a record with all its texts is read from, as long as the
values of the other entries can be kept. What a record has under a name does not depend on the order
of its data. -/
namespace Roster.Json

theorem complete_of_optional {shape : Shape} (h : shape.required = false) (r : Record) :
    Complete shape r := by
  intro hrequired
  rw [h] at hrequired
  cases hrequired

/-- The blanks around an object or a list, and behind the bracket that opens it. -/
structure Margins where
  lead : List Char := []
  inner : List Char := []
  trail : List Char := []
  blank_lead : Blank lead := by decide
  blank_inner : Blank inner := by decide
  blank_trail : Blank trail := by decide

/-- The text of an object. -/
def Margins.object (m : Margins) (es : List Entry) : String :=
  .ofList (m.lead ++ '{' :: (m.inner ++ (separate (es.map Entry.text) ++ '}' :: m.trail)))

/-- The text of a list. -/
def Margins.list (m : Margins) (slots : List Slot) : String :=
  .ofList (m.lead ++ '[' :: (m.inner ++ (separate (slots.map Slot.text) ++ ']' :: m.trail)))

theorem blank_iff {cs : List Char} : Blank cs ↔ skipBlanks cs = [] := by
  rw [skipBlanks, List.dropWhile_eq_nil_iff]
  rfl

theorem readEnd_eq_ok {rest : List Char} : readEnd rest = .ok () ↔ Blank rest := by
  rw [blank_iff, readEnd]
  split <;> simp_all

theorem readWhole_eq_ok {α : Type} {read : List Char → Except Fault (α × List Char)} {t : String}
    {a : α} : readWhole read t = .ok a ↔ ∃ rest, read t.toList = .ok (a, rest) ∧ Blank rest := by
  unfold readWhole
  constructor
  · intro h
    split at h
    · cases h
    · rename_i hread
      obtain ⟨_, hend, rfl⟩ := ok_of_map h
      exact ⟨_, hread, readEnd_eq_ok.mp hend⟩
  · rintro ⟨rest, hread, hrest⟩
    simp only [hread, readEnd_eq_ok.mpr hrest, Except.map]

theorem length_lt_entries (m : Margins) (es : List Entry) :
    es.length < (m.inner ++ (separate (es.map Entry.text) ++ '}' :: m.trail)).length + 1 := by
  have hparts : ∀ p ∈ es.map Entry.text, p ≠ [] := by
    intro p hp
    obtain ⟨e, -, rfl⟩ := List.mem_map.mp hp
    simp [Entry.text, Member.text]
  have hlength := length_le_remaining true hparts
  rw [List.length_map] at hlength
  simp only [remaining] at hlength
  simp only [List.length_append]
  omega

section

variable {shape : Shape} {m : Margins} {es : List Entry} {r : Record}

theorem readRecord_object : readRecord shape (m.object es).toList =
    readShapeMembers shape
      ((m.inner ++ (separate (es.map Entry.text) ++ '}' :: m.trail)).length + 1) true []
      (m.inner ++ (separate (es.map Entry.text) ++ '}' :: m.trail)) := by
  have hgap : isGap '{' = false := rfl
  simp only [Margins.object, String.toList_ofList, readRecord,
    skipBlanks_append_cons m.blank_lead hgap]

theorem readRecord_list {slots : List Slot} : readRecord shape (m.list slots).toList =
    readShapeItems shape shape.members true []
      (m.inner ++ (separate (slots.map Slot.text) ++ ']' :: m.trail)) := by
  have hgap : isGap '[' = false := rfl
  simp only [Margins.list, String.toList_ofList, readRecord,
    skipBlanks_append_cons m.blank_lead hgap]

theorem readEmbedded_object {title : String} {own : List String} :
    readEmbedded title own (m.object es).toList =
      readEmbeddedMembers own
        ((m.inner ++ (separate (es.map Entry.text) ++ '}' :: m.trail)).length + 1) true [] []
        (m.inner ++ (separate (es.map Entry.text) ++ '}' :: m.trail)) := by
  have hgap : isGap '{' = false := rfl
  simp only [Margins.object, String.toList_ofList, readEmbedded,
    skipBlanks_append_cons m.blank_lead hgap]

/-- A record is read from an object if it can gather the entries. -/
theorem readWhole_object : readWhole (readRecord shape) (m.object es) = .ok r ↔
    Gathers shape.kind? es r ∧ (r.map (·.1)).Nodup ∧ Complete shape r := by
  have hnil : (([] : Record).map (·.1)).Nodup := List.nodup_nil
  rw [readWhole_eq_ok, readRecord_object]
  constructor
  · rintro ⟨rest, hread, -⟩
    obtain ⟨_, hr, hnodup, hcomplete, rfl, -⟩ :=
      (readShapeMembers_iff m.blank_inner (length_lt_entries m es) hnil).mp hread
    exact ⟨hr, hnodup, hcomplete⟩
  · rintro ⟨hr, hnodup, hcomplete⟩
    exact ⟨m.trail, (readShapeMembers_iff m.blank_inner (length_lt_entries m es) hnil).mpr
      ⟨r, hr, hnodup, hcomplete, rfl, rfl⟩, m.blank_trail⟩

/-- A record is read from a list if it can gather the entries that lie in the order of the
members. -/
theorem readWhole_list (hmembers : (shape.members.map (·.1)).Nodup)
    (hnames : es.map (·.name) <+: shape.members.map (·.1)) :
    readWhole (readRecord shape) (m.list (es.map (·.slot))) = .ok r ↔
      Gathers shape.kind? es r ∧
        (shape.required = true → es.length = shape.members.length) := by
  have hkinds : ∀ d ∈ shape.members, shape.kind? d.1 = some d.2 :=
    fun _ => Shape.kind?_of_mem hmembers
  rw [readWhole_eq_ok, readRecord_list]
  constructor
  · rintro ⟨rest, hread, -⟩
    obtain ⟨_, hr, hlength, rfl, -⟩ := (readShapeItems_iff m.blank_inner hkinds hnames).mp hread
    exact ⟨hr, hlength⟩
  · rintro ⟨hr, hlength⟩
    exact ⟨m.trail, (readShapeItems_iff m.blank_inner hkinds hnames).mpr ⟨r, hr, hlength, rfl, rfl⟩,
      m.blank_trail⟩

/-- A text that opens an object and that a record is read from is such an object. -/
theorem exists_object {t : String} (hopen : ∃ more, skipBlanks t.toList = '{' :: more)
    (h : readWhole (readRecord shape) t = .ok r) : ∃ m es, t = Margins.object m es := by
  obtain ⟨more, hmore⟩ := hopen
  obtain ⟨rest, hread, hrest⟩ := readWhole_eq_ok.mp h
  simp only [readRecord, hmore] at hread
  obtain ⟨lead, hlead, heq⟩ := exists_blank t.toList
  obtain ⟨inner, es, hinner, rfl⟩ := entries_of_readShapeMembers hread
  refine ⟨⟨lead, inner, rest, hlead, hinner, hrest⟩, es, ?_⟩
  rw [Margins.object, ← String.toList_inj, String.toList_ofList, heq, hmore]
  rfl

end

theorem Record.get?_eq_some {r : Record} (hnodup : (r.map (·.1)).Nodup) {name : String}
    {d : Datum} : Record.get? r name = some d ↔ (name, d) ∈ r := by
  induction r with
  | nil => simp [Record.get?]
  | cons m r ih =>
    obtain ⟨hnew, hnodup⟩ := List.nodup_cons.mp hnodup
    rw [Record.get?_cons, List.mem_cons]
    split
    · rename_i hname
      subst hname
      have hold : (m.1, d) ∉ r := fun hd => hnew (List.mem_map.mpr ⟨_, hd, rfl⟩)
      simp [hold, Prod.ext_iff, eq_comm]
    · rename_i hname
      rw [ih hnodup]
      have hother : (name, d) ≠ m := fun heq => hname (heq ▸ rfl)
      simp [hother]

theorem Record.get?_perm {r r' : Record} (hnodup : (r.map (·.1)).Nodup) (h : r.Perm r')
    (name : String) : Record.get? r name = Record.get? r' name := by
  have hnodup' : (r'.map (·.1)).Nodup := (h.map _).nodup_iff.mp hnodup
  exact Option.ext fun d => by
    rw [Record.get?_eq_some hnodup, Record.get?_eq_some hnodup', h.mem_iff]

/-- The datum of a member that is not supplied. -/
def Kind.zero : Kind → Datum
  | .text => .text ""
  | .count => .count 0
  | .flag => .flag false

/-- The datum of a member of a type. -/
def Record.datum (r : Record) (m : String × Kind) : Datum :=
  match m.2 with
  | .text => .text (Record.text r m.1)
  | .count => .count (Record.count r m.1)
  | .flag => .flag (Record.flag r m.1)

theorem Record.kind_datum (r : Record) (m : String × Kind) : (Record.datum r m).kind = m.2 := by
  obtain ⟨name, kind⟩ := m
  cases kind <;> rfl

theorem Record.datum_congr {r r' : Record} {m : String × Kind}
    (h : Record.get? r m.1 = Record.get? r' m.1) : Record.datum r m = Record.datum r' m := by
  obtain ⟨name, kind⟩ := m
  cases kind <;> simp only [Record.datum, Record.text, Record.count, Record.flag, h]

theorem Record.datum_of_not_mem {r : Record} {m : String × Kind} (h : m.1 ∉ r.map (·.1)) :
    Record.datum r m = m.2.zero := by
  obtain ⟨name, kind⟩ := m
  have hnone : Record.get? r name = none := Record.get?_of_not_mem h
  cases kind <;> simp only [Record.datum, Record.text, Record.count, Record.flag, hnone, Kind.zero]

/-- Without an entry the same is gathered, except for its name. -/
theorem without_of_gathers {kind? : String → Option Kind} {e : Entry} {es : List Entry} {r : Record}
    (h : Gathers kind? (e :: es) r) (hnodup : (r.map (·.1)).Nodup) :
    ∃ r', Gathers kind? es r' ∧ (r'.map (·.1)).Nodup ∧ e.name ∉ r'.map (·.1) ∧
      ∀ name ≠ e.name, Record.get? r' name = Record.get? r name := by
  cases h with
  | skip hnone hr =>
    refine ⟨r, hr, hnodup, ?_, fun _ _ => rfl⟩
    rw [names_of_gathers hr, List.mem_filter]
    simp [hnone]
  | @take _ _ r d _ _ hr =>
    obtain ⟨hnew, hnodup⟩ := List.nodup_cons.mp hnodup
    refine ⟨r, hr, hnodup, hnew, fun name hname => ?_⟩
    rw [Record.get?_cons, if_neg (Ne.symm hname)]

/-- Entries that lie in the order of the members are all taken. -/
theorem names_of_gathers_prefix {shape : Shape} (hmembers : (shape.members.map (·.1)).Nodup)
    {es : List Entry} {r : Record} (h : Gathers shape.kind? es r)
    (hnames : es.map (·.name) <+: shape.members.map (·.1)) :
    r.map (·.1) = es.map (·.name) := by
  rw [names_of_gathers h, List.filter_eq_self]
  intro name hname
  obtain ⟨m, hm, rfl⟩ := List.mem_map.mp (hnames.subset hname)
  rw [Shape.kind?_of_mem hmembers hm]
  rfl

/-- Nothing is missing among the first members if they are all of them. -/
theorem complete_iff_length {shape : Shape} (hmembers : (shape.members.map (·.1)).Nodup)
    {r : Record} (hnames : r.map (·.1) <+: shape.members.map (·.1)) :
    Complete shape r ↔ (shape.required = true → r.length = shape.members.length) := by
  have hshort := hnames.length_le
  rw [List.length_map, List.length_map] at hshort
  refine imp_congr_right fun _ => ⟨fun hall => ?_, fun hlength m hm => ?_⟩
  · have hsubset : shape.members.map (·.1) ⊆ r.map (·.1) := by
      intro name hname
      obtain ⟨m, hm, rfl⟩ := List.mem_map.mp hname
      obtain ⟨e, he, hsame⟩ := hall m hm
      exact List.mem_map.mpr ⟨e, he, hsame⟩
    have hlong := (hmembers.subperm hsubset).length_le
    rw [List.length_map, List.length_map] at hlong
    omega
  · have hsame := hnames.eq_of_length (by rw [List.length_map, List.length_map, hlength])
    exact List.mem_map.mp (hsame ▸ List.mem_map_of_mem hm)

/-- The record without what the members of a name hold. -/
def Record.cleared (r : Record) (name : String) : Record :=
  r.map fun e => (e.1, if e.1 = name then e.2.kind.zero else e.2)

theorem says_of_gathers {kind? : String → Option Kind} {es : List Entry} {r : Record}
    (h : Gathers kind? es r) {e : Entry} (he : e ∈ es) {kind : Kind}
    (hkind : kind? e.name = some kind) : ∃ d, d.kind = kind ∧ Says e.slot.value d := by
  induction h with
  | nil => cases he
  | skip hnone _ ih =>
    obtain rfl | he := List.mem_cons.mp he
    · rw [hnone] at hkind
      cases hkind
    · exact ih he
  | take hsome hd _ ih =>
    obtain rfl | he := List.mem_cons.mp he
    · exact ⟨_, Option.some.inj (hsome.symm.trans hkind), hd⟩
    · exact ih he

/-- Texts of which none is required. -/
abbrev optionalTexts (title : String) (names : List String) : Shape :=
  ⟨title, textMembers names, false⟩

theorem kind?_optionalTexts_eq_none {title name : String} {names : List String} :
    (optionalTexts title names).kind? name = none ↔ name ∉ names := by
  rw [Option.eq_none_iff_forall_ne_some]
  simp only [ne_eq, kind?_textMembers]
  exact ⟨fun h hmem => h .text ⟨hmem, rfl⟩, fun h _ hmem => h hmem.1⟩

theorem isSome_kind?_optionalTexts {title name : String} {names : List String} :
    ((optionalTexts title names).kind? name).isSome ↔ name ∈ names := by
  rw [← Option.ne_none_iff_isSome, ne_eq, kind?_optionalTexts_eq_none, not_not]

theorem exists_text_of_gathers {title : String} {names : List String} {es : List Entry}
    {r : Record} (hr : Gathers (optionalTexts title names).kind? es r) {e : Entry} (he : e ∈ es)
    (hname : e.name ∈ names) : ∃ s, Says e.slot.value (.text s) := by
  obtain ⟨d, hd, hsays⟩ := says_of_gathers hr he (kind?_textMembers.mpr ⟨hname, rfl⟩)
  cases d with
  | text s => exact ⟨s, hsays⟩
  | count => cases hd
  | flag => cases hd

/-- The texts of a message with some names are its own and those of the profile that it embeds. -/
structure Embedding {α : Type} (own names : List String)
    (ofParts : List (String × String) → Profile → α) (ofRecord : Record → α) : Prop where
  apart (a : Attribute) : a.wireName ∉ own
  known (name : String) : name ∈ names ↔ name ∈ own ∨ (attribute? name).isSome
  parts (r : Record) (texts : List (String × String)) (p : Profile)
    (htexts : ∀ name ∈ own, Record.text r name = (texts.lookup name).getD "")
    (hprofile : Profile.ofRecord r = p) : ofRecord r = ofParts texts p

section

variable {α : Type} {title : String} {own names : List String}
  {ofParts : List (String × String) → Profile → α} {ofRecord : Record → α}
  (hembeds : Embedding own names ofParts ofRecord) {m : Margins} {es : List Entry} {r : Record}
include hembeds

/-- A message with a profile that gathers a record takes each of its own texts once. -/
theorem nodup_own (hr : Gathers (optionalTexts title names).kind? es r)
    (hnodup : (r.map (·.1)).Nodup) : ((es.map (·.name)).filter own.contains).Nodup := by
  rw [names_of_gathers hr] at hnodup
  refine hnodup.sublist (List.monotone_filter_right _ fun name hname => ?_)
  exact isSome_kind?_optionalTexts.mpr
    ((hembeds.known name).mpr (.inl (List.contains_iff_mem.mp hname)))

/-- It takes each attribute of the profile once. -/
theorem nodup_attributes (hr : Gathers (optionalTexts title names).kind? es r)
    (hnodup : (r.map (·.1)).Nodup) : ((es.map (·.name)).filterMap attribute?).Nodup := by
  rw [names_of_gathers hr] at hnodup
  have hsame : (es.map (·.name)).filterMap attribute? = ((es.map (·.name)).filter fun name =>
      ((optionalTexts title names).kind? name).isSome).filterMap attribute? := by
    rw [List.filterMap_filter]
    refine congrArg (fun f => List.filterMap f _) (funext fun name => ?_)
    split
    · rfl
    · rename_i hunknown
      rw [isSome_kind?_optionalTexts, hembeds.known, not_or] at hunknown
      simpa using hunknown.2
  rw [hsame]
  refine hnodup.filterMap fun name name' a ha ha' => ?_
  rw [attribute?_eq_some.mp ha, attribute?_eq_some.mp ha']

/-- What a record gathers is enough for reading it with its profile, if the other values can be
kept. -/
theorem exists_readEmbedded_object (hr : Gathers (optionalTexts title names).kind? es r)
    (hnodup : (r.map (·.1)).Nodup)
    (hkept : ∀ e ∈ es, e.name ∉ names → Written true (maxDepth - 1) e.slot.value) :
    ∃ x, readEmbedded title own (m.object es).toList = .ok (x, m.trail) := by
  have htexts : ∀ e ∈ es, e.name ∈ names → ∃ s, Says e.slot.value (.text s) := fun e he hname =>
    exists_text_of_gathers hr he hname
  have hwritten : ∀ e ∈ es, Written true (maxDepth - 1) e.slot.value := by
    intro e he
    by_cases hname : e.name ∈ names
    · obtain ⟨s, hs⟩ := htexts e he hname
      exact hs.written.mono (Nat.zero_le _)
    · exact hkept e he hname
  rw [readEmbedded_object]
  exact exists_readEmbeddedMembers hembeds.apart m.blank_inner (length_lt_entries m es)
    (fun e he hname => htexts e he ((hembeds.known _).mpr hname)) (fun e he _ => hwritten e he)
    (List.forall_mem_nil _) (nodup_own hembeds hr hnodup) (nodup_attributes hembeds hr hnodup)

/-- Whatever text a message with a profile is read from, a record with its data is read from. -/
theorem exists_readRecord_of_readEmbedded {t : String} {v : α} (h : readWhole
      (fun cs => (readEmbedded title own cs).map fun x => (ofParts x.1.1 x.1.2, x.2)) t = .ok v) :
    ∃ r, readWhole (readRecord (optionalTexts title names)) t = .ok r ∧ v = ofRecord r := by
  obtain ⟨texts, p, rfl, hagree⟩ := readWhole_of_readEmbedded hembeds.apart h
  obtain ⟨r, hread, hown, hattributes⟩ := hagree title names fun name hname => by
    rw [List.mem_append, List.mem_map]
    refine ((hembeds.known name).mp hname).imp_right fun hattribute => ?_
    obtain ⟨a, ha⟩ := Option.isSome_iff_exists.mp hattribute
    exact ⟨a, a.mem_all, (attribute?_eq_some.mp ha).symm⟩
  refine ⟨r, hread, (hembeds.parts r texts p (fun name hname => ?_) ?_).symm⟩
  · exact hown name hname ((hembeds.known name).mpr (.inl hname))
  · refine Profile.ext_get fun a => ?_
    rw [Profile.ofRecord, Profile.get_ofFn]
    exact hattributes a ((hembeds.known _).mpr (.inr (by rw [attribute?_eq_some.mpr rfl]; rfl)))

/-- A message with a profile is read from an object if a record can gather the entries, and the
others can be kept. -/
theorem readWhole_embedded_object {v : α} : readWhole
      (fun cs => (readEmbedded title own cs).map fun x => (ofParts x.1.1 x.1.2, x.2)) (m.object es) =
        .ok v ↔
      ∃ r, Gathers (optionalTexts title names).kind? es r ∧ (r.map (·.1)).Nodup ∧
        (∀ e ∈ es, e.name ∉ names → Written true (maxDepth - 1) e.slot.value) ∧ v = ofRecord r := by
  constructor
  · intro h
    obtain ⟨r, hread, hv⟩ := exists_readRecord_of_readEmbedded hembeds h
    obtain ⟨hr, hnodup, -⟩ := readWhole_object.mp hread
    refine ⟨r, hr, hnodup, fun e he hname => ?_, hv⟩
    obtain ⟨rest, hembedded, -⟩ := readWhole_eq_ok.mp h
    obtain ⟨x, hx, -⟩ := ok_of_map hembedded
    rw [readEmbedded_object] at hx
    exact written_of_readEmbeddedMembers m.blank_inner hx e he fun hown =>
      hname ((hembeds.known _).mpr (.inl hown))
  · rintro ⟨r, hr, hnodup, hkept, rfl⟩
    obtain ⟨x, hx⟩ := exists_readEmbedded_object (m := m) hembeds hr hnodup hkept
    have hread : readWhole
        (fun cs => (readEmbedded title own cs).map fun x => (ofParts x.1.1 x.1.2, x.2))
        (m.object es) = .ok (ofParts x.1 x.2) := by
      refine readWhole_eq_ok.mpr ⟨m.trail, ?_, m.blank_trail⟩
      rw [hx]
      rfl
    -- The record that the message has its data from is the one that the entries give.
    obtain ⟨r', hread', hv⟩ := exists_readRecord_of_readEmbedded hembeds hread
    have hread'' : readWhole (readRecord (optionalTexts title names)) (m.object es) = .ok r :=
      readWhole_object.mpr ⟨hr, hnodup, complete_of_optional rfl r⟩
    rw [hread, hv, Except.ok.inj (hread'.symm.trans hread'')]

end

end Roster.Json
