import Roster.Proofs.Nesting
import Roster.Proofs.Records
/-! # Embedded profiles and plain records agree

A record that embeds a profile keeps the members it does not know as values, a plain record passes
over them. Both go through the same members. Where the first finds nothing wrong, every name that
one of them knows stands at most once and with a text, and so both find the same texts. -/
namespace Roster.Json

/-- A value stands at the front of a text, after blanks: it can be passed over, and read if it is a
text. -/
structure Stands (v : Json) (cs rest : List Char) : Prop where
  passed : passValue cs = .ok rest
  text : ∀ s, v = .text s → readDatum .text cs = .ok (.text s, rest)

theorem map_ne_text {α : Type} {x : Except Fault α} {f : α → Json × List Char} {s : String}
    {rest : List Char} (hf : ∀ a, f a ≠ (.text s, rest)) : x.map f ≠ .ok (.text s, rest) := by
  intro h
  obtain ⟨a, -, heq⟩ := ok_of_map h
  exact hf a heq

theorem readItems_ne_text {fuel depth : Nat} {isFirst : Bool} {seen : List Json}
    {cs rest : List Char} {s : String} :
    readItems fuel depth isFirst seen cs ≠ .ok (.text s, rest) := by
  intro h
  induction fuel generalizing isFirst seen cs with
  | zero => cases h
  | succ fuel ih =>
    rw [readItems] at h
    split at h
    · cases h
    · exact map_ne_text (by simp) h
    · split at h
      · cases h
      · exact ih h

theorem readMembers_ne_text {fuel depth : Nat} {isFirst : Bool} {seen : List (String × Json)}
    {cs rest : List Char} {s : String} :
    readMembers fuel depth isFirst seen cs ≠ .ok (.text s, rest) := by
  intro h
  induction fuel generalizing isFirst seen cs with
  | zero => cases h
  | succ fuel ih =>
    rw [readMembers] at h
    split at h
    · cases h
    · exact map_ne_text (by simp) h
    · split at h
      · cases h
      · split at h
        · cases h
        · split at h
          · cases h
          · exact ih h

theorem readScalar_eq_text {cs rest : List Char} {s : String}
    (h : readScalar cs = .ok (.text s, rest)) :
    ∃ more, cs = '"' :: more ∧ readText more = .ok (s, rest) := by
  unfold readScalar at h
  split at h
  · exact absurd h (map_ne_text (by simp))
  · exact absurd h (map_ne_text (by simp))
  · exact absurd h (map_ne_text (by simp))
  · obtain ⟨r, hread, heq⟩ := ok_of_map h
    obtain ⟨hs, rfl⟩ := Prod.mk.inj heq
    exact ⟨_, rfl, Json.text.inj hs ▸ hread⟩
  · exact absurd h (map_ne_text (by simp))
  · split at h
    · exact absurd h (map_ne_text (by simp))
    · cases h
  · cases h

/-- A text is read alike as a value and as a member. -/
theorem readDatum_of_readValue {depth : Nat} {cs rest : List Char} {s : String}
    (h : readValue depth cs = .ok (.text s, rest)) : readDatum .text cs = .ok (.text s, rest) := by
  rw [readValue, readOn] at h
  split at h
  · split at h
    · cases h
    · exact absurd h readItems_ne_text
  · split at h
    · cases h
    · exact absurd h readMembers_ne_text
  · obtain ⟨more, heq, hread⟩ := readScalar_eq_text h
    simp [readDatum, heq, hread, Except.map]

theorem stands_of_readValue {depth : Nat} {cs rest : List Char} {v : Json}
    (h : readValue depth cs = .ok (v, rest)) : Stands v cs rest :=
  ⟨passValue_of_readValue h, fun _ hv => readDatum_of_readValue (hv ▸ h)⟩

theorem refuse_ne_ok {α : Type} (expected : String) (cs : List Char) (a : α) :
    refuse expected cs ≠ .ok a := by
  unfold refuse
  split <;> nofun

theorem readDatum_eq_text {cs rest : List Char} {s : String}
    (h : readDatum .text cs = .ok (.text s, rest)) :
    ∃ more, skipBlanks cs = '"' :: more ∧ readText more = .ok (s, rest) := by
  unfold readDatum at h
  split at h
  · cases h
  · rename_i more _ heq
    obtain ⟨r, hread, hr⟩ := ok_of_map h
    obtain ⟨hs, rfl⟩ := Prod.mk.inj hr
    exact ⟨more, heq, Datum.text.inj hs ▸ hread⟩
  · exact absurd h (refuse_ne_ok _ _ _)
  -- The members of other types are not read as texts.
  all_goals contradiction

theorem stands_of_readDatum {cs rest : List Char} {s : String}
    (h : readDatum .text cs = .ok (.text s, rest)) : Stands (.text s) cs rest := by
  refine ⟨?_, fun t ht => Json.text.inj ht ▸ h⟩
  obtain ⟨more, heq, hread⟩ := readDatum_eq_text h
  have hscalar : readScalar (skipBlanks cs) = .ok (.text s, rest) := by
    simp [readScalar, heq, hread, Except.map]
  exact (passable_scalar hscalar).passValue

/-- The members of an object that are left, and its closing bracket. -/
inductive Members : Bool → List Char → List (String × Json) → List Char → Prop
  | done {isFirst : Bool} {cs rest : List Char} (hnext : nextItem .object isFirst cs = .ok none)
      (hclosing : readClosing .object cs = .ok rest) : Members isFirst cs [] rest
  | member {isFirst : Bool} {cs item behind start more rest : List Char} {name : String} {v : Json}
      {ms : List (String × Json)} (hnext : nextItem .object isFirst cs = .ok (some item))
      (hname : readName item = .ok (name, behind)) (hcolon : readColon behind = .ok start)
      (hvalue : Stands v start more) (hmore : Members false more ms rest) :
      Members isFirst cs ((name, v) :: ms) rest

/-- A name stands at most once among the members, and then with a text. -/
def Gives (ms : List (String × Json)) (name : String) (text? : Option String) : Prop :=
  (ms.filter fun m => m.1 == name).map (·.2) = (text?.map Json.text).toList

section

variable {ms : List (String × Json)} {name other s : String} {v : Json} {text? : Option String}

theorem gives_nil (name : String) : Gives [] name none := rfl

theorem gives_cons_of_ne (h : other ≠ name) :
    Gives ((other, v) :: ms) name text? ↔ Gives ms name text? := by
  rw [Gives, List.filter_cons_of_neg (by simpa using h), Gives]

theorem gives_cons_text (h : Gives ms name none) : Gives ((name, .text s) :: ms) name (some s) := by
  rw [Gives, List.filter_cons_of_pos (by simp), List.map_cons, h]
  rfl

theorem Gives.of_cons (h : Gives ((name, v) :: ms) name text?) :
    ∃ s, text? = some s ∧ v = .text s ∧ Gives ms name none := by
  rw [Gives, List.filter_cons_of_pos (by simp), List.map_cons] at h
  cases text? with
  | none => cases h
  | some s =>
    obtain ⟨hv, hms⟩ := List.cons.inj h
    exact ⟨s, rfl, hv, hms⟩

theorem gives_filter {p : String × Json → Bool} (hp : ∀ v, p (name, v) = true) :
    Gives (ms.filter p) name text? ↔ Gives ms name text? := by
  have hsame : (ms.filter p).filter (fun m => m.1 == name) = ms.filter fun m => m.1 == name := by
    rw [List.filter_filter]
    refine List.filter_congr fun m _ => ?_
    cases hname : m.1 == name with
    | false => rfl
    | true =>
      have hkept := hp m.2
      rw [← beq_iff_eq.mp hname] at hkept
      simpa using hkept
  rw [Gives, hsame, Gives]

end

theorem get?_cons (name other : String) (d : Datum) (r : Record) :
    Record.get? ((other, d) :: r) name = if other = name then some d else Record.get? r name := by
  unfold Record.get?
  rw [List.find?_cons]
  split <;> rename_i h <;> simp_all

/-- A record of texts, none of which is required, is read from the members if each of its names
gives a text or nothing. -/
theorem Members.readShapeMembers {shape : Shape} (hoptional : shape.required = false)
    (htexts : ∀ {name kind}, shape.kind? name = some kind → kind = .text) {isFirst : Bool}
    {cs rest : List Char} {ms : List (String × Json)} (hms : Members isFirst cs ms rest)
    {fuel : Nat} (hfuel : ms.length < fuel) (seen : Record)
    (hgives : ∀ name, (shape.kind? name).isSome → ∃ text?, Gives ms name text? ∧
      (name ∈ seen.map (·.1) → text? = none)) :
    ∃ r, readShapeMembers shape fuel isFirst seen cs = .ok (seen ++ r, rest) ∧
      ∀ name text?, (shape.kind? name).isSome → Gives ms name text? →
        Record.get? r name = text?.map .text := by
  induction hms generalizing fuel seen with
  | done hnext hclosing =>
    obtain ⟨fuel, rfl⟩ : ∃ k, fuel = k + 1 := Nat.exists_eq_add_one.mpr hfuel
    refine ⟨[], ?_, fun name text? _ h => ?_⟩
    · simp [Json.readShapeMembers, hnext, hclosing, hoptional, Except.map]
    · cases text? with
      | none => rfl
      | some s => cases h
  | @member isFirst cs item behind start more rest name v ms hnext hname hcolon hvalue hmore ih =>
    obtain ⟨fuel, rfl⟩ : ∃ k, fuel = k + 1 := Nat.exists_eq_add_one.mpr (Nat.zero_lt_of_lt hfuel)
    have hfuel' : ms.length < fuel := Nat.lt_of_succ_lt_succ hfuel
    cases hkind : shape.kind? name with
    | none =>
      have hne {known : String} (hknown : (shape.kind? known).isSome) : name ≠ known := by
        rintro rfl
        rw [hkind] at hknown
        cases hknown
      obtain ⟨r, hread, hr⟩ := ih hfuel' seen fun known hknown => by
        obtain ⟨text?, htext, hseen⟩ := hgives known hknown
        exact ⟨text?, (gives_cons_of_ne (hne hknown)).mp htext, hseen⟩
      refine ⟨r, ?_, fun known text? hknown h => ?_⟩
      · have hpass : (readColon behind).bind passValue = .ok more := by
          rw [hcolon]
          exact hvalue.passed
        simp only [Json.readShapeMembers, hnext, hname, hkind, hpass, hread]
      · exact hr known text? hknown ((gives_cons_of_ne (hne hknown)).mp h)
    | some kind =>
      obtain rfl := htexts hkind
      obtain ⟨text?, htext, hseen⟩ := hgives name (by rw [hkind]; rfl)
      obtain ⟨s, rfl, rfl, hnone⟩ := htext.of_cons
      have hnew : name ∉ seen.map (·.1) := fun hm => by cases hseen hm
      obtain ⟨r, hread, hr⟩ := ih hfuel' (seen ++ [(name, .text s)]) fun known hknown => by
        by_cases hsame : name = known
        · exact ⟨none, hsame ▸ hnone, fun _ => rfl⟩
        · obtain ⟨text?, htext, hseen⟩ := hgives known hknown
          refine ⟨text?, (gives_cons_of_ne hsame).mp htext, fun hm => hseen ?_⟩
          simpa [Ne.symm hsame] using hm
      refine ⟨(name, .text s) :: r, ?_, fun known text? hknown h => ?_⟩
      · have hvalue : (readColon behind).bind (readDatum .text) = .ok (.text s, more) := by
          rw [hcolon]
          exact hvalue.text s rfl
        simp only [Json.readShapeMembers, hnext, hname, hkind, hvalue, hread,
          any_name_eq_false hnew]
        simp
      · rw [get?_cons]
        split
        · rename_i hsame
          subst hsame
          obtain ⟨s', rfl, hs, -⟩ := h.of_cons
          exact congrArg (fun s => some (Datum.text s)) (Json.text.inj hs)
        · rename_i hother
          exact hr known text? hknown ((gives_cons_of_ne hother).mp h)

theorem attribute?_eq_some {name : String} {a : Attribute} :
    attribute? name = some a ↔ name = a.wireName := by
  constructor
  · intro h
    unfold attribute? at h
    have hname := List.find?_some h
    exact (eq_of_beq hname).symm
  · rintro rfl
    cases a <;> rfl

theorem wireName_injective {a b : Attribute} (h : a.wireName = b.wireName) : a = b :=
  Option.some.inj ((attribute?_eq_some.mpr rfl).symm.trans (attribute?_eq_some.mpr h))

/-- The value of an attribute among those found. -/
def foundOf (found : List (Attribute × String)) (a : Attribute) : Option String :=
  (found.find? fun e => e.1 == a).map (·.2)

theorem foundOf_append (seen more : List (Attribute × String)) (a : Attribute) :
    foundOf (seen ++ more) a = (foundOf seen a).or (foundOf more a) := by
  simp only [foundOf, List.find?_append, Option.map_or]

theorem foundOf_singleton (a b : Attribute) (s : String) :
    foundOf [(b, s)] a = if b = a then some s else none := by
  by_cases h : b = a <;> simp [foundOf, h]

theorem foundOf_of_not_mem {seen : List (Attribute × String)} {a : Attribute}
    (h : a ∉ seen.map (·.1)) : foundOf seen a = none := by
  rw [foundOf, Option.map_eq_none_iff, List.find?_eq_none]
  intro e he heq
  exact h (List.mem_map.mpr ⟨e, he, beq_iff_eq.mp heq⟩)

/-- The attributes are picked if each of their names gives a text or nothing, and none is seen
already. -/
theorem pickAttributes_eq_ok {seen found : List (Attribute × String)} {ms : List (String × Json)}
    (h : pickAttributes seen ms = .ok found) (a : Attribute) :
    ∃ text?, Gives ms a.wireName text? ∧ (a ∈ seen.map (·.1) → text? = none) ∧
      foundOf found a = (foundOf seen a).or text? := by
  induction ms generalizing seen with
  | nil =>
    cases h
    exact ⟨none, gives_nil _, fun _ => rfl, Option.or_none.symm⟩
  | cons m ms ih =>
    obtain ⟨name, v⟩ := m
    rw [pickAttributes] at h
    split at h
    · rename_i hnone
      have hother : name ≠ a.wireName := fun heq => by
        rw [attribute?_eq_some.mpr heq] at hnone
        cases hnone
      obtain ⟨text?, htext, hseen, hfound⟩ := ih h
      exact ⟨text?, (gives_cons_of_ne hother).mpr htext, hseen, hfound⟩
    · rename_i b hb
      obtain rfl : name = b.wireName := attribute?_eq_some.mp hb
      split at h
      · cases h
      · rename_i hnew
        have hnew : b ∉ seen.map (·.1) := by simpa using hnew
        split at h
        · rename_i s
          obtain ⟨text?, htext, hseen, hfound⟩ := ih h
          rw [foundOf_append, foundOf_singleton] at hfound
          by_cases hsame : b = a
          · subst hsame
            obtain rfl : text? = none := hseen (by simp)
            refine ⟨some s, gives_cons_text htext, fun hm => absurd hm hnew, ?_⟩
            rw [hfound, if_pos rfl, foundOf_of_not_mem hnew]
            rfl
          · have hother : b.wireName ≠ a.wireName := fun heq => hsame (wireName_injective heq)
            refine ⟨text?, (gives_cons_of_ne hother).mpr htext, fun hm => hseen ?_, ?_⟩
            · rw [List.map_append]
              exact List.mem_append_left _ hm
            · rw [hfound, if_neg hsame, Option.or_none]
        all_goals cases h

/-- What is read of an object that embeds a profile are texts of its members. -/
theorem members_of_readEmbedded {own : List String} {fuel : Nat} {isFirst : Bool}
    {seen texts : List (String × String)} {kept : List (String × Json)} {cs rest : List Char}
    {p : Profile}
    (h : readEmbeddedMembers own fuel isFirst seen kept cs = .ok ((texts, p), rest)) :
    ∃ ms found, Members isFirst cs ms rest ∧ ms.length < fuel ∧
      pickAttributes [] (kept.reverse ++ ms.filter fun m => !own.contains m.1) = .ok found ∧
      p = profileOf found ∧
      ∀ name ∈ own, ∃ text?, Gives ms name text? ∧ (name ∈ seen.map (·.1) → text? = none) ∧
        texts.lookup name = (seen.lookup name).or text? := by
  induction fuel generalizing isFirst seen kept cs with
  | zero => cases h
  | succ fuel ih =>
    rw [readEmbeddedMembers] at h
    split at h
    · cases h
    · rename_i hnext
      split at h
      · cases h
      · rename_i found hfound
        obtain ⟨_, hclosing, heq⟩ := ok_of_map h
        obtain ⟨hparts, rfl⟩ := Prod.mk.inj heq
        obtain ⟨rfl, rfl⟩ := Prod.mk.inj hparts
        refine ⟨[], found, .done hnext hclosing, Nat.succ_pos _, by simpa using hfound, rfl, ?_⟩
        exact fun name _ => ⟨none, gives_nil _, fun _ => rfl, Option.or_none.symm⟩
    · rename_i item hnext
      split at h
      · cases h
      · rename_i name behind hname
        split at h
        · rename_i hown
          split at h
          · cases h
          · rename_i hnew
            have hnew : name ∉ seen.map (·.1) := by simpa using hnew
            split at h
            · cases h
            · rename_i s more hvalue
              obtain ⟨start, hcolon, hvalue⟩ := ok_of_bind hvalue
              obtain ⟨ms, found, hms, hlength, hfound, hp, htexts⟩ := ih h
              refine ⟨(name, .text s) :: ms, found,
                .member hnext hname hcolon (stands_of_readDatum hvalue) hms,
                Nat.succ_lt_succ hlength, ?_, hp, fun known hknown => ?_⟩
              · rw [List.filter_cons_of_neg (by simpa using hown)]
                exact hfound
              · obtain ⟨text?, htext, hseen, hlookup⟩ := htexts known hknown
                rw [List.lookup_append, List.lookup_singleton] at hlookup
                by_cases hsame : name = known
                · subst hsame
                  obtain rfl : text? = none := hseen (by simp)
                  refine ⟨some s, gives_cons_text htext, fun hm => absurd hm hnew, ?_⟩
                  simpa using hlookup
                · refine ⟨text?, (gives_cons_of_ne hsame).mpr htext, fun hm => hseen ?_, ?_⟩
                  · rw [List.map_append]
                    exact List.mem_append_left _ hm
                  · simpa [Ne.symm hsame] using hlookup
            · cases h
        · rename_i hother
          split at h
          · cases h
          · rename_i v more hvalue
            obtain ⟨start, hcolon, hvalue⟩ := ok_of_bind hvalue
            obtain ⟨ms, found, hms, hlength, hfound, hp, htexts⟩ := ih h
            refine ⟨(name, v) :: ms, found,
              .member hnext hname hcolon (stands_of_readValue hvalue) hms,
              Nat.succ_lt_succ hlength, ?_, hp, fun known hknown => ?_⟩
            · rw [List.filter_cons_of_pos (by simpa using hother)]
              simpa using hfound
            · have hne : name ≠ known := fun heq => hother (by simpa [heq] using hknown)
              obtain ⟨text?, htext, hrest⟩ := htexts known hknown
              exact ⟨text?, (gives_cons_of_ne hne).mpr htext, hrest⟩

theorem get_profileOf (found : List (Attribute × String)) (a : Attribute) :
    (profileOf found).get a = (foundOf found a).getD "" := by
  rw [profileOf, Profile.get_ofFn, foundOf]

/-- A record of texts, none of which is required and all of which an embedding record knows, is read
from the same object. It has the texts that the other has. -/
theorem readRecord_of_readEmbedded {shape : Shape} (hoptional : shape.required = false)
    (htexts : ∀ {name kind}, shape.kind? name = some kind → kind = .text) {title : String}
    {own : List String} (hknown : ∀ name, (shape.kind? name).isSome →
      name ∈ own ++ Attribute.all.map Attribute.wireName)
    (hother : ∀ a : Attribute, a.wireName ∉ own) {cs rest : List Char}
    {texts : List (String × String)} {p : Profile}
    (h : readEmbedded title own cs = .ok ((texts, p), rest)) :
    ∃ r, readRecord shape cs = .ok (r, rest) ∧
      (∀ name ∈ own, (shape.kind? name).isSome → Record.text r name = (texts.lookup name).getD "") ∧
      ∀ a : Attribute, (shape.kind? a.wireName).isSome → Record.text r a.wireName = p.get a := by
  unfold readEmbedded at h
  split at h
  · cases h
  · rename_i object hobject
    obtain ⟨ms, found, hms, hlength, hfound, rfl, hown⟩ := members_of_readEmbedded h
    rw [List.reverse_nil, List.nil_append] at hfound
    have hprofile (a : Attribute) :
        ∃ text?, Gives ms a.wireName text? ∧ foundOf found a = text? := by
      obtain ⟨text?, htext, -, heq⟩ := pickAttributes_eq_ok hfound a
      refine ⟨text?, (gives_filter fun v => ?_).mp htext, heq⟩
      simpa using hother a
    obtain ⟨r, hread, hr⟩ := hms.readShapeMembers hoptional htexts hlength [] fun name hname => by
      rcases List.mem_append.mp (hknown name hname) with hmem | hmem
      · obtain ⟨text?, htext, -⟩ := hown name hmem
        exact ⟨text?, htext, by simp⟩
      · obtain ⟨a, -, rfl⟩ := List.mem_map.mp hmem
        obtain ⟨text?, htext, -⟩ := hprofile a
        exact ⟨text?, htext, by simp⟩
    refine ⟨r, ?_, fun name hmem hname => ?_, fun a ha => ?_⟩
    · simp only [readRecord, hobject]
      exact hread
    · obtain ⟨text?, htext, -, hlookup⟩ := hown name hmem
      rw [Record.text, hr name text? hname htext, hlookup]
      cases text? <;> rfl
    · obtain ⟨text?, htext, heq⟩ := hprofile a
      rw [Record.text, hr a.wireName text? ha htext, get_profileOf, heq]
      cases text? <;> rfl
  · exact absurd h (refuse_ne_ok _ _ _)

theorem kind?_textMembers {title name : String} {names : List String} {required : Bool}
    {kind : Kind} :
    Shape.kind? ⟨title, textMembers names, required⟩ name = some kind ↔
      name ∈ names ∧ kind = .text := by
  simp only [Shape.kind?, textMembers, List.find?_map, Option.map_map, Option.map_eq_some_iff]
  constructor
  · rintro ⟨other, hfind, rfl⟩
    have hname := List.find?_some hfind
    exact ⟨beq_iff_eq.mp hname ▸ List.mem_of_find?_eq_some hfind, rfl⟩
  · rintro ⟨hmem, rfl⟩
    obtain ⟨other, hfind⟩ := Option.isSome_iff_exists.mp
      (List.find?_isSome (p := (fun m : String × Kind => m.1 == name) ∘ fun n => (n, Kind.text)).mpr
        ⟨name, hmem, beq_self_eq_true name⟩)
    exact ⟨other, hfind, rfl⟩

/-- Of a text that a record with an embedded profile is read from, a record of some of its texts is
read, and has them alike. -/
theorem readWhole_of_readEmbedded {α : Type} {ofParts : List (String × String) → Profile → α}
    {title : String} {own : List String} (hother : ∀ a : Attribute, a.wireName ∉ own) {t : String}
    {v : α} (h : readWhole
      (fun cs => (readEmbedded title own cs).map fun r => (ofParts r.1.1 r.1.2, r.2)) t = .ok v) :
    ∃ texts p, v = ofParts texts p ∧ ∀ (title : String) (names : List String),
      (∀ name ∈ names, name ∈ own ++ Attribute.all.map Attribute.wireName) →
      ∃ r, readWhole (readRecord ⟨title, textMembers names, false⟩) t = .ok r ∧
        (∀ name ∈ own, name ∈ names → Record.text r name = (texts.lookup name).getD "") ∧
        ∀ a : Attribute, a.wireName ∈ names → Record.text r a.wireName = p.get a := by
  unfold readWhole at h
  split at h
  · cases h
  · rename_i hread
    obtain ⟨⟨⟨texts, p⟩, rest⟩, hembedded, heq⟩ := ok_of_map hread
    obtain ⟨rfl, rfl⟩ := Prod.mk.inj heq
    obtain ⟨_, hend, rfl⟩ := ok_of_map h
    refine ⟨texts, p, rfl, fun title names hknown => ?_⟩
    have hsome {name : String} :
        (Shape.kind? ⟨title, textMembers names, false⟩ name).isSome ↔ name ∈ names := by
      rw [Option.isSome_iff_exists]
      simp only [kind?_textMembers, exists_and_left, exists_eq, and_true]
    have htexts {name : String} {kind : Kind}
        (h : Shape.kind? ⟨title, textMembers names, false⟩ name = some kind) : kind = .text :=
      (kind?_textMembers.mp h).2
    obtain ⟨r, hrecord, hown, hprofile⟩ := readRecord_of_readEmbedded rfl htexts
      (fun name hname => hknown name (hsome.mp hname)) hother hembedded
    refine ⟨r, ?_, fun name hm hname => hown name hm (hsome.mpr hname),
      fun a ha => hprofile a (hsome.mpr ha)⟩
    simp only [readWhole, hrecord, hend, Except.map]

end Roster.Json

namespace Roster
open Json

/-- Whatever text an update is read from, the envelope of the update, its profile and the request
to delete the account that it names are read from the same text; and whatever text a new account is
read from, so is its profile. The first readers keep the values of all members that they do not
know and take the profile from these, the others pass over whatever they do not know. -/
theorem decoders_agree (t : String) :
    (∀ r, UpdateUser.decode t = .ok r →
      Envelope.decode t = .ok r.envelope ∧ Profile.decode t = .ok r.profile ∧
        DeleteUser.decode t = .ok ⟨r.id⟩) ∧
    (∀ r, CreateUser.decode t = .ok r → Profile.decode t = .ok r.profile) := by
  let names := Attribute.all.map Attribute.wireName
  have hprofile {r : Record} {p : Profile}
      (hr : ∀ a : Attribute, a.wireName ∈ names → r.text a.wireName = p.get a) :
      Profile.ofRecord r = p := by
    refine Profile.ext_get fun a => ?_
    rw [Profile.ofRecord, Profile.get_ofFn]
    exact hr a (List.mem_map_of_mem a.mem_all)
  refine ⟨fun r h => ?_, fun r h => ?_⟩
  · have hother : ∀ a : Attribute, a.wireName ∉ UpdateUser.ownMembers := by
      intro a
      cases a <;> decide
    obtain ⟨texts, p, rfl, hagree⟩ := readWhole_of_readEmbedded hother h
    refine ⟨?_, ?_, ?_⟩
    · obtain ⟨r, hread, hown, hattributes⟩ := hagree "UserEnvelope" viewMembers (by decide)
      have henvelope : Envelope.ofRecord r = (UpdateUser.ofParts texts p).envelope := by
        simp only [Envelope.ofRecord, UpdateUser.envelope, UpdateUser.ofParts, Envelope.mk.injEq]
        exact ⟨hown "id" (by decide) (by decide), hattributes .firstName (by decide),
          hattributes .lastName (by decide), hattributes .nickname (by decide),
          hattributes .email (by decide), hattributes .country (by decide),
          hown "createdAt" (by decide) (by decide), hown "updatedAt" (by decide) (by decide)⟩
      rw [Envelope.decode, Envelope.shape, hread]
      exact congrArg Except.ok henvelope
    · obtain ⟨r, hread, -, hattributes⟩ := hagree "UserFields" names (by decide)
      rw [Profile.decode, Profile.shape, hread]
      exact congrArg Except.ok (hprofile hattributes)
    · obtain ⟨r, hread, hown, -⟩ := hagree "DeleteUserRequest" ["id"] (by decide)
      rw [DeleteUser.decode, DeleteUser.shape, hread]
      exact congrArg (fun id => Except.ok (DeleteUser.mk id)) (hown "id" (by decide) (by decide))
  · have hother : ∀ a : Attribute, a.wireName ∉ CreateUser.ownMembers := by
      intro a
      cases a <;> decide
    obtain ⟨texts, p, rfl, hagree⟩ := readWhole_of_readEmbedded hother h
    obtain ⟨r, hread, -, hattributes⟩ := hagree "UserFields" names (by decide)
    rw [Profile.decode, Profile.shape, hread]
    exact congrArg Except.ok (hprofile hattributes)

/-- Members that neither knows may be repeated and nested, and a pair of code units may stand for a
character. The name of a member may be escaped as well as its text. -/
theorem decoders_agree_of_escapes :
    let t := "\x7b\"x\":[\x7b\"y\":[]\x7d,1e5,\"\\ud83d\\ude00\"], \"\\u0069d\":\"7\", \"x\":null,
      \"email\":\"a\\u0040b\", \"password\":\"p\", \"passwordConfirm\":\"p\", \"x\":-0.0\x7d"
    let p : Profile := { password := "p", email := "a@b" }
    let r : UpdateUser := { id := "7", profile := p }
    let created : CreateUser := { profile := p, passwordConfirm := "p" }
    UpdateUser.decode t = .ok r ∧ CreateUser.decode t = .ok created ∧
      Envelope.decode t = .ok { id := "7", email := "a@b" } ∧ Profile.decode t = .ok p ∧
      DeleteUser.decode t = .ok ⟨"7"⟩ := by
  intro t p r created
  have hok {α : Type} {x : Except Fault α} {a : α} (h : x.toOption = some a) : x = .ok a := by
    cases x with
    | error _ => cases h
    | ok _ => exact congrArg Except.ok (Option.some.inj h)
  have hupdate : UpdateUser.decode t = .ok r := hok (by decide +kernel)
  have hcreate : CreateUser.decode t = .ok created := hok (by decide +kernel)
  obtain ⟨henvelope, -, hdelete⟩ := (decoders_agree t).1 r hupdate
  exact ⟨hupdate, hcreate, henvelope, (decoders_agree t).2 created hcreate, hdelete⟩

end Roster
