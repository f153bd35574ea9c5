import Roster.Proofs.Gathering
/-! # The order of members does not matter, nor do unknown ones

Whatever a message is decoded from is the text of an object with some entries, or of a list. The
decoders look at the data of the entries that they know and at nothing else: neither at the order of
the entries, nor at the blanks between them, nor at the other entries. -/
namespace Roster
open Json

/-- The messages that are read from objects. -/
inductive Form
  | profile | createUser | createdUser | listUsers | userView | updateUser | deleteUser | status
  | envelope
  deriving DecidableEq, Repr

namespace Form

def Value : Form → Type
  | profile => Profile
  | createUser => CreateUser
  | createdUser => CreatedUser
  | listUsers => ListUsers
  | userView => UserView
  | updateUser => UpdateUser
  | deleteUser => DeleteUser
  | status => Status
  | envelope => Envelope

def decode : (form : Form) → String → Except Fault form.Value
  | profile => Profile.decode
  | createUser => CreateUser.decode
  | createdUser => CreatedUser.decode
  | listUsers => ListUsers.decode
  | userView => UserView.decode
  | updateUser => UpdateUser.decode
  | deleteUser => DeleteUser.decode
  | status => Status.decode
  | envelope => Envelope.decode

/-- The members, in the order of the fields. Those of an embedded profile stand in its place. -/
def shape : Form → Shape
  | profile => Profile.shape
  | createUser =>
    optionalTexts "CreateUserRequest" (Attribute.all.map Attribute.wireName ++ ["passwordConfirm"])
  | createdUser => CreatedUser.shape
  | listUsers => ListUsers.shape
  | userView => UserView.shape
  | updateUser =>
    optionalTexts "UpdateUserRequest"
      ("id" :: Attribute.all.map Attribute.wireName ++ ["createdAt", "updatedAt"])
  | deleteUser => DeleteUser.shape
  | status => Status.shape
  | envelope => Envelope.shape

/-- The message embeds a profile. -/
def embeds : Form → Bool
  | createUser | updateUser => true
  | _ => false

def ofRecord : (form : Form) → Record → form.Value
  | profile => Profile.ofRecord
  | createUser => fun r => ⟨Profile.ofRecord r, r.text "passwordConfirm"⟩
  | createdUser => CreatedUser.ofRecord
  | listUsers => ListUsers.ofRecord
  | userView => UserView.ofRecord
  | updateUser => fun r =>
    ⟨r.text "id", Profile.ofRecord r, r.text "createdAt", r.text "updatedAt"⟩
  | deleteUser => DeleteUser.ofRecord
  | status => Status.ofRecord
  | envelope => Envelope.ofRecord

/-- All fields of a message, with the names of their members. -/
def fields : (form : Form) → form.Value → Record
  | profile => Profile.toRecord
  | createUser => CreateUser.toRecord
  | createdUser => CreatedUser.toRecord
  | listUsers => ListUsers.toRecord
  | userView => UserView.toRecord
  | updateUser => UpdateUser.toRecord
  | deleteUser => DeleteUser.toRecord
  | status => Status.toRecord
  | envelope => fun e => ("id", .text e.id) :: e.optional

theorem nodup_members (form : Form) : (form.shape.members.map (·.1)).Nodup := by
  cases form <;> decide

theorem ofRecord_fields (form : Form) (v : form.Value) : form.ofRecord (form.fields v) = v := by
  cases form <;> rfl

theorem fields_ofRecord (form : Form) (r : Record) :
    form.fields (form.ofRecord r) = form.shape.members.map fun m => (m.1, Record.datum r m) := by
  cases form <;> rfl

theorem isSome_attribute? {name : String} :
    (attribute? name).isSome ↔ name ∈ Attribute.all.map Attribute.wireName := by
  simp [attribute?]

/-- The values that the message does not know can be kept, if it keeps them. -/
def Keeps (form : Form) (es : List Entry) : Prop :=
  form.embeds = true → ∀ e ∈ es, form.shape.kind? e.name = none →
    Written true (maxDepth - 1) e.slot.value

theorem optional_of_embeds (form : Form) : form.embeds = true → form.shape.required = false := by
  cases form <;> decide

theorem decode_plain {form : Form} (h : form.embeds = false) (t : String) :
    form.decode t = (readWhole (readRecord form.shape) t).map form.ofRecord := by
  cases form with
  | createUser => cases h
  | updateUser => cases h
  | _ => rfl

theorem embedding_createUser :
    Embedding CreateUser.ownMembers (Attribute.all.map Attribute.wireName ++ ["passwordConfirm"])
      CreateUser.ofParts (ofRecord createUser) where
  apart a := by cases a <;> decide
  known name := by rw [isSome_attribute?, List.mem_append, CreateUser.ownMembers, or_comm]
  parts r texts p htexts hprofile := by
    simp only [ofRecord, hprofile, htexts "passwordConfirm" (by decide), CreateUser.ofParts]

theorem embedding_updateUser :
    Embedding UpdateUser.ownMembers
      ("id" :: Attribute.all.map Attribute.wireName ++ ["createdAt", "updatedAt"])
      UpdateUser.ofParts (ofRecord updateUser) where
  apart a := by cases a <;> decide
  known name := by
    simp only [isSome_attribute?, List.cons_append, List.mem_cons, List.mem_append,
      UpdateUser.ownMembers]
    tauto
  parts r texts p htexts hprofile := by
    simp only [ofRecord, hprofile, htexts "id" (by decide), htexts "createdAt" (by decide),
      htexts "updatedAt" (by decide), UpdateUser.ofParts]

/-- Whatever text a message is read from, a record with its fields is read from. -/
theorem exists_record {form : Form} {t : String} {v : form.Value} (h : form.decode t = .ok v) :
    ∃ r, readWhole (readRecord form.shape) t = .ok r ∧ v = form.ofRecord r := by
  cases hembeds : form.embeds with
  | false =>
    rw [decode_plain hembeds] at h
    obtain ⟨r, hread, rfl⟩ := ok_of_map h
    exact ⟨r, hread, rfl⟩
  | true =>
    cases form with
    | createUser => exact exists_readRecord_of_readEmbedded embedding_createUser h
    | updateUser => exact exists_readRecord_of_readEmbedded embedding_updateUser h
    | _ => cases hembeds

section

variable {m : Margins} {es : List Entry}

/-- A message is read from an object if a record can gather the entries and has all that it needs,
and whatever else the object has can be kept if need be. -/
theorem decode_object {form : Form} {v : form.Value} : form.decode (m.object es) = .ok v ↔
    ∃ r, Gathers form.shape.kind? es r ∧ (r.map (·.1)).Nodup ∧ Complete form.shape r ∧
      form.Keeps es ∧ v = form.ofRecord r := by
  cases hembeds : form.embeds with
  | false =>
    rw [decode_plain hembeds]
    constructor
    · intro h
      obtain ⟨r, hread, rfl⟩ := ok_of_map h
      obtain ⟨hr, hnodup, hcomplete⟩ := readWhole_object.mp hread
      refine ⟨r, hr, hnodup, hcomplete, fun hkeeps => ?_, rfl⟩
      rw [hembeds] at hkeeps
      cases hkeeps
    · rintro ⟨r, hr, hnodup, hcomplete, -, rfl⟩
      rw [readWhole_object.mpr ⟨hr, hnodup, hcomplete⟩]
      rfl
  | true =>
    have hcomplete (r : Record) : Complete form.shape r :=
      complete_of_optional (form.optional_of_embeds hembeds) r
    have hkeeps : form.Keeps es ↔ ∀ e ∈ es, form.shape.kind? e.name = none →
        Written true (maxDepth - 1) e.slot.value := forall_prop_of_true hembeds
    simp only [hkeeps, hcomplete, true_and]
    cases form with
    | createUser =>
      simp only [shape, kind?_optionalTexts_eq_none]
      exact readWhole_embedded_object embedding_createUser
    | updateUser =>
      simp only [shape, kind?_optionalTexts_eq_none]
      exact readWhole_embedded_object embedding_updateUser
    | _ => cases hembeds

end

theorem ofRecord_congr {form : Form} {r r' : Record}
    (h : ∀ name, Record.get? r name = Record.get? r' name) :
    form.ofRecord r = form.ofRecord r' := by
  rw [← form.ofRecord_fields (form.ofRecord r), ← form.ofRecord_fields (form.ofRecord r'),
    form.fields_ofRecord, form.fields_ofRecord]
  simp only [Record.datum_congr (h _)]

variable {form : Form} {m m' : Margins} {es es' : List Entry} {v : form.Value}

/-- Members in another order, and such as the message does not know, make no difference. -/
theorem decode_perm {extra : List Entry} (h : form.decode (m.object es) = .ok v)
    (hextra : ∀ e ∈ extra, form.shape.kind? e.name = none ∧
      ∃ levels < maxDepth, Written true levels e.slot.value)
    (hperm : (extra ++ es).Perm es') : form.decode (m'.object es') = .ok v := by
  obtain ⟨r, hr, hnodup, hcomplete, hkeeps, rfl⟩ := decode_object.mp h
  obtain ⟨r', hr', hperm'⟩ :=
    gathers_perm hperm (gathers_append_unknown (fun e he => (hextra e he).1) hr)
  refine decode_object.mpr ⟨r', hr', (hperm'.map _).nodup_iff.mp hnodup, ?_, ?_, ?_⟩
  · intro hrequired d hd
    obtain ⟨e, he, hname⟩ := hcomplete hrequired d hd
    exact ⟨e, hperm'.mem_iff.mp he, hname⟩
  · intro hembeds e he hunknown
    obtain he | he := List.mem_append.mp (hperm.mem_iff.mpr he)
    · obtain ⟨-, levels, hlevels, hwritten⟩ := hextra e he
      exact hwritten.mono (Nat.le_sub_one_of_lt hlevels)
    · exact hkeeps hembeds e he hunknown
  · exact ofRecord_congr (Record.get?_perm hnodup hperm')

/-- A member that is left out of a message that does not require it is as if empty. -/
theorem decode_without {e : Entry} (hoptional : form.shape.required = false)
    (h : form.decode (m.object es) = .ok v) (hperm : es.Perm (e :: es')) :
    ∃ v', form.decode (m'.object es') = .ok v' ∧
      form.fields v' = Record.cleared (form.fields v) e.name := by
  obtain ⟨r, hr, hnodup, -, hkeeps, rfl⟩ := decode_object.mp h
  -- With the entry in front, what is gathered without it has every other name as before.
  obtain ⟨r₁, hr₁, hperm₁⟩ := gathers_perm hperm hr
  obtain ⟨r', hr', hnodup', hnew, hothers⟩ :=
    without_of_gathers hr₁ ((hperm₁.map _).nodup_iff.mp hnodup)
  have hkeeps' : form.Keeps es' := fun hembeds d hd =>
    hkeeps hembeds d (hperm.mem_iff.mpr (List.mem_cons_of_mem e hd))
  refine ⟨_, decode_object.mpr ⟨r', hr', hnodup', complete_of_optional hoptional r', hkeeps', rfl⟩,
    ?_⟩
  rw [form.fields_ofRecord, form.fields_ofRecord, Record.cleared, List.map_map]
  refine List.map_congr_left fun member _ => Prod.ext rfl ?_
  show Record.datum r' member =
    if member.1 = e.name then (Record.datum r member).kind.zero else Record.datum r member
  split
  · rename_i hname
    rw [Record.kind_datum, Record.datum_of_not_mem (hname ▸ hnew)]
  · rename_i hname
    refine Record.datum_congr ?_
    rw [hothers _ hname, Record.get?_perm hnodup hperm₁]

/-- No member that the message knows may stand twice. -/
theorem decode_repeated {name : String} (hknown : (form.shape.kind? name).isSome)
    (htwice : 1 < (es.map (·.name)).count name) : form.decode (m.object es) ≠ .ok v := by
  intro h
  obtain ⟨r, hr, hnodup, -⟩ := decode_object.mp h
  rw [names_of_gathers hr] at hnodup
  have hcount := List.nodup_iff_count_le_one.mp hnodup name
  have hall : _ = (es.map (·.name)).count name :=
    List.count_filter (p := fun name => (form.shape.kind? name).isSome) hknown
  omega

/-- A message without a profile is read from the values of its first members alike. -/
theorem decode_list (hplain : form.embeds = false)
    (hnames : es.map (·.name) <+: form.shape.members.map (·.1)) :
    form.decode (m.list (es.map (·.slot))) = .ok v ↔ form.decode (m'.object es) = .ok v := by
  have hmembers := form.nodup_members
  rw [decode_plain hplain, decode_plain hplain, map_eq_ok_iff, map_eq_ok_iff]
  refine exists_congr fun r => and_congr_left' ?_
  rw [readWhole_list hmembers hnames, readWhole_object]
  refine and_congr_right fun hr => ?_
  have hsame := names_of_gathers_prefix hmembers hr hnames
  have hlength : r.length = es.length := by simpa using congrArg List.length hsame
  rw [complete_iff_length hmembers (hsame ▸ hnames), hlength, hsame,
    and_iff_right (hmembers.sublist hnames.sublist)]

/-- A text that a message is read from and that opens an object is the text of one. For every such
object, the message is read from any other with the same members in any order and with such members
more as the message does not know; what is left out is read as empty if it is not required; and a
member that is known must not be repeated. If the message embeds no profile, the list of the values
of its first members is read as the object with these members is. -/
theorem members_in_any_order (form : Form) :
    (∀ t v, form.decode t = .ok v → (∃ more, skipBlanks t.toList = '{' :: more) →
      ∃ (m : Margins) (es : List Entry), t = m.object es) ∧
    (∀ (m : Margins) (es : List Entry) (v : form.Value), form.decode (m.object es) = .ok v →
      (∀ (m' : Margins) (extra es' : List Entry), (extra ++ es).Perm es' →
        (∀ e ∈ extra, form.shape.kind? e.name = none ∧
          ∃ levels < maxDepth, Written true levels e.slot.value) →
        form.decode (m'.object es') = .ok v) ∧
      (form.shape.required = false →
        ∀ (m' : Margins) (e : Entry) (es' : List Entry), es.Perm (e :: es') →
          ∃ v', form.decode (m'.object es') = .ok v' ∧
            form.fields v' = Record.cleared (form.fields v) e.name)) ∧
    (∀ (m : Margins) (es : List Entry) (name : String), (form.shape.kind? name).isSome →
      1 < (es.map (·.name)).count name → ∀ v, form.decode (m.object es) ≠ .ok v) ∧
    (form.embeds = false → ∀ (m m' : Margins) (es : List Entry) (v : form.Value),
      es.map (·.name) <+: form.shape.members.map (·.1) →
        (form.decode (m.list (es.map (·.slot))) = .ok v ↔ form.decode (m'.object es) = .ok v)) := by
  refine ⟨fun t v h hopen => ?_, fun m es v h => ⟨?_, ?_⟩, fun m es name hknown htwice v => ?_,
    fun hplain m m' es v hnames => ?_⟩
  · obtain ⟨r, hread, -⟩ := exists_record h
    exact exists_object hopen hread
  · exact fun m' extra es' hperm hextra => decode_perm h hextra hperm
  · exact fun hoptional m' e es' hperm => decode_without hoptional h hperm
  · exact decode_repeated hknown htwice
  · exact decode_list hplain hnames

/-- An update keeps the values that it does not know until the object ends, and does not mind
them. -/
theorem members_in_any_order_of_update :
    let v : UpdateUser := { id := "7", profile := { email := "a@b" } }
    UpdateUser.decode "\x7b\"email\":\"a@b\",\"id\":\"7\"\x7d" = .ok v ∧
      UpdateUser.decode
        "\x7b\"x\":[null,\x7b\x7d],\"id\":\"7\",\"x\":true,\"email\":\"a@b\"\x7d" = .ok v := by
  intro v
  have htext (cs : List Char) (h : cs.all isPlain = true) :
      Loose ('"' :: (cs ++ ['"'])) := ⟨0, .text (marks_of_spelling (spelling_plain h))⟩
  have hword : Written true 1 "true".toList := .word (by decide)
  have hlist : Written true 2 "[null,\x7b\x7d]".toList := by
    have hobject : Written true 1 "\x7b\x7d".toList :=
      @Written.object true 0 [] [] blank_nil (List.forall_mem_nil _) (List.forall_mem_nil _)
    have hnull : Written true 1 "null".toList := .word (by decide)
    let slots : List Json.Slot := [{ value := "null".toList }, { value := "\x7b\x7d".toList }]
    have hslots : ∀ s ∈ slots, Written true 1 s.value := by simpa [slots] using ⟨hnull, hobject⟩
    exact .list blank_nil hslots
  let email : Entry :=
    .plain "email" "\"a@b\"".toList (by decide) (htext "a@b".toList (by decide))
  let id : Entry := .plain "id" "\"7\"".toList (by decide) (htext "7".toList (by decide))
  let many : Entry := .plain "x" "[null,\x7b\x7d]".toList (by decide) ⟨2, hlist.relax⟩
  let one : Entry := .plain "x" "true".toList (by decide) ⟨1, hword.relax⟩
  have hdecode : UpdateUser.decode "\x7b\"email\":\"a@b\",\"id\":\"7\"\x7d" = .ok v :=
    ok_of_toOption (by decide +kernel)
  have hrearranged : UpdateUser.decode (Margins.object {} [many, id, one, email]) = .ok v := by
    refine ((members_in_any_order updateUser).2.1 {} [email, id] v hdecode).1 {} [many, one]
      [many, id, one, email] ?_ ?_
    · exact .cons many (.trans (.cons one (.swap id email [])) (.swap id one [email]))
    · have hunknown : (shape updateUser).kind? "x" = none := by decide
      intro e he
      obtain rfl | rfl : e = many ∨ e = one := by simpa using he
      · exact ⟨hunknown, 2, by decide, hlist⟩
      · exact ⟨hunknown, 1, by decide, hword⟩
  exact ⟨hdecode, hrearranged⟩

end Form

end Roster
