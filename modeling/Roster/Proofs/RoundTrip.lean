import Roster.Proofs.Records
/-! # Messages survive the wire

Every message is read back from its text. A record that is written whole has the members of its
shape; an envelope leaves out the empty ones, which reading supplies again. -/
namespace Roster
open Json

/-- A record with all members of its shape fits it. -/
theorem Json.Fits.of_eq {shape : Shape} {r : Record}
    (h : (r.map fun e => (e.1, e.2.kind)) = shape.members) : Fits shape r where
  sublist := h ▸ .refl _
  complete _ m hm := by
    rw [← h] at hm
    obtain ⟨e, he, rfl⟩ := List.mem_map.mp hm
    exact ⟨e, he, rfl⟩

/-- The text of a record gives the record. -/
theorem readWhole_record {shape : Shape} {r : Record} (h : Fits shape r)
    (hnodup : (shape.members.map (·.1)).Nodup) :
    readWhole (readRecord shape) (Record.toJson r).render = .ok r := by
  have hread := readRecord_write h hnodup []
  rw [List.append_nil] at hread
  exact readWhole_render hread

theorem Profile.decode_render (p : Profile) : decode p.toJson.render = .ok p := by
  have hfits : Fits shape p.toRecord := .of_eq rfl
  have hback : ofRecord p.toRecord = p := Profile.ext_get fun a => by cases a <;> rfl
  rw [decode, toJson, readWhole_record hfits (by decide)]
  exact congrArg Except.ok hback

theorem CreatedUser.decode_render (r : CreatedUser) : decode r.toJson.render = .ok r := by
  have hfits : Fits shape r.toRecord := .of_eq rfl
  rw [decode, toJson, readWhole_record hfits (by decide)]
  rfl

theorem ListUsers.decode_render (r : ListUsers) : decode r.toJson.render = .ok r := by
  have hfits : Fits shape r.toRecord := .of_eq rfl
  rw [decode, toJson, readWhole_record hfits (by decide)]
  rfl

theorem UserView.decode_render (v : UserView) : decode v.toJson.render = .ok v := by
  have hfits : Fits shape v.toRecord := .of_eq rfl
  rw [decode, toJson, readWhole_record hfits (by decide)]
  rfl

theorem DeleteUser.decode_render (r : DeleteUser) : decode r.toJson.render = .ok r := by
  have hfits : Fits shape r.toRecord := .of_eq rfl
  rw [decode, toJson, readWhole_record hfits (by decide)]
  rfl

theorem Status.decode_render (s : Status) : decode s.toJson.render = .ok s := by
  have hfits : Fits shape s.toRecord := .of_eq rfl
  rw [decode, toJson, readWhole_record hfits (by decide)]
  rfl

/-- A list of views is a list of records, whatever its length. -/
theorem UserView.decodeList_render (vs : List UserView) :
    decodeList (listToJson vs).render = .ok vs := by
  have hfits : ∀ r ∈ vs.map toRecord, Fits shape r := by
    intro r hr
    obtain ⟨v, -, rfl⟩ := List.mem_map.mp hr
    exact .of_eq rfl
  have hjson : listToJson vs = .list ((vs.map toRecord).map Record.toJson) := by
    rw [listToJson, List.map_map]
    rfl
  have hread := readRecords_write (by decide) hfits []
  rw [List.append_nil] at hread
  have hback : (vs.map toRecord).map ofRecord = vs := by
    rw [List.map_map]
    exact List.map_id vs
  rw [decodeList, hjson, readWhole_render hread]
  exact congrArg Except.ok hback

/-- The members of a profile, each with its text. -/
def Profile.members (p : Profile) : List (String × String) :=
  Attribute.all.map fun a => (a.wireName, p.get a)

/-- A record whose other members are those of a profile is read back as its own texts and the
profile. -/
theorem readEmbedded_profile {own : List String} {r : List (String × String)} {p : Profile}
    (name : String) (hnodup : ((r.filter fun e => own.contains e.1).map (·.1)).Nodup)
    (hothers : (r.filter fun e => !own.contains e.1) = p.members) :
    readEmbedded name own (write (Record.toJson (r.map textMember))) =
      .ok ((r.filter fun e => own.contains e.1, p), []) := by
  have hfound : pickAttributes []
      ((r.filter fun e => !own.contains e.1).map fun e => (e.1, .text e.2)) =
      .ok (Attribute.all.map fun a => (a, p.get a)) := by
    rw [hothers]
    exact pickAttributes_profile p
  have hread := readEmbedded_write name hnodup hfound []
  rwa [List.append_nil, profileOf_all] at hread

theorem CreateUser.decode_render (r : CreateUser) : decode r.toJson.render = .ok r := by
  let texts := r.profile.members ++ [("passwordConfirm", r.passwordConfirm)]
  have hown : texts.filter (fun e => ownMembers.contains e.1) =
      [("passwordConfirm", r.passwordConfirm)] := rfl
  have hread := readEmbedded_profile "CreateUserRequest" (hown ▸ List.nodup_singleton _)
    (rfl : texts.filter (fun e => !ownMembers.contains e.1) = r.profile.members)
  refine readWhole_render (?_ : read (write (Record.toJson (texts.map textMember))) = .ok (r, []))
  rw [read, hread, hown]
  rfl

theorem UpdateUser.decode_render (r : UpdateUser) : decode r.toJson.render = .ok r := by
  let texts := ("id", r.id) :: r.profile.members ++
    [("createdAt", r.createdAt), ("updatedAt", r.updatedAt)]
  have hown : texts.filter (fun e => ownMembers.contains e.1) =
      [("id", r.id), ("createdAt", r.createdAt), ("updatedAt", r.updatedAt)] := rfl
  have hnodup : ((texts.filter fun e => ownMembers.contains e.1).map (·.1)).Nodup := by
    show ["id", "createdAt", "updatedAt"].Nodup
    decide
  have hread := readEmbedded_profile "UpdateUserRequest" hnodup
    (rfl : texts.filter (fun e => !ownMembers.contains e.1) = r.profile.members)
  refine readWhole_render (?_ : read (write (Record.toJson (texts.map textMember))) = .ok (r, []))
  rw [read, hread, hown]
  rfl

theorem Json.Record.get?_cons (m : String × Datum) (r : Record) (name : String) :
    Record.get? (m :: r) name = if m.1 = name then some m.2 else Record.get? r name := by
  by_cases h : m.1 = name
  · simp [Record.get?, h]
  · simp [Record.get?, h]

theorem Json.Record.get?_of_not_mem {r : Record} {name : String} (h : name ∉ r.map (·.1)) :
    Record.get? r name = none := by
  simp only [Record.get?, Option.map_eq_none_iff, List.find?_eq_none]
  intro m hm heq
  exact h (List.mem_map.mpr ⟨m, hm, by simpa using heq⟩)

theorem Json.Record.text_of_not_mem {r : Record} {name : String} (h : name ∉ r.map (·.1)) :
    Record.text r name = "" := by
  rw [Record.text, get?_of_not_mem h]

/-- A text that is left out is read as the empty text that it was. -/
theorem Json.Record.text_filter {r : Record} (hnodup : (r.map (·.1)).Nodup) (name : String) :
    Record.text (r.filter fun m => m.2 != .text "") name = Record.text r name := by
  induction r with
  | nil => rfl
  | cons m r ih =>
    obtain ⟨hnew, hnodup⟩ := List.nodup_cons.mp hnodup
    have hrest := ih hnodup
    by_cases hname : m.1 = name
    · by_cases hempty : m.2 = .text ""
      · have hdropped : (m :: r).filter (fun m => m.2 != .text "") =
            r.filter fun m => m.2 != .text "" := List.filter_cons_of_neg (by simp [hempty])
        rw [hdropped, hrest, text_of_not_mem (hname ▸ hnew)]
        simp [Record.text, get?_cons, hname, hempty]
      · have hkept : (m :: r).filter (fun m => m.2 != .text "") =
            m :: r.filter fun m => m.2 != .text "" := List.filter_cons_of_pos (by simp [hempty])
        rw [hkept]
        simp [Record.text, get?_cons, hname]
    · have htext (r : Record) : Record.text (m :: r) name = Record.text r name := by
        simp [Record.text, get?_cons, hname]
      rw [List.filter_cons, htext]
      split
      · rw [htext, hrest]
      · exact hrest

namespace Envelope

/-- All members but the identifier. -/
def optional (e : Envelope) : Record :=
  [("firstName", .text e.firstName), ("lastName", .text e.lastName), ("nickname", .text e.nickname),
    ("email", .text e.email), ("country", .text e.country), ("createdAt", .text e.createdAt),
    ("updatedAt", .text e.updatedAt)]

theorem toRecord_eq (e : Envelope) :
    e.toRecord = ("id", .text e.id) :: e.optional.filter fun m => m.2 != .text "" := rfl

theorem fits_toRecord (e : Envelope) : Fits shape e.toRecord where
  sublist := by
    have hall : ((("id", Datum.text e.id) :: e.optional).map fun m => (m.1, m.2.kind)) =
        shape.members := rfl
    rw [← hall, toRecord_eq]
    exact (List.filter_sublist.cons_cons _).map _
  complete h := by cases h

theorem ofRecord_toRecord (e : Envelope) : ofRecord e.toRecord = e := by
  have htext (name : String) :
      Record.text e.toRecord name = Record.text (("id", .text e.id) :: e.optional) name := by
    have hnodup : (e.optional.map (·.1)).Nodup := by
      show ["firstName", "lastName", "nickname", "email", "country", "createdAt", "updatedAt"].Nodup
      decide
    have hfilter := Record.text_filter hnodup name
    rw [toRecord_eq]
    by_cases hid : "id" = name
    · simp [Record.text, Record.get?_cons, hid]
    · simpa [Record.text, Record.get?_cons, hid] using hfilter
  simp only [ofRecord, htext]
  rfl

theorem decode_encode (e : Envelope) : decode e.encode = .ok e := by
  rw [decode, encode, toJson, readWhole_record e.fits_toRecord (by decide)]
  exact congrArg Except.ok e.ofRecord_toRecord

end Envelope

/-- Every message of every shape is read back from its text. -/
theorem messages_round_trip :
    (∀ p : Profile, Profile.decode p.toJson.render = .ok p) ∧
    (∀ r : CreateUser, CreateUser.decode r.toJson.render = .ok r) ∧
    (∀ r : CreatedUser, CreatedUser.decode r.toJson.render = .ok r) ∧
    (∀ r : ListUsers, ListUsers.decode r.toJson.render = .ok r) ∧
    (∀ v : UserView, UserView.decode v.toJson.render = .ok v) ∧
    (∀ vs : List UserView, UserView.decodeList (UserView.listToJson vs).render = .ok vs) ∧
    (∀ r : UpdateUser, UpdateUser.decode r.toJson.render = .ok r) ∧
    (∀ r : DeleteUser, DeleteUser.decode r.toJson.render = .ok r) ∧
    (∀ s : Status, Status.decode s.toJson.render = .ok s) ∧
    (∀ e : Envelope, Envelope.decode e.encode = .ok e) :=
  ⟨Profile.decode_render, CreateUser.decode_render, CreatedUser.decode_render,
    ListUsers.decode_render, UserView.decode_render, UserView.decodeList_render,
    UpdateUser.decode_render, DeleteUser.decode_render, Status.decode_render,
    Envelope.decode_encode⟩

end Roster
