import Roster.Text.Utf8
/-! # Texts survive their bytes

A character is read back from its bytes, whatever follows them. So the bytes of a text give the
text, and none of them is astray. -/
namespace Roster.Text

theorem charOfCode?_toNat (c : Char) : charOfCode? c.toNat = some c := by
  have hvalid : c.toNat.isValidChar := c.valid
  rw [charOfCode?, dif_pos hvalid]
  rfl

/-- The byte that carries six bits of a character. -/
def continuation (bits : Nat) : UInt8 := .ofNat (bits + 0x80)

theorem toNat_ofNat {n : Nat} (h : n < 256) : (UInt8.ofNat n).toNat = n := UInt8.toNat_ofNat_of_lt' h

theorem toNat_continuation {bits : Nat} (h : bits < 64) :
    (continuation bits).toNat = bits + 0x80 := toNat_ofNat (by omega)

/-- The second byte of a character is not overlong, no surrogate and not beyond the last plane. -/
theorem secondByteRange_holds {lead b : UInt8} (hb : 0x80 ≤ b.toNat ∧ b.toNat ≤ 0xBF)
    (hE0 : lead.toNat = 0xE0 → 0xA0 ≤ b.toNat) (hED : lead.toNat = 0xED → b.toNat ≤ 0x9F)
    (hF0 : lead.toNat = 0xF0 → 0x90 ≤ b.toNat) (hF4 : lead.toNat = 0xF4 → b.toNat ≤ 0x8F) :
    (secondByteRange lead).1 ≤ b.toNat ∧ b.toNat ≤ (secondByteRange lead).2 := by
  unfold secondByteRange
  split
  · exact ⟨hE0 ‹_›, hb.2⟩
  · exact ⟨hb.1, hED ‹_›⟩
  · exact ⟨hF0 ‹_›, hb.2⟩
  · exact ⟨hb.1, hF4 ‹_›⟩
  · exact hb

theorem foldl_continuation {xs : List Nat} (hxs : ∀ y ∈ xs, y < 64) (bits : Nat) :
    (xs.map continuation).foldl (fun code d => code * 64 + (d.toNat - 0x80)) bits =
      xs.foldl (fun code y => code * 64 + y) bits := by
  induction xs generalizing bits with
  | nil => rfl
  | cons x xs ih =>
    obtain ⟨hx, hxs⟩ := List.forall_mem_cons.mp hxs
    rw [List.map_cons, List.foldl_cons, List.foldl_cons, toNat_continuation hx, Nat.add_sub_cancel]
    exact ih hxs _

/-- A leading byte and as many others as it calls for are one character. -/
theorem firstChar_continuation {lead : UInt8} {bits x : Nat} {xs : List Nat}
    (hlead : leading? lead = some (xs.length + 1, bits)) (hx : x < 64) (hxs : ∀ y ∈ xs, y < 64)
    (hE0 : lead.toNat = 0xE0 → 0x20 ≤ x) (hED : lead.toNat = 0xED → x < 0x20)
    (hF0 : lead.toNat = 0xF0 → 0x10 ≤ x) (hF4 : lead.toNat = 0xF4 → x < 0x10) (rest : List UInt8) :
    firstChar lead ((x :: xs).map continuation ++ rest) =
      (charOfCode? ((x :: xs).foldl (fun code y => code * 64 + y) bits), xs.length + 1) := by
  have hb := toNat_continuation hx
  have hin : ¬ ((continuation x).toNat < (secondByteRange lead).1 ∨
      (secondByteRange lead).2 < (continuation x).toNat) := by
    have hrange := @secondByteRange_holds lead (continuation x) (by omega)
      (fun h => by have := hE0 h; omega) (fun h => by have := hED h; omega)
      (fun h => by have := hF0 h; omega) (fun h => by have := hF4 h; omega)
    omega
  have hall : ∀ d ∈ xs.map continuation, (0x80 ≤ d.toNat && d.toNat ≤ 0xBF) = true := by
    intro d hd
    obtain ⟨y, hy, rfl⟩ := List.mem_map.mp hd
    have hlt := hxs y hy
    rw [toNat_continuation hlt, Bool.and_eq_true, decide_eq_true_eq, decide_eq_true_eq]
    omega
  have hrun : ((xs.map continuation ++ rest).takeWhile fun d =>
      0x80 ≤ d.toNat && d.toNat ≤ 0xBF).take xs.length = xs.map continuation := by
    rw [List.takeWhile_append_of_pos hall]
    exact List.take_left' (List.length_map _)
  have hcode := foldl_continuation (List.forall_mem_cons.mpr ⟨hx, hxs⟩) bits
  simp only [firstChar, hlead, List.map_cons, List.cons_append, hin, if_false, Nat.add_sub_cancel,
    hrun, List.length_map, Nat.lt_irrefl]
  exact congrArg (fun code => (charOfCode? code, xs.length + 1)) hcode

section

variable {bits : Nat}

theorem leading?_two (hmin : 2 ≤ bits) (hmax : bits < 32) :
    leading? (.ofNat (bits + 0xC0)) = some (1, bits) := by
  rw [leading?, toNat_ofNat (by omega), if_neg (by omega), if_pos (by omega), Nat.add_sub_cancel]

theorem leading?_three (h : bits < 16) : leading? (.ofNat (bits + 0xE0)) = some (2, bits) := by
  rw [leading?, toNat_ofNat (by omega), if_neg (by omega), if_neg (by omega), if_pos (by omega),
    Nat.add_sub_cancel]

theorem leading?_four (h : bits < 5) : leading? (.ofNat (bits + 0xF0)) = some (3, bits) := by
  rw [leading?, toNat_ofNat (by omega), if_neg (by omega), if_neg (by omega), if_neg (by omega),
    if_pos (by omega), Nat.add_sub_cancel]

end

/-- A character is read back from its bytes. -/
theorem firstChar_encodeChar (c : Char) :
    ∃ lead tail, String.utf8EncodeChar c = lead :: tail ∧
      ∀ rest, firstChar lead (tail ++ rest) = (some c, tail.length) := by
  have hback := charOfCode?_toNat c
  have hvalid : c.toNat < 0xD800 ∨ 0xDFFF < c.toNat ∧ c.toNat < 0x110000 := c.valid
  have hencode : String.utf8EncodeChar c =
      if c.toNat ≤ 0x7F then [.ofNat c.toNat]
      else if c.toNat ≤ 0x7FF then
        .ofNat (c.toNat / 64 % 32 + 0xC0) :: [c.toNat % 64].map continuation
      else if c.toNat ≤ 0xFFFF then
        .ofNat (c.toNat / 4096 % 16 + 0xE0) :: [c.toNat / 64 % 64, c.toNat % 64].map continuation
      else .ofNat (c.toNat / 262144 % 8 + 0xF0) ::
        [c.toNat / 4096 % 64, c.toNat / 64 % 64, c.toNat % 64].map continuation := rfl
  rw [hencode]
  generalize c.toNat = v at hback hvalid
  -- By the number of bytes.
  split
  · have hlead : leading? (.ofNat v) = some (0, v) := by
      rw [leading?, toNat_ofNat (by omega), if_pos (by omega)]
    refine ⟨_, _, rfl, fun rest => ?_⟩
    simp only [firstChar, hlead, hback]
    rfl
  split
  · have hn : (UInt8.ofNat (v / 64 % 32 + 0xC0)).toNat = v / 64 % 32 + 0xC0 := toNat_ofNat (by omega)
    have hlead := leading?_two (by omega) (by omega : v / 64 % 32 < 32)
    have hcode : v / 64 % 32 * 64 + v % 64 = v := by omega
    refine ⟨_, _, rfl, fun rest => ?_⟩
    rw [firstChar_continuation hlead (by omega) (by simp) (by omega) (by omega) (by omega) (by omega),
      List.foldl_cons, hcode, List.foldl_nil, hback]
    rfl
  split
  · have hn : (UInt8.ofNat (v / 4096 % 16 + 0xE0)).toNat = v / 4096 % 16 + 0xE0 :=
      toNat_ofNat (by omega)
    have hlead := leading?_three (by omega : v / 4096 % 16 < 16)
    have hcode : (v / 4096 % 16 * 64 + v / 64 % 64) * 64 + v % 64 = v := by omega
    have hlast : ∀ y ∈ [v % 64], y < 64 := by simp; omega
    refine ⟨_, _, rfl, fun rest => ?_⟩
    rw [firstChar_continuation hlead (by omega) hlast (by omega) (by omega) (by omega) (by omega),
      List.foldl_cons, List.foldl_cons, hcode, List.foldl_nil, hback]
    rfl
  · have hn : (UInt8.ofNat (v / 262144 % 8 + 0xF0)).toNat = v / 262144 % 8 + 0xF0 :=
      toNat_ofNat (by omega)
    have hlead := leading?_four (by omega : v / 262144 % 8 < 5)
    have hcode : ((v / 262144 % 8 * 64 + v / 4096 % 64) * 64 + v / 64 % 64) * 64 + v % 64 = v := by
      omega
    have hlast : ∀ y ∈ [v / 64 % 64, v % 64], y < 64 := by simp; omega
    refine ⟨_, _, rfl, fun rest => ?_⟩
    rw [firstChar_continuation hlead (by omega) hlast (by omega) (by omega) (by omega) (by omega),
      List.foldl_cons, List.foldl_cons, List.foldl_cons, hcode, List.foldl_nil, hback]
    rfl

theorem toList_loop (b : ByteArray) (i : Nat) (seen : List UInt8) :
    ByteArray.toList.loop b i seen = seen.reverse ++ b.data.toList.drop i := by
  induction i, seen using ByteArray.toList.loop.induct b with
  | case1 i seen hi ih =>
    have hi' : i < b.data.toList.length := hi
    have hget : b.get! i = b.data.toList[i] := getElem!_pos b.data i hi
    rw [ByteArray.toList.loop, if_pos hi, ih, List.drop_eq_getElem_cons hi', hget,
      List.reverse_cons, List.append_assoc, List.singleton_append]
  | case2 i seen hi =>
    have hi' : b.data.toList.length ≤ i := Nat.le_of_not_lt hi
    rw [ByteArray.toList.loop, if_neg hi, List.drop_of_length_le hi', List.append_nil]

theorem encode_eq (s : String) : encode s = s.toList.flatMap String.utf8EncodeChar := by
  rw [encode, String.toUTF8, ← String.utf8Encode_toList, List.utf8Encode, ByteArray.toList,
    toList_loop, List.toList_data_toByteArray]
  rfl

theorem decodeOnto_encode (bad : Char) (seen cs : List Char) :
    decodeOnto bad seen (cs.flatMap String.utf8EncodeChar) = seen.reverse ++ cs := by
  induction cs generalizing seen with
  | nil => simp [decodeOnto]
  | cons c cs ih =>
    obtain ⟨lead, tail, hencode, hfirst⟩ := firstChar_encodeChar c
    rw [List.flatMap_cons, hencode, List.cons_append, decodeOnto]
    simp only [hfirst, Option.getD_some, List.drop_left, ih, List.reverse_cons, List.append_assoc,
      List.singleton_append]

theorem hasStrayByte_encode (cs : List Char) :
    hasStrayByte (cs.flatMap String.utf8EncodeChar) = false := by
  induction cs with
  | nil => simp [hasStrayByte]
  | cons c cs ih =>
    obtain ⟨lead, tail, hencode, hfirst⟩ := firstChar_encodeChar c
    rw [List.flatMap_cons, hencode, List.cons_append, hasStrayByte]
    simp only [hfirst, Option.isNone_some, Bool.false_eq_true, if_false, List.drop_left, ih]

theorem decodeWith_encode (bad : Char) (s : String) : decodeWith bad (encode s) = s.toList := by
  rw [decodeWith, encode_eq, decodeOnto_encode]
  exact List.nil_append _

theorem decode?_encode (s : String) : decode? (encode s) = some s.toList := by
  rw [decode?, decodeWith_encode, encode_eq, hasStrayByte_encode, if_neg Bool.false_ne_true]

/-- The characters of one byte are their own bytes. -/
theorem encode_ofList {cs : List Char} (h : ∀ c ∈ cs, c.toNat < 0x80) :
    encode (.ofList cs) = cs.map fun c => .ofNat c.toNat := by
  rw [encode_eq, String.toList_ofList]
  induction cs with
  | nil => rfl
  | cons c cs ih =>
    obtain ⟨hc, hcs⟩ := List.forall_mem_cons.mp h
    have hone : String.utf8EncodeChar c = [.ofNat c.toNat] := if_pos (Nat.le_of_lt_succ hc)
    rw [List.flatMap_cons, hone, List.map_cons, ih hcs, List.singleton_append]

end Roster.Text
