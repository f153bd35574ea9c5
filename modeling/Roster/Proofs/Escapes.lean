import Roster.Http.Form
import Roster.Http.Uri
import Roster.Proofs.Characters
/-! # Escaped texts are read back

A text may be escaped in many ways: every byte may be written as two hexadecimal digits, and some
characters may stand for themselves. In a query a plus sign stands for a space. Reading undoes all
of them. -/
namespace Roster.Http
open Text

/-- The characters stand for the bytes: plain ones for themselves, and two digits behind a percent
sign for any byte. -/
inductive Escapes (plain : Char → Bool) : List UInt8 → List Char → Prop
  | nil : Escapes plain [] []
  | plain {c : Char} {bs : List UInt8} {cs : List Char} (hc : plain c = true)
      (hrest : Escapes plain bs cs) : Escapes plain (.ofNat c.toNat :: bs) (c :: cs)
  | escaped {b : UInt8} {x y : Char} {bs : List UInt8} {cs : List Char}
      (hx : digitValue? x = some (b.toNat / 16)) (hy : digitValue? y = some (b.toNat % 16))
      (hrest : Escapes plain bs cs) : Escapes plain (b :: bs) ('%' :: x :: y :: cs)

/-- The characters that may stand for themselves in a segment of a path. -/
def isSegmentChar (c : Char) : Bool := c.toNat < 0x80 && Uri.isPathChar c && c != '%' && c != '/'

/-- The characters that may stand for themselves in the key or the value of a field of a query. -/
def isFieldChar (c : Char) : Bool :=
  c.toNat < 0x80 && Uri.isQueryChar c && c != '%' && c != '&' && c != '=' && c != '+'

/-- The characters are a segment of a path that stands for a text. -/
def EscapesSegment (s : String) (cs : List Char) : Prop := Escapes isSegmentChar (encode s) cs

/-- The characters are a key or a value of a query that stands for a text. -/
def EscapesField (s : String) (cs : List Char) : Prop :=
  ∃ spaced, Escapes (fun c => c == ' ' || isFieldChar c) (encode s) spaced ∧
    cs = spaced.map fun c => if c = ' ' then '+' else c

/-- The digits of every base up to sixteen. -/
def hexDigits : List Char := "0123456789abcdefABCDEF".toList

theorem mem_hexDigits {c : Char} {n : Nat} (h : digitValue? c = some n) : c ∈ hexDigits := by
  have hrange : c.toNat < 0x80 ∧ (0x30 ≤ c.toNat ∧ c.toNat ≤ 0x39 ∨ 0x61 ≤ c.toNat ∧ c.toNat ≤ 0x66 ∨
      0x41 ≤ c.toNat ∧ c.toNat ≤ 0x46) := by
    unfold digitValue? at h
    dsimp only at h
    split at h
    · omega
    split at h
    · omega
    split at h
    · omega
    · cases h
  have hall : ∀ m < 0x80, (0x30 ≤ m ∧ m ≤ 0x39 ∨ 0x61 ≤ m ∧ m ≤ 0x66 ∨ 0x41 ≤ m ∧ m ≤ 0x46) →
      Char.ofNat m ∈ hexDigits := by decide
  have hc := hall c.toNat hrange.1 hrange.2
  rwa [Char.ofNat_toNat] at hc

theorem unescape_cons {a : UInt8} (h : a ≠ 0x25) (rest : List UInt8) :
    unescape (a :: rest) = a :: unescape rest := by
  match rest with
  | [] => rfl
  | [_] => rfl
  | _ :: _ :: _ => rw [unescape, if_neg h]

section

variable {plain : Char → Bool} {bs : List UInt8} {cs : List Char}

/-- Whatever holds of plain characters, percent signs and digits holds throughout. -/
theorem Escapes.forall_mem {P : Char → Prop} [DecidablePred P] (h : Escapes plain bs cs)
    (hplain : ∀ c, plain c = true → P c) (hpercent : P '%')
    (hdigits : hexDigits.all (fun c => P c) = true) : ∀ c ∈ cs, P c := by
  have hdigit {c : Char} {n : Nat} (hc : digitValue? c = some n) : P c :=
    of_decide_eq_true (List.all_eq_true.mp hdigits c (mem_hexDigits hc))
  induction h with
  | nil => exact fun c hc => absurd hc List.not_mem_nil
  | plain hc hrest ih => exact List.forall_mem_cons.mpr ⟨hplain _ hc, ih⟩
  | escaped hx hy hrest ih =>
    exact List.forall_mem_cons.mpr ⟨hpercent, List.forall_mem_cons.mpr
      ⟨hdigit hx, List.forall_mem_cons.mpr ⟨hdigit hy, ih⟩⟩⟩

theorem Escapes.unescape (h : Escapes plain bs cs)
    (hplain : ∀ c, plain c = true → c.toNat < 0x80 ∧ c ≠ '%') :
    Http.unescape (cs.map fun c => .ofNat c.toNat) = bs := by
  have hback {c : Char} (hc : c.toNat < 0x80) : Char.ofNat (UInt8.ofNat c.toNat).toNat = c := by
    rw [toNat_ofNat (by omega), Char.ofNat_toNat]
  have hdigit {c : Char} {n : Nat} (hc : digitValue? c = some n) : c.toNat < 0x80 := by
    have hall : hexDigits.all (·.toNat < 0x80) = true := by decide
    exact of_decide_eq_true (List.all_eq_true.mp hall c (mem_hexDigits hc))
  induction h with
  | nil => rfl
  | @plain c bs cs hc hrest ih =>
    obtain ⟨hlt, hne⟩ := hplain c hc
    have hbyte : UInt8.ofNat c.toNat ≠ 0x25 := by
      intro heq
      have hc := hback hlt
      rw [heq] at hc
      exact hne hc.symm
    rw [List.map_cons, unescape_cons hbyte, ih]
  | @escaped b x y bs cs hx hy hrest ih =>
    have hpercent : UInt8.ofNat '%'.toNat = 0x25 := rfl
    have hvalue : UInt8.ofNat (16 * (b.toNat / 16) + b.toNat % 16) = b := by
      rw [Nat.div_add_mod, UInt8.ofNat_toNat]
    rw [List.map_cons, List.map_cons, List.map_cons, Http.unescape, if_pos hpercent,
      hback (hdigit hx), hback (hdigit hy)]
    simp only [hx, hy, hvalue, ih]

end

/-- All bytes can be escaped, whatever characters are plain. -/
theorem exists_escapes (plain : Char → Bool) (bs : List UInt8) : ∃ cs, Escapes plain bs cs := by
  have hdigit (n : Nat) (hn : n < 16) : ∃ c, digitValue? c = some n := by
    have hall : ∀ n < 16, hexDigits.any (digitValue? · == some n) = true := by decide
    obtain ⟨c, -, hc⟩ := List.any_eq_true.mp (hall n hn)
    exact ⟨c, beq_iff_eq.mp hc⟩
  induction bs with
  | nil => exact ⟨[], .nil⟩
  | cons b bs ih =>
    obtain ⟨cs, hcs⟩ := ih
    have hb := b.toNat_lt
    obtain ⟨x, hx⟩ := hdigit (b.toNat / 16) (by omega)
    obtain ⟨y, hy⟩ := hdigit (b.toNat % 16) (by omega)
    exact ⟨'%' :: x :: y :: cs, .escaped hx hy hcs⟩

theorem EscapesSegment.unescape {s : String} {cs : List Char} (h : EscapesSegment s cs) :
    unescapeSegment? (.ofList cs) = some s := by
  have hplain (c : Char) (hc : isSegmentChar c = true) : c.toNat < 0x80 ∧ c ≠ '%' := by
    simp only [isSegmentChar, Bool.and_eq_true, decide_eq_true_eq, bne_iff_ne] at hc
    exact ⟨hc.1.1.1, hc.1.2⟩
  have hascii := Escapes.forall_mem (P := fun c => c.toNat < 0x80) h (fun c hc => (hplain c hc).1)
    (by decide) (by decide)
  rw [unescapeSegment?, encode_ofList hascii, Escapes.unescape h hplain, decode?_encode,
    Option.map_some, String.ofList_toList]

theorem EscapesField.unescape {s : String} {cs : List Char} (h : EscapesField s cs) :
    unescapeField cs = s := by
  obtain ⟨spaced, h, rfl⟩ := h
  have hplain (c : Char) (hc : (c == ' ' || isFieldChar c) = true) :
      c.toNat < 0x80 ∧ c ≠ '%' ∧ c ≠ '+' := by
    rcases Bool.or_eq_true_iff.mp hc with hc | hc
    · rw [beq_iff_eq.mp hc]
      decide
    · simp only [isFieldChar, Bool.and_eq_true, decide_eq_true_eq, bne_iff_ne] at hc
      exact ⟨hc.1.1.1.1.1, hc.1.1.1.2, hc.2⟩
  have hascii := h.forall_mem (P := fun c => c.toNat < 0x80) (fun c hc => (hplain c hc).1)
    (by decide) (by decide)
  have hplus := h.forall_mem (P := fun c => c ≠ '+') (fun c hc => (hplain c hc).2.2)
    (by decide) (by decide)
  have hspaced : (spaced.map fun c => if c = ' ' then '+' else c).map
      (fun c => if c = '+' then ' ' else c) = spaced := by
    rw [List.map_map]
    refine (List.map_congr_left fun c hc => ?_).trans (List.map_id spaced)
    by_cases hspace : c = ' '
    · simp [hspace]
    · simp [hspace, hplus c hc]
  rw [unescapeField, hspaced, encode_ofList hascii,
    Escapes.unescape h fun c hc => ⟨(hplain c hc).1, (hplain c hc).2.1⟩, decodeWith_encode,
    String.ofList_toList]

end Roster.Http
