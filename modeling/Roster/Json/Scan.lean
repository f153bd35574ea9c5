import Roster.Json.Fault
import Roster.Text.Digits
/-! # The lexemes of JSON

A lexeme is either read, and then gives its value, or passed over, and then only its grammar
counts. Each function takes the text from the lexeme on and gives the text behind it. -/
namespace Roster.Json
open Text

def skipBlanks (cs : List Char) : List Char :=
  cs.dropWhile fun c => c == ' ' || c == '\n' || c == '\t' || c == '\r'

def readWord (word : List Char) (cs : List Char) : Except Fault (List Char) :=
  match word, cs with
  | [], cs => .ok cs
  | _ :: _, [] => .error ⟨.endOfValue, [], false⟩
  | w :: word, c :: cs => if w = c then readWord word cs else .error ⟨.expectedIdent, cs, false⟩

/-- Four hexadecimal digits. The text must have four bytes left for them. -/
def readHex (cs : List Char) : Except Fault (Nat × List Char) :=
  if byteLength (cs.take 4) < 4 then .error ⟨.endOfString, [], false⟩
  else
    match (cs.take 4).mapM digitValue? with
    | some [a, b, c, d] => .ok (((a * 16 + b) * 16 + c) * 16 + d, cs.drop 4)
    | _ => .error ⟨.invalidEscape, cs.drop 4, false⟩

theorem readHex_length {cs rest : List Char} {n : Nat} (h : readHex cs = .ok (n, rest)) :
    rest.length ≤ cs.length := by
  unfold readHex at h
  split at h
  · simp at h
  · split at h
    · simp only [Except.ok.injEq, Prod.mk.injEq] at h
      rw [← h.2, List.length_drop]
      omega
    · simp at h

def charOfUnit (n : Nat) : Char := (charOfCode? n).getD '\x00'

/-- The character that follows `\u`: one code unit, or two that form a pair. -/
def readUnits (cs : List Char) : Except Fault (Char × List Char) :=
  match readHex cs with
  | .error f => .error f
  | .ok (n, rest) =>
    if 0xDC00 ≤ n ∧ n ≤ 0xDFFF then .error ⟨.loneSurrogate, rest, false⟩
    else if n < 0xD800 ∨ 0xDBFF < n then .ok (charOfUnit n, rest)
    else
      match rest with
      | [] => .error ⟨.endOfString, [], false⟩
      | '\\' :: [] => .error ⟨.endOfString, [], false⟩
      | '\\' :: 'u' :: more =>
        match readHex more with
        | .error f => .error f
        | .ok (m, more) =>
          if m < 0xDC00 ∨ 0xDFFF < m then .error ⟨.loneSurrogate, more, false⟩
          else .ok (charOfUnit ((n - 0xD800) * 1024 + (m - 0xDC00) + 0x10000), more)
      | '\\' :: _ :: more => .error ⟨.unfinishedSurrogate, more, false⟩
      | _ :: more => .error ⟨.unfinishedSurrogate, more, false⟩

theorem readUnits_length {cs rest : List Char} {c : Char} (h : readUnits cs = .ok (c, rest)) :
    rest.length ≤ cs.length := by
  unfold readUnits at h
  split at h
  · simp at h
  · rename_i n rest' hn
    have hl := readHex_length hn
    split at h
    · simp at h
    · split at h
      · simp only [Except.ok.injEq, Prod.mk.injEq] at h
        rw [← h.2]; exact hl
      · split at h <;> try simp at h
        rename_i more
        split at h
        · simp at h
        · rename_i m more' hm
          have hl' := readHex_length hm
          split at h
          · simp at h
          · simp only [Except.ok.injEq, Prod.mk.injEq] at h
            rw [← h.2]
            simp only [List.length_cons] at hl
            omega

def shortEscape? : Char → Option Char
  | '"' => some '"'
  | '\\' => some '\\'
  | '/' => some '/'
  | 'b' => some '\x08'
  | 'f' => some '\x0c'
  | 'n' => some '\n'
  | 'r' => some '\r'
  | 't' => some '\t'
  | _ => none

def readEscape : List Char → Except Fault (Char × List Char)
  | [] => .error ⟨.endOfString, [], false⟩
  | c :: rest =>
    match shortEscape? c with
    | some x => .ok (x, rest)
    | none => if c = 'u' then readUnits rest else .error ⟨.invalidEscape, rest, false⟩

theorem readEscape_length {cs rest : List Char} {c : Char} (h : readEscape cs = .ok (c, rest)) :
    rest.length < cs.length := by
  cases cs with
  | nil => simp [readEscape] at h
  | cons x xs =>
    simp only [readEscape] at h
    split at h
    · simp only [Except.ok.injEq, Prod.mk.injEq] at h
      rw [← h.2]; simp
    · split at h
      · have := readUnits_length h
        simp only [List.length_cons]
        omega
      · simp at h

/-- The characters up to the closing quote, behind those that `seen` holds in reverse. -/
def readTextOnto (seen : List Char) : List Char → Except Fault (List Char × List Char)
  | [] => .error ⟨.endOfString, [], false⟩
  | '"' :: rest => .ok (seen.reverse, rest)
  | '\\' :: rest =>
    match h : readEscape rest with
    | .error f => .error f
    | .ok (c, more) =>
      have : more.length < rest.length := readEscape_length h
      readTextOnto (c :: seen) more
  | c :: rest =>
    if c.toNat < 0x20 then .error ⟨.controlCharacter, rest, false⟩
    else readTextOnto (c :: seen) rest
termination_by cs => cs.length
decreasing_by all_goals simp only [List.length_cons]; omega

/-- A string whose opening quote has been read. -/
def readText (cs : List Char) : Except Fault (String × List Char) :=
  (readTextOnto [] cs).map fun r => (String.ofList r.1, r.2)

def passEscape : List Char → Except Fault (List Char)
  | [] => .error ⟨.endOfString, [], false⟩
  | c :: rest =>
    if (shortEscape? c).isSome then .ok rest
    else if c = 'u' then (readHex rest).map (·.2)
    else .error ⟨.invalidEscape, rest, false⟩

theorem passEscape_length {cs rest : List Char} (h : passEscape cs = .ok rest) :
    rest.length < cs.length := by
  cases cs with
  | nil => simp [passEscape] at h
  | cons x xs =>
    simp only [passEscape] at h
    split at h
    · simp only [Except.ok.injEq] at h
      rw [← h]; simp
    · split at h
      · cases hx : readHex xs with
        | error f => rw [hx] at h; cases h
        | ok r =>
          rw [hx] at h
          simp only [Except.map, Except.ok.injEq] at h
          have := @readHex_length xs r.2 r.1 hx
          rw [← h]
          simp only [List.length_cons]
          omega
      · simp at h

def passText : List Char → Except Fault (List Char)
  | [] => .error ⟨.endOfString, [], false⟩
  | '"' :: rest => .ok rest
  | '\\' :: rest =>
    match h : passEscape rest with
    | .error f => .error f
    | .ok more =>
      have : more.length < rest.length := passEscape_length h
      passText more
  | c :: rest => if c.toNat < 0x20 then .error ⟨.controlCharacter, c :: rest, false⟩ else passText rest
termination_by cs => cs.length
decreasing_by all_goals simp only [List.length_cons]; omega

def maxWord : Nat := 0xFFFFFFFFFFFFFFFF

/-- Adds digits to a significand as long as it stays below 2^64; with the number of digits it
takes. -/
def takeDigits : Nat → List Char → Nat × Nat
  | significand, [] => (significand, 0)
  | significand, d :: ds =>
    let next := significand * 10 + (d.toNat - 0x30)
    if maxWord < next then (significand, 0)
    else
      let r := takeDigits next ds
      (r.1, r.2 + 1)

/-- The nearest number with at most 53 significant bits, of two the one that is even. -/
def round53 (n : Nat) : Nat :=
  let unit := Nat.pow 2 (n.log2 + 1 - 53)
  let q := n / unit
  let r := n % unit
  if unit < 2 * r ∨ unit = 2 * r ∧ q % 2 = 1 then (q + 1) * unit else q * unit

def outOfRange (significand : Nat) (exponent : Int) : Bool :=
  significand ≠ 0 && 0 ≤ exponent &&
    (308 < exponent ||
      Nat.pow 2 1024 ≤ round53 (round53 significand * round53 (Nat.pow 10 exponent.toNat)))

/-- A whole number of at most 64 bits, or the digits with an exponent. -/
def wholeNumber (isNegative : Bool) (significand : Nat) : Number :=
  if !isNegative then .natural significand
  else if significand = 0 ∨ 0x8000000000000000 < significand then .scaled true significand 0
  else .negative significand

/-- A number in floating point, if its size allows. -/
def scaledNumber (isNegative : Bool) (significand : Nat) (exponent : Int) (rest : List Char) :
    Except Fault (Number × List Char) :=
  if outOfRange significand exponent then .error ⟨.numberOutOfRange, rest, false⟩
  else .ok (.scaled isNegative significand exponent, rest)

/-- The value of the digits of an exponent; from 2^31 on the size no longer matters. -/
def exponentValue (ds : List Char) : Nat :=
  ds.foldl (fun n d => min (n * 10 + (d.toNat - 0x30)) 0x80000000) 0

def readExponent (isNegative : Bool) (significand : Nat) (start : Int) (cs : List Char) :
    Except Fault (Number × List Char) :=
  let (down, cs) := match cs with
    | '+' :: rest => (false, rest)
    | '-' :: rest => (true, rest)
    | rest => (false, rest)
  match cs with
  | [] => .error ⟨.endOfValue, [], false⟩
  | c :: rest =>
    if !c.isDigit then .error ⟨.invalidNumber, rest, false⟩
    else
      let size : Int := exponentValue (cs.takeWhile Char.isDigit)
      scaledNumber isNegative significand (if down then start - size else start + size)
        (cs.dropWhile Char.isDigit)

def readNumber (isNegative : Bool) (cs : List Char) : Except Fault (Number × List Char) :=
  match cs with
  | [] => .error ⟨.endOfValue, [], false⟩
  | c :: tail =>
    if !c.isDigit then .error ⟨.invalidNumber, tail, false⟩
    else
      let whole := cs.takeWhile Char.isDigit
      if c = '0' ∧ 1 < whole.length then .error (.next .invalidNumber tail)
      else
        let (significand, taken) := takeDigits 0 whole
        let dropped := whole.length - taken
        match cs.dropWhile Char.isDigit with
        | '.' :: rest =>
          let fraction := rest.takeWhile Char.isDigit
          let after := rest.dropWhile Char.isDigit
          if fraction = [] then
            .error (.next (if rest = [] then .endOfValue else .invalidNumber) rest)
          else
            let (significand, taken) := takeDigits significand fraction
            let exponent := (dropped : Int) - taken
            match after with
            | 'e' :: more | 'E' :: more => readExponent isNegative significand exponent more
            | _ => scaledNumber isNegative significand exponent after
        | 'e' :: rest | 'E' :: rest => readExponent isNegative significand dropped rest
        | rest =>
          if dropped = 0 then .ok (wholeNumber isNegative significand, rest)
          else scaledNumber isNegative significand dropped rest

def passExponent (cs : List Char) : Except Fault (List Char) :=
  let cs := match cs with
    | '+' :: rest | '-' :: rest => rest
    | rest => rest
  match cs with
  | c :: rest =>
    if c.isDigit then .ok (rest.dropWhile Char.isDigit) else .error ⟨.invalidNumber, rest, false⟩
  | [] => .error ⟨.invalidNumber, [], false⟩

/-- Passes over a number whose sign has been read; its size does not matter. -/
def passNumber (cs : List Char) : Except Fault (List Char) :=
  match cs with
  | [] => .error ⟨.invalidNumber, [], false⟩
  | c :: tail =>
    if !c.isDigit then .error ⟨.invalidNumber, tail, false⟩
    else if c = '0' ∧ (tail.head?.any Char.isDigit) then .error (.next .invalidNumber tail)
    else
      match cs.dropWhile Char.isDigit with
      | '.' :: rest =>
        if !(rest.head?.any Char.isDigit) then .error (.next .invalidNumber rest)
        else
          match rest.dropWhile Char.isDigit with
          | 'e' :: more | 'E' :: more => passExponent more
          | after => .ok after
      | 'e' :: rest | 'E' :: rest => passExponent rest
      | rest => .ok rest

end Roster.Json
