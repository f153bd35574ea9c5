/-! # The white space of Unicode -/
namespace Roster.Text

/-- The characters with the Unicode property `White_Space`. -/
def isBlank (c : Char) : Bool :=
  let n := c.toNat
  (9 ≤ n && n ≤ 13) || n == 0x20 || n == 0x85 || n == 0xA0 || n == 0x1680 ||
    (0x2000 ≤ n && n ≤ 0x200A) || n == 0x2028 || n == 0x2029 || n == 0x202F ||
    n == 0x205F || n == 0x3000

theorem isBlank_of_isWhitespace {c : Char} (h : c.isWhitespace = true) : isBlank c = true := by
  simp only [Char.isWhitespace, Bool.or_eq_true, decide_eq_true_eq, or_assoc] at h
  rcases h with rfl | rfl | rfl | rfl <;> decide

def trimLeft (cs : List Char) : List Char := cs.dropWhile isBlank

theorem trimLeft_append_dropped (cs : List Char) :
    cs.takeWhile isBlank ++ trimLeft cs = cs := List.takeWhile_append_dropWhile

end Roster.Text
