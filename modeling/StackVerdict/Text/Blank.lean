/-!
# Blanks

Which characters are blank, and a text without the blanks at its end.
-/

namespace StackVerdict.Text

/-- The code points with the Unicode property `White_Space`, as closed ranges in order. -/
def blankRanges : List (Nat × Nat) :=
  [(0x09, 0x0D), (0x20, 0x20), (0x85, 0x85), (0xA0, 0xA0), (0x1680, 0x1680), (0x2000, 0x200A),
    (0x2028, 0x2029), (0x202F, 0x202F), (0x205F, 0x205F), (0x3000, 0x3000)]

/-- Whether a character is blank. -/
def isBlank (c : Char) : Bool :=
  blankRanges.any fun r => r.1 ≤ c.toNat && c.toNat ≤ r.2

/-- The text without the blanks at its end. -/
def trimEnd (s : String) : String :=
  String.ofList (s.toList.reverse.dropWhile isBlank).reverse

/-- A blank at the end is dropped, whatever it is. -/
theorem trimEnd_push_of_isBlank {c : Char} (h : isBlank c = true) (s : String) :
    trimEnd (s.push c) = trimEnd s := by
  simp [trimEnd, h]

/-- Nothing before a last character that is not blank is dropped. -/
theorem trimEnd_push_of_not_isBlank {c : Char} (h : isBlank c = false) (s : String) :
    trimEnd (s.push c) = s.push c := by
  simp [trimEnd, h]

end StackVerdict.Text
