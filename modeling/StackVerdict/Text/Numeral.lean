/-!
# Numerals

Decimal numerals: flush right in a column of given width, and read back from a word.
-/

namespace StackVerdict.Text

/-- The decimal numeral of `n`, with blanks in front up to `width` characters. -/
def column (width n : Nat) : String :=
  String.ofList ((Nat.toDigits 10 n).leftpad width ' ')

theorem toList_column (width n : Nat) :
    (column width n).toList = (Nat.toDigits 10 n).leftpad width ' ' := by
  simp [column]

example : column 2 7 = " 7" ∧ column 2 123 = "123" := by decide

/-- The largest number that a count or an index may have. -/
def maxCount : Nat := 18446744073709551615

/-- The digits of a numeral that may start with one plus sign. -/
def unsigned : List Char → List Char
  | '+' :: digits => digits
  | digits => digits

/-- The number that a word writes: at least one ASCII digit, one plus sign allowed in front, and
nothing above `maxCount`. -/
def readCount? (word : String) : Option Nat :=
  let digits := unsigned word.toList
  let n := Nat.ofDigitChars 10 digits 0
  if digits ≠ [] ∧ digits.all Char.isDigit ∧ n ≤ maxCount then some n else none

theorem unsigned_toDigits (n : Nat) : unsigned (Nat.toDigits 10 n) = Nat.toDigits 10 n := by
  have hdigit : ∀ c ∈ Nat.toDigits 10 n, c.isDigit = true := fun c hc =>
    Nat.isDigit_of_mem_toDigits (by decide) (by decide) hc
  unfold unsigned
  split
  · next digits heq => simp [heq] at hdigit
  · rfl

/-- A number that is not too large is read back from its numeral. -/
theorem readCount?_repr {n : Nat} (h : n ≤ maxCount) : readCount? n.repr = some n := by
  have hdigits : (Nat.toDigits 10 n).all Char.isDigit = true := by
    simpa using fun c hc => Nat.isDigit_of_mem_toDigits (by decide) (by decide) hc
  simp only [readCount?, Nat.toList_repr, unsigned_toDigits, Nat.ofDigitChars_ten_toDigits]
  simp [hdigits, h]

end StackVerdict.Text
