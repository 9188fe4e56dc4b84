/-!
# Cutting a text

A text is cut at every occurrence of a separator, and put together again.  Lines are the special
case in which a line feed ends a line: nothing stands after the last one, and a carriage return
just before a line feed belongs to the line's end.
-/

namespace StackVerdict.Text

/-- The pieces of a text between the occurrences of `sep`, of which there is one more than there
are separators. -/
def cut (sep : Char) (s : String) : List String :=
  (s.toList.splitOn sep).map String.ofList

/-- The pieces joined with `sep` between each two of them. -/
def join (sep : Char) (pieces : List String) : String :=
  (String.singleton sep).intercalate pieces

theorem toList_cut (sep : Char) (s : String) :
    (cut sep s).map String.toList = s.toList.splitOn sep := by
  simp [cut, Function.comp_def]

theorem toList_join (sep : Char) (pieces : List String) :
    (join sep pieces).toList = [sep].intercalate (pieces.map String.toList) := by
  simp [join]

theorem cut_ne_nil (sep : Char) (s : String) : cut sep s ≠ [] := by
  simp [cut, List.splitOn_ne_nil]

/-- Cutting loses nothing but the separators. -/
theorem join_cut (sep : Char) (s : String) : join sep (cut sep s) = s := by
  rw [← String.toList_inj, toList_join, toList_cut, List.intercalate_splitOn]

/-- Pieces without the separator are read back. -/
theorem cut_join {sep : Char} {pieces : List String} (h : ∀ p ∈ pieces, sep ∉ p.toList)
    (hne : pieces ≠ []) : cut sep (join sep pieces) = pieces := by
  have hsplit : (join sep pieces).toList.splitOn sep = pieces.map String.toList := by
    rw [toList_join]
    exact List.splitOn_intercalate sep (by simpa using h) (by simpa using hne)
  simp [cut, hsplit, Function.comp_def]

/-! ## Lines -/

/-- Every line followed by a line feed. -/
def unlines (lines : List String) : String :=
  String.join (lines.map (· ++ "\n"))

@[simp] theorem unlines_nil : unlines [] = "" := by simp [unlines]

@[simp] theorem unlines_cons (l : String) (ls : List String) :
    unlines (l :: ls) = l ++ "\n" ++ unlines ls := by
  simp [unlines]

@[simp] theorem unlines_append (ls ms : List String) :
    unlines (ls ++ ms) = unlines ls ++ unlines ms := by
  simp [unlines]

/-- The text without one carriage return at its end. -/
def dropReturn (s : List Char) : List Char :=
  if s.getLast? = some '\r' then s.dropLast else s

/-- The lines of a text.  A line feed ends a line, a carriage return before it included, and what
follows the last line feed is a line of its own unless it is empty. -/
def lines (s : String) : List String :=
  let pieces := s.toList.splitOn '\n'
  let rest := pieces.getLastD []
  (pieces.dropLast.map dropReturn ++ if rest = [] then [] else [rest]).map String.ofList

example : lines "a\r\n\nb\r" = ["a", "", "b\r"] := by decide

end StackVerdict.Text
