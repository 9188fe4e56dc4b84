import StackVerdict.Snapshot
import StackVerdict.Text.Cut
import StackVerdict.Text.Numeral

/-!
# Stacks as text

A stack is shown in one line, or as a block with a numbered row for each slot.
-/

namespace StackVerdict

namespace Snapshot

/-- The names of the slots in brackets, the top first. -/
def oneLine (s : Snapshot) : String :=
  "[" ++ ", ".intercalate (s.slots.map TypeName.name) ++ "]"

def row (i : Nat) (t : TypeName) : String :=
  "    [" ++ Text.column 2 i ++ "] " ++ t.name

/-- The rows of all slots, the top first. -/
def rows (s : Snapshot) : List String :=
  s.slots.mapIdx row

/-- The lines of the block: the rows between two brackets, or the two brackets alone. -/
def blockLines (s : Snapshot) : List String :=
  if s.isEmpty then ["[]"] else "[" :: (s.rows ++ ["]"])

def block (s : Snapshot) : String :=
  Text.unlines s.blockLines

theorem length_blockLines (s : Snapshot) :
    s.blockLines.length = if s.isEmpty then 1 else s.height + 2 := by
  unfold blockLines
  split <;> simp [rows, height]

end Snapshot

end StackVerdict
