import StackVerdict.TypeName
import Std.Data.HashSet

/-!
# Operand stacks

`WorkingStack` is the stack that a verifier keeps changing: it grows at its end.  `Snapshot` is a
picture of it, taken at one moment and never changed.  In a snapshot slot `0` is the top of the
stack, whichever way the slots came in.
-/

namespace StackVerdict

/-! ## The working stack -/

/-- A stack under construction, its bottom first. -/
structure WorkingStack where
  /-- The values from the bottom to the top. -/
  values : Array TypeName
  deriving DecidableEq

namespace WorkingStack

def empty : WorkingStack := ⟨#[]⟩

/-- The stack with one more value on top. -/
def push (w : WorkingStack) (t : TypeName) : WorkingStack := ⟨w.values.push t⟩

/-- The stack without its top value, or the same stack if there is none. -/
def pop (w : WorkingStack) : WorkingStack := ⟨w.values.pop⟩

end WorkingStack

/-! ## Snapshots -/

/-- A picture of an operand stack. -/
@[ext] structure Snapshot where
  /-- The slots from the top to the bottom, so that slot `0` is the top. -/
  slots : List TypeName
  deriving DecidableEq, Hashable

namespace Snapshot

def empty : Snapshot := ⟨[]⟩

/-- The picture with the given slots, the top first. -/
def ofTopDown (l : List TypeName) : Snapshot := ⟨l⟩

/-- The picture with the given slots, the bottom first. -/
def ofBottomUp (l : List TypeName) : Snapshot := ⟨l.reverse⟩

def capture (w : WorkingStack) : Snapshot := ⟨w.values.toList.reverse⟩

/-- The picture whose slots are gathered one after the other, the top first. -/
def collect (l : List TypeName) : Snapshot := ⟨(l.foldl Array.push #[]).toList⟩

def height (s : Snapshot) : Nat := s.slots.length

def isEmpty (s : Snapshot) : Bool := s.slots.isEmpty

/-- Slot `i`, counted from the top, if the stack is that high. -/
def get? (s : Snapshot) (i : Nat) : Option TypeName := s.slots[i]?

/-- Slot `i`, counted from the top, which the caller knows to be there. -/
def get (s : Snapshot) (i : Nat) : Except Misuse TypeName :=
  match s.get? i with
  | some t => .ok t
  | none => .error (.slotOutside i s.height)

def top? (s : Snapshot) : Option TypeName := s.get? 0

/-- The slots from the bottom to the top. -/
def bottomUp (s : Snapshot) : List TypeName := s.slots.reverse

/-- Visits the slots from the top to the bottom. -/
def foldl {α : Type} (f : α → TypeName → α) (a : α) (s : Snapshot) : α := s.slots.foldl f a

theorem get?_eq_none_iff (s : Snapshot) (i : Nat) : s.get? i = none ↔ s.height ≤ i := by
  simp [get?, height]

theorem get_eq_ok_iff {s : Snapshot} {i : Nat} {t : TypeName} :
    s.get i = .ok t ↔ s.get? i = some t := by
  unfold get
  split <;> simp_all

@[simp] theorem slots_collect (l : List TypeName) : (collect l).slots = l := by
  simp [collect]

def countDistinct (l : List Snapshot) : Nat :=
  (Std.HashSet.ofList l).size

end Snapshot

end StackVerdict
