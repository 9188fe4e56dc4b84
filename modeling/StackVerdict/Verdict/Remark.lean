import StackVerdict.Verdict
import StackVerdict.Verdict.Divergence

/-!
# Remarks on a verdict

What a report says about a failed check beside its message: how the stack differs from what the
instruction needs, and sometimes what to do about it.
-/

namespace StackVerdict

inductive Remark where
  /-- The instruction takes `needed` values and the stack holds `held`. -/
  | takes (needed held : Nat)
  /-- The missing values have to be pushed earlier. -/
  | pushEarlier
  /-- Slot `index` holds a value of type `found`. -/
  | holds (index : Nat) (found : TypeName)
  /-- The instruction needs a value of type `expected` in the slot. -/
  | requires (expected : TypeName)
  /-- The stacks at the two ends of a branch have different heights. -/
  | heights (branch destination : Nat)
  /-- The stacks at the two ends of a branch first differ at slot `index`. -/
  | diverge (index : Nat) (branch destination : TypeName)
  | identical
  /-- Every path into a destination has to leave the same stack. -/
  | leaveSame
  /-- The instruction needs a stack of height `needed` and the stack has height `held`. -/
  | requiresExactly (needed held : Nat)
  deriving DecidableEq

namespace Remark

/-- Whether the remark says what to do. -/
def isHelp : Remark → Bool
  | pushEarlier => true
  | leaveSame => true
  | _ => false

def body : Remark → String
  | takes needed held =>
      s!"instruction takes {needed} operand(s) from the top of the stack, " ++
        s!"but the stack holds {held} value(s)"
  | pushEarlier => "missing operands must be pushed by instructions emitted before this one"
  | holds index found =>
      s!"slot {index} (counting from the top of the stack) holds `" ++ found.name ++ "`"
  | requires expected => "instruction requires `" ++ expected.name ++ "` in this slot"
  | heights branch destination =>
      s!"stack at branch holds {branch} value(s), " ++
        s!"but stack at destination holds {destination} value(s)"
  | diverge index branch destination =>
      s!"stacks first diverge at slot {index}: `" ++ branch.name ++ "` at branch, `" ++
        destination.name ++ "` at destination"
  | identical =>
      "stacks list identical types, verifier must have rejected them for another reason"
  | leaveSame =>
      "every path into destination must leave stack of the same height holding the same types"
  | requiresExactly needed held =>
      s!"instruction requires exactly {needed} value(s) on the stack, " ++
        s!"but the stack holds {held}"

/-- The remark as a note, or as help where it says what to do. -/
def text (r : Remark) : String :=
  (if r.isHelp then "help: " else "note: ") ++ r.body

end Remark

/-- The remark on where the stacks at the two ends of a branch part. -/
def Divergence.remark (branch destination : Snapshot) : Divergence → Remark
  | none => .identical
  | height => .heights branch.height destination.height
  | slot index left right => .diverge index left right

def Verdict.remarks : Verdict → Except Misuse (List Remark)
  | success => .error .remarkedSuccess
  | underflow needed stack => .ok [.takes needed stack.height, .pushEarlier]
  | typeMismatch expected stack index => do
      let found ← stack.get index
      return [.holds index found, .requires expected]
  | stackMismatch branch destination =>
      .ok [(Divergence.find branch destination).remark branch destination, .leaveSame]
  | sizeFailure needed stack => .ok [.requiresExactly needed stack.height]

end StackVerdict
