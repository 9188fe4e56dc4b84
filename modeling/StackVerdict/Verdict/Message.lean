import StackVerdict.Verdict

/-!
# The message of a verdict

A failed check is explained in one English sentence that starts with the label of the instruction.
The sentence tells what the instruction asked for, and of the stacks only the one slot that is in
the way of a type mismatch.  There is nothing to explain about a success, nor about a slot that the
stack does not have.
-/

namespace StackVerdict

/-- The indefinite article in front of a word: "an" where the word starts with one of the letters
a, e, i, o, u in either case, and "a" otherwise.  This is a matter of spelling, not of sound. -/
def article (word : String) : String :=
  match word.toList with
  | [] => "a"
  | c :: _ => if c.toLower ∈ ['a', 'e', 'i', 'o', 'u'] then "an" else "a"

example : article "union" = "an" ∧ article "Float" = "a" ∧ article "" = "a" := by decide

namespace Verdict

/-- Turns away what cannot be explained: a success, and a slot that the stack does not have. -/
def vet (label : String) : Verdict → Except Misuse Unit
  | success => .error (.explainedSuccess label)
  | typeMismatch _ stack index =>
      if stack.height ≤ index then .error (.explainedOutside label index stack.height) else .ok ()
  | _ => .ok ()

/-- The sentence about a verdict that has been vetted. -/
def sentence (label : String) : Verdict → Except Misuse String
  | success => .error .phrasedSuccess
  | underflow needed _ =>
      .ok <|
        if needed = 1 then s!"{label} expects a value on the stack, but it was empty"
        else s!"{label} expects {needed} values on the stack"
  | typeMismatch expected stack index => do
      let found ← stack.get index
      return label ++ " expected " ++ article expected.name ++ " " ++ expected.name ++ "; found " ++
        found.name
  | stackMismatch _ _ => .ok s!"{label} stack doesn't match destination"
  | sizeFailure needed _ =>
      .ok <|
        if needed = 0 then s!"{label} expected the stack to be empty"
        else if needed = 1 then s!"{label} expected the stack to have 1 value"
        else s!"{label} expected the stack to have {needed} values"

/-- The sentence that explains why the instruction `label` failed its check. -/
def message (label : String) (v : Verdict) : Except Misuse String := do
  v.vet label
  v.sentence label

end Verdict

end StackVerdict
