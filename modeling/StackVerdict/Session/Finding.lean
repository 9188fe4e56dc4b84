import StackVerdict.Finding.Draft
import StackVerdict.Finding.Query
import StackVerdict.Session.Bindings

/-!
# Finding sessions

Findings under names.  Attaching something to a finding gives another finding and leaves the first
as it was.  A step that fails changes nothing.
-/

namespace StackVerdict

namespace FindingSession

structure State where
  findings : Bindings Finding

inductive Step where
  /-- Makes a finding of a failed check. -/
  | make (target label : String) (draft : Draft)
  /-- Makes a finding with a message of the caller's own. -/
  | custom (target message : String)
  | copy (source target : String)
  | attachSnapshots (source target : String) (snapshots : List Listing)
  | attachInstructions (source target : String) (instructions : List String)
  | ask (source : String) (query : Finding.Query)
  deriving DecidableEq

inductive Answer where
  | bound (f : Finding)
  | answered (a : Finding.Answer)
  deriving DecidableEq

def State.initial : State := ⟨.empty⟩

namespace State

def finding (st : State) (name : String) : Except Fault Finding :=
  match st.findings.find? name with
  | some f => .ok f
  | none => .error (.unbound name)

/-- The session with a finding bound to a name. -/
def bind (st : State) (target : String) (f : Finding) : State × Answer :=
  (⟨st.findings.bind target f⟩, .bound f)

def step (st : State) : Step → Except Fault (State × Answer)
  | .make target label draft => (Finding.ofDraft label draft).map (st.bind target)
  | .custom target message => .ok (st.bind target (.ofMessage message))
  | .copy source target => (st.finding source).map (st.bind target)
  | .attachSnapshots source target snapshots => do
      let f ← st.finding source
      return st.bind target (← f.attachListings snapshots)
  | .attachInstructions source target instructions => do
      let f ← st.finding source
      return st.bind target (f.attach (.instructions instructions))
  | .ask source query => do
      let f ← st.finding source
      return (st, .answered (← liftMisuse (f.answer query)))

/-- Carries out a step, and leaves the session as it is if that fails. -/
def attempt (st : State) (s : Step) : State × Except Fault Answer :=
  match st.step s with
  | .ok (next, a) => (next, .ok a)
  | .error e => (st, .error e)

/-- Carries out the steps in turn, and gives the session at their end with all answers. -/
def run (st : State) : List Step → State × List (Except Fault Answer)
  | [] => (st, [])
  | s :: rest =>
      let (next, a) := st.attempt s
      let (final, answers) := next.run rest
      (final, a :: answers)

end State

end FindingSession

end StackVerdict
