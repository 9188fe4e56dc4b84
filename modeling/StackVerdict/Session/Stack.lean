import StackVerdict.Session.Bindings
import StackVerdict.Snapshot.Layout
import StackVerdict.Verdict.Draft

/-!
# Stack sessions

A working stack and pictures of it under names.  The working stack goes on changing, the pictures do
not.  A step that fails changes nothing.
-/

namespace StackVerdict

namespace StackSession

structure State where
  working : WorkingStack
  pictures : Bindings Snapshot

/-- What can be asked about a picture. -/
inductive Query where
  | describe
  /-- The slot with the given number, if it is there. -/
  | find (index : Nat)
  /-- The slot with the given number, which must be there. -/
  | read (index : Nat)
  | visit
  | line
  | same (other : String)
  deriving DecidableEq

inductive Step where
  | push (name : String)
  | pop
  | clear
  | capture (target : String)
  /-- Makes a picture of a stack that is written down. -/
  | make (target : String) (stack : Listing)
  | copy (source target : String)
  | ask (source : String) (query : Query)
  deriving DecidableEq

inductive Answer where
  /-- The working stack, the bottom first. -/
  | working (values : List TypeName)
  | bound (stack : Snapshot)
  | description (stack : Snapshot)
  | slot (value : Option TypeName)
  | slots (values : List TypeName)
  | text (s : String)
  | truth (b : Bool)
  deriving DecidableEq

def State.initial : State := ⟨.empty, .empty⟩

namespace State

def picture (st : State) (name : String) : Except Fault Snapshot :=
  match st.pictures.find? name with
  | some s => .ok s
  | none => .error (.unbound name)

/-- The session with another working stack. -/
def work (st : State) (w : WorkingStack) : State × Answer :=
  ({ st with working := w }, .working w.values.toList)

/-- The session with a picture bound to a name. -/
def bind (st : State) (target : String) (s : Snapshot) : State × Answer :=
  ({ st with pictures := st.pictures.bind target s }, .bound s)

def answer (st : State) (s : Snapshot) : Query → Except Fault Answer
  | .describe => .ok (.description s)
  | .find index => .ok (.slot (s.get? index))
  | .read index => (liftMisuse (s.get index)).map fun t => .slot (some t)
  | .visit => .ok (.slots (s.foldl Array.push #[]).toList)
  | .line => .ok (.text s.oneLine)
  | .same other => (st.picture other).map fun t => .truth (s == t)

def step (st : State) : Step → Except Fault (State × Answer)
  | .push name => (liftInput (TypeName.ofString name)).map fun t => st.work (st.working.push t)
  | .pop => .ok (st.work st.working.pop)
  | .clear => .ok (st.work .empty)
  | .capture target => .ok (st.bind target (.capture st.working))
  | .make target stack => (liftInput stack.read).map fun s => st.bind target s
  | .copy source target => (st.picture source).map fun s => st.bind target s
  | .ask source query => do
      let s ← st.picture source
      return (st, ← st.answer s query)

/-- Carries out a step, and leaves the session as it is if that fails. -/
def attempt (st : State) (s : Step) : State × Except Fault Answer :=
  match st.step s with
  | .ok (next, a) => (next, .ok a)
  | .error e => (st, .error e)

/-- Carries out the steps in turn, and gives the session at their end with all answers. -/
def run (st : State) : List Step → State × List (Except Fault Answer)
  | [] => (st, [])
  | s :: rest =>
      let (next, a) := st.attempt s
      let (final, answers) := next.run rest
      (final, a :: answers)

end State

end StackSession

end StackVerdict
