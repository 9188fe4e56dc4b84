import StackVerdict.Verdict.Message

/-!
# Findings

A finding is what is handed to whoever emits instructions when a check fails: a message, the failed
check it stems from unless the message is the caller's own, the stacks that were captured, and the
instructions emitted so far.  A finding starts with the stacks of its failed check; more stacks and
instructions can be attached behind those it has, and nothing else about it ever changes.
-/

namespace StackVerdict

/-- A report that something is wrong with the operand stack. -/
@[ext] structure Finding where
  message : String
  /-- The failed check, unless the message is the caller's own. -/
  verdict : Option Verdict
  /-- The captured stacks, those of the failed check first. -/
  snapshots : List Snapshot
  /-- The instructions emitted up to the failure. -/
  instructions : List String
  deriving DecidableEq

/-- What a finding is made of. -/
inductive Origin where
  /-- A failed check at the instruction with the given label. -/
  | check (label : String) (verdict : Verdict)
  | custom (message : String)
  deriving DecidableEq

inductive Attachment where
  | snapshots (l : List Snapshot)
  | instructions (l : List String)
  deriving DecidableEq

namespace Finding

/-- The finding that explains why the instruction `label` failed its check. -/
def ofVerdict (label : String) (v : Verdict) : Except Misuse Finding := do
  let message ← v.message label
  return { message, verdict := some v, snapshots := v.snapshots, instructions := [] }

/-- The finding with a message of the caller's own. -/
def ofMessage (message : String) : Finding :=
  { message, verdict := none, snapshots := [], instructions := [] }

/-- The finding made of `o`. -/
def ofOrigin : Origin → Except Misuse Finding
  | .check label v => ofVerdict label v
  | .custom message => .ok (ofMessage message)

/-- The finding with more stacks or more instructions. -/
def attach (f : Finding) : Attachment → Finding
  | .snapshots l => { f with snapshots := f.snapshots ++ l }
  | .instructions l => { f with instructions := f.instructions ++ l }

/-- The finding with everything in a list attached in turn. -/
def attachAll (f : Finding) (l : List Attachment) : Finding :=
  l.foldl attach f

def hasSnapshots (f : Finding) : Bool := !f.snapshots.isEmpty

theorem hasSnapshots_eq_true_iff {f : Finding} : f.hasSnapshots = true ↔ f.snapshots ≠ [] := by
  simp [hasSnapshots]

@[simp] theorem attachAll_nil (f : Finding) : f.attachAll [] = f := rfl

@[simp] theorem attachAll_cons (f : Finding) (a : Attachment) (l : List Attachment) :
    f.attachAll (a :: l) = (f.attach a).attachAll l := rfl

theorem ofVerdict_eq_ok_iff {label : String} {v : Verdict} {f : Finding} :
    ofVerdict label v = .ok f ↔
      ∃ m, v.message label = .ok m ∧
        f = { message := m, verdict := some v, snapshots := v.snapshots, instructions := [] } := by
  unfold ofVerdict
  cases v.message label with
  | error e => simp [bind, Except.bind]
  | ok m => simp [bind, Except.bind, pure, Except.pure, eq_comm]

end Finding

/-! ## What a list of attachments holds -/

namespace Attachment

def allSnapshots (l : List Attachment) : List Snapshot :=
  l.flatMap fun
    | snapshots s => s
    | instructions _ => []

def allInstructions (l : List Attachment) : List String :=
  l.flatMap fun
    | snapshots _ => []
    | instructions s => s

end Attachment

/-- Attaching puts everything behind what is there, in order, and keeps the rest. -/
theorem Finding.attachAll_eq (f : Finding) (l : List Attachment) :
    f.attachAll l =
      { f with
        snapshots := f.snapshots ++ Attachment.allSnapshots l
        instructions := f.instructions ++ Attachment.allInstructions l } := by
  induction l generalizing f with
  | nil => simp [Attachment.allSnapshots, Attachment.allInstructions]
  | cons a l ih =>
    rw [attachAll_cons, ih]
    cases a <;> simp [attach, Attachment.allSnapshots, Attachment.allInstructions]

end StackVerdict
