import StackVerdict.Finding

/-!
# Events

Making a finding is recorded: one event tells what the finding is made of and what it says.  Where
no finding comes about, nothing is recorded.
-/

namespace StackVerdict

/-- A record of something that happened. -/
structure Event where
  /-- The named values of the record, in order. -/
  fields : List (String × String)
  deriving DecidableEq

namespace Event

/-- The part of the program that events are recorded for. -/
def target : String := "report::error"

def level : String := "TRACE"

/-- What every event says first. -/
def heading : String × String := ("message", "constructed verification error")

end Event

/-- The event that tells of a finding made of `o` with the given message. -/
def Origin.event (o : Origin) (message : String) : Event :=
  match o with
  | check label v =>
      ⟨[Event.heading, ("label", label), ("kind", v.kind.text), ("message", message)]⟩
  | custom _ => ⟨[Event.heading, ("message", message)]⟩

/-- Makes a finding, and records that it was made. -/
def Finding.record (o : Origin) : Except Misuse Finding × List Event :=
  match Finding.ofOrigin o with
  | .ok f => (.ok f, [o.event f.message])
  | .error e => (.error e, [])

end StackVerdict
