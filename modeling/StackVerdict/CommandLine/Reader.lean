import StackVerdict.CommandLine.Form
import StackVerdict.CommandLine.Word

/-!
# Reading a command line

The words are read from left to right and the first mistake decides.  An option takes the word after
it for its value, and that value is looked at only when the next word turns out to have a place, or
at the end; so a word that has no place is reported before a bad value in front of it.  A value that
is attached to its option is looked at once.
-/

namespace StackVerdict.CommandLine

/-- An option whose value has not been looked at. -/
structure Pending where
  option : Opt
  /-- The value, unless the option still waits for it. -/
  value : Option String
  deriving DecidableEq

namespace Form

/-- The form with the pending option filled in. -/
def settle (c : Subcommand) (f : Form) : Option Pending → Except Refusal Form
  | none => .ok f
  | some ⟨_, none⟩ => .error .missingValue
  | some ⟨o, some value⟩ => f.set c o value

/-- Reads the words after the escape, of which only a label has a place. -/
def readEscaped (c : Subcommand) (f : Form) (pending : Option Pending) :
    List String → Except Refusal Form
  | [] => f.settle c pending
  | w :: ws =>
      if f.label.isSome then .error .unknownArgument
      else
        match f.settle c pending with
        | .error e => .error e
        | .ok f => readEscaped c { f with label := some w } none ws

/-- Reads the words after a subcommand. -/
def readTail (c : Subcommand) (f : Form) (pending : Option Pending) :
    List String → Except Refusal Form
  | [] => f.settle c pending
  | w :: ws =>
      match Word.ofString w with
      | .escape => readEscaped c f pending ws
      | .long name value =>
          match c.option? name, value with
          | some o, none =>
              match f.settle c pending with
              | .error e => .error e
              | .ok f => readTail c f (some ⟨o, none⟩) ws
          | some o, some value =>
              match f.settle c pending with
              | .error e => .error e
              | .ok f =>
                  match f.set c o value with
                  | .error e => .error e
                  | .ok f => readTail c f none ws
          | none, none =>
              if name = "help" then (f.settle c pending).bind fun _ => .error .help
              else .error .unknownArgument
          | none, some _ =>
              if name = "help" then .error .unexpectedValue else .error .unknownArgument
      | .short letter =>
          if letter = 'h' then (f.settle c pending).bind fun _ => .error .help
          else .error .unknownArgument
      | .plain =>
          match pending with
          | some ⟨o, none⟩ => readTail c f (some ⟨o, some w⟩) ws
          | _ =>
              if f.label.isSome then .error .unknownArgument
              else
                match f.settle c pending with
                | .error e => .error e
                | .ok f => readTail c { f with label := some w } none ws

end Form

/-- A command and how its answer is to be shown. -/
structure Invocation where
  /-- The flags in the order in which they were given, none of them twice. -/
  flags : List Flag
  command : Command
  deriving DecidableEq

namespace Invocation

/-- Why there is nothing to run where the words end before a subcommand. -/
def unfinished (flags : List Flag) : Refusal :=
  if flags.isEmpty then .nothingToDo else .missingSubcommand

/-- What comes of the words after an escape in front of the subcommand.  The first of them decides,
whatever it looks like: the name of a subcommand has no place there, and any other word is taken for
a subcommand that does not exist. -/
def afterEscape (flags : List Flag) : List String → Refusal
  | [] => unfinished flags
  | w :: _ => if Subcommand.isName w then .unknownArgument else .unknownSubcommand

/-- What comes of the words after `help`: the name of one subcommand may follow. -/
def afterHelp : List String → Refusal
  | [] => .help
  | [w] => if Subcommand.isName w then .help else .unknownSubcommand
  | _ => .unknownSubcommand

/-- Reads the words after a subcommand into an invocation. -/
def ofTail (flags : List Flag) (c : Subcommand) (ws : List String) : Except Refusal Invocation := do
  let form ← Form.readTail c {} none ws
  let command ← form.command c
  if .dump ∈ flags ∧ .diagnostic ∈ flags then .error .conflict else .ok { flags, command }

/-- Reads the words after the given flags. -/
def readFrom (flags : List Flag) : List String → Except Refusal Invocation
  | [] => .error (unfinished flags)
  | w :: ws =>
      match Word.ofString w with
      | .escape => .error (afterEscape flags ws)
      | .long name value =>
          match Flag.ofName? name, value with
          | some flag, none =>
              if flag ∈ flags then .error .conflict else readFrom (flags ++ [flag]) ws
          | some _, some _ => .error .unexpectedValue
          | none, none => if name = "help" then .error .help else .error .unknownArgument
          | none, some _ =>
              if name = "help" then .error .unexpectedValue else .error .unknownArgument
      | .short letter => if letter = 'h' then .error .help else .error .unknownArgument
      | .plain =>
          if w = "help" then .error (afterHelp ws)
          else
            match Subcommand.ofName? w with
            | some c => ofTail flags c ws
            | none => .error .unknownSubcommand

def read (words : List String) : Except Refusal Invocation :=
  readFrom [] words

end Invocation

end StackVerdict.CommandLine
