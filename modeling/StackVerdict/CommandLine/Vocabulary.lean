/-!
# The vocabulary of the command line

The words with a fixed meaning: flags stand before the subcommand, options after it.
-/

namespace StackVerdict.CommandLine

/-- A choice of how a finding is shown. -/
inductive Flag where
  /-- Tell on the error stream what is recorded. -/
  | trace
  | dump
  | diagnostic
  /-- Show the diagnostic in colour. -/
  | color
  deriving DecidableEq

/-- A kind of failure that can be explained. -/
inductive Subcommand where
  | underflow
  | typeMismatch
  | stackMismatch
  | stackSize
  deriving DecidableEq

/-- An option of a subcommand; each takes a value. -/
inductive Opt where
  /-- What the instruction needs: a number of values, or the type of one. -/
  | expected
  /-- The slot with a wrong type. -/
  | index
  /-- The stack, or the stack at a branch. -/
  | stack
  /-- The stack recorded at a destination. -/
  | destination
  deriving DecidableEq

namespace Flag

def name : Flag → String
  | trace => "trace"
  | dump => "dump"
  | diagnostic => "diagnostic"
  | color => "color"

def ofName? (s : String) : Option Flag :=
  [trace, dump, diagnostic, color].find? fun f => f.name == s

end Flag

namespace Subcommand

def name : Subcommand → String
  | underflow => "underflow"
  | typeMismatch => "type-mismatch"
  | stackMismatch => "stack-mismatch"
  | stackSize => "stack-size"

def ofName? (s : String) : Option Subcommand :=
  [underflow, typeMismatch, stackMismatch, stackSize].find? fun c => c.name == s

/-- Whether a word is the name of a subcommand, `help` among them. -/
def isName (s : String) : Bool := s == "help" || (ofName? s).isSome

/-- The options of a subcommand. -/
def options : Subcommand → List Opt
  | underflow => [.expected, .stack]
  | typeMismatch => [.expected, .index, .stack]
  | stackMismatch => [.stack, .destination]
  | stackSize => [.expected, .stack]

end Subcommand

namespace Opt

def name : Opt → String
  | expected => "expected"
  | index => "index"
  | stack => "stack"
  | destination => "destination"

end Opt

/-- The option of a subcommand with the given name. -/
def Subcommand.option? (c : Subcommand) (s : String) : Option Opt :=
  c.options.find? fun o => o.name == s

end StackVerdict.CommandLine
