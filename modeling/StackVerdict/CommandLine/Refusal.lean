/-!
# Refusals

Why the words of a command line are not carried out.
-/

namespace StackVerdict.CommandLine

/-- Why a command line is refused. -/
inductive Refusal where
  | help
  /-- There is nothing to do, and help would be in place. -/
  | nothingToDo
  | missingSubcommand
  | unknownSubcommand
  /-- An option is unknown, or a word has no place. -/
  | unknownArgument
  | missingValue
  /-- An option has a value and takes none. -/
  | unexpectedValue
  /-- A value is no number, or too large a one. -/
  | invalidCount
  /-- Two words exclude each other. -/
  | conflict
  /-- A word or option that must be there is missing. -/
  | missingArgument
  deriving DecidableEq

namespace Refusal

/-- The exit code of a refused command line: asking for help is no failure. -/
def exitCode : Refusal → Nat
  | help => 0
  | _ => 2

/-- What is wrong with the command line, in words of this library: only which refusal it is, and its
exit code, are part of an answer. -/
def message : Refusal → String
  | help => "help is asked for"
  | nothingToDo => "there is nothing to do"
  | missingSubcommand => "a subcommand is missing"
  | unknownSubcommand => "no subcommand has this name"
  | unknownArgument => "an argument is not expected here"
  | missingValue => "an option lacks its value"
  | unexpectedValue => "an option takes no value"
  | invalidCount => "a value is not a number in range"
  | conflict => "two arguments cannot be used together"
  | missingArgument => "a required argument is missing"

end Refusal

end StackVerdict.CommandLine
