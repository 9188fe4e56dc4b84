/-!
# Words of a command line

What a word looks like before anything is known about the options of a command: the escape `--`, a
long option with or without an attached value, a cluster of short options, or a plain word.
-/

namespace StackVerdict.CommandLine

/-- The look of a word. -/
inductive Word where
  | escape
  /-- A word `--name` or `--name=value`. -/
  | long (name : String) (value : Option String)
  /-- A word that starts with one dash and a letter. -/
  | short (letter : Char)
  /-- Any other word, the single dash and the empty word among them. -/
  | plain
  deriving DecidableEq

namespace Word

/-- The part before the first equals sign, and the part after it if there is one. -/
def splitValue (s : List Char) : String × Option String :=
  (String.ofList (s.takeWhile (· ≠ '=')),
    match s.dropWhile (· ≠ '=') with
    | [] => none
    | _ :: value => some (String.ofList value))

def ofChars : List Char → Word
  | '-' :: '-' :: [] => escape
  | '-' :: '-' :: rest => long (splitValue rest).1 (splitValue rest).2
  | '-' :: letter :: _ => short letter
  | _ => plain

def ofString (s : String) : Word := ofChars s.toList

end Word

end StackVerdict.CommandLine
