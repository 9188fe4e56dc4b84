import StackVerdict.Finding.Diagnostic
import StackVerdict.Text.Cut

/-!
# Emitting a diagnostic

A diagnostic is laid out as a header with its message, and its notes line by line, the first line
of a note behind a bullet.  The layout is a list of pieces: text, and terminal codes that switch
colours and are left out where the terminal has none.
-/

namespace StackVerdict

/-- How much of a diagnostic is emitted. -/
inductive Detail where
  /-- The header, the notes and an empty line. -/
  | rich
  /-- The header and the notes. -/
  | medium
  | short
  deriving DecidableEq

/-- The characters that a layout is drawn with. -/
inductive Charset where
  | boxDrawing
  | ascii
  deriving DecidableEq

/-- The character in front of a note, which looks the same in both sets. -/
def Charset.bullet : Charset → String
  | boxDrawing => "="
  | ascii => "="

structure Appearance where
  detail : Detail := .rich
  charset : Charset := .boxDrawing
  color : Bool := false
  deriving DecidableEq

/-- A code that changes how a terminal shows what follows. -/
inductive TerminalCode where
  /-- Back to the plain look. -/
  | reset
  | bold
  | brightRed
  | blue
  deriving DecidableEq

def TerminalCode.escape : TerminalCode → String
  | reset => "\x1b[0m"
  | bold => "\x1b[1m"
  | brightRed => "\x1b[38;5;9m"
  | blue => "\x1b[34m"

/-- A piece of a layout. -/
inductive Piece where
  | text (s : String)
  | code (c : TerminalCode)
  deriving DecidableEq

/-- A piece as it is written, with or without colour. -/
def Piece.write (color : Bool) : Piece → String
  | text s => s
  | code c => if color then c.escape else ""

namespace Diagnostic

def header (d : Diagnostic) : List Piece :=
  [.code .reset, .code .bold, .code .brightRed, .text "error", .code .reset, .code .bold,
    .text (": " ++ d.message), .code .reset, .text "\n"]

def firstLine (charset : Charset) (line : String) : List Piece :=
  [.text " ", .code .reset, .code .blue, .text charset.bullet, .code .reset,
    .text (" " ++ line ++ "\n")]

def furtherLine (line : String) : Piece :=
  .text ("   " ++ line ++ "\n")

def noteLayout (charset : Charset) (note : String) : List Piece :=
  match Text.lines note with
  | [] => []
  | line :: further => firstLine charset line ++ further.map furtherLine

def layout (a : Appearance) (d : Diagnostic) : List Piece :=
  let notes := d.notes.flatMap (noteLayout a.charset)
  match a.detail with
  | .rich => d.header ++ notes ++ [.text "\n"]
  | .medium => d.header ++ notes
  | .short => d.header

def emit (a : Appearance) (d : Diagnostic) : String :=
  String.join ((d.layout a).map (Piece.write a.color))

end Diagnostic

/-- The diagnostic of a finding as text. -/
def Finding.emit (f : Finding) (a : Appearance) : Except Misuse String := do
  return (← f.diagnostic).emit a

/-- The diagnostic of a finding as text in the default appearance: with everything, and without
colour. -/
def Finding.emitPlain (f : Finding) : Except Misuse String := f.emit {}

end StackVerdict
