import TinyMips.Text.Blank
import TinyMips.Text.Lines

/-!
# Source lines

A line of source reads `[label:] [keyword [operands]] [comment]`. A comment starts at the first
`#` or `;`. Code is put into lower case, so that labels, mnemonics and registers compare without
regard to letter case; comments are kept as written. Cutting a line decides nothing about whether
its parts are valid.
-/

namespace TinyMips

/-- A line of source, cut into its parts. -/
structure SourceLine where
  /-- The number of the line, from 1. -/
  number : Nat
  /-- The label in front of a colon. -/
  label : Option String := none
  /-- A mnemonic, or a directive with its dot. -/
  keyword : Option String := none
  /-- All code after the keyword, trimmed. -/
  operands : String := ""
  /-- The text after the comment mark, trimmed. -/
  comment : Option String := none
  deriving DecidableEq

namespace SourceLine

/-- Whether the line has neither a label nor a keyword. -/
def isBlank (line : SourceLine) : Bool :=
  line.label.isNone && line.keyword.isNone

/-- Cuts a line into its code and its comment, at the first comment mark. -/
def cutComment (raw : List Char) : List Char × Option (List Char) :=
  match Text.cut? (fun c => c = '#' || c = ';') raw with
  | some (code, comment) => (code, some comment)
  | none => (raw, none)

/-- Whether the text in front of a colon can be a label: one word that is not a directive, so that
the colon of `.word value:count` cuts nothing. -/
def isLabelHead (head : List Char) : Bool :=
  !head.isEmpty && head.head? ≠ some '.' && !head.any Text.isBlank

/-- Cuts the label off the front of the code. -/
def cutLabel (code : List Char) : Option (List Char) × List Char :=
  match Text.cut? (· = ':') code with
  | some (head, rest) => if isLabelHead head then (some head, rest) else (none, code)
  | none => (none, code)

/-- Cuts what follows the label into the keyword and its operands, at the first blank. -/
def cutKeyword (body : List Char) : Option (List Char) × List Char :=
  match Text.cut? Text.isBlank body with
  | some (keyword, operands) => (some keyword, Text.trim operands)
  | none => if body.isEmpty then (none, []) else (some body, [])

/-- The parts of one line of source. -/
def ofText (number : Nat) (raw : List Char) : SourceLine :=
  let (code, comment) := cutComment raw
  let (label, rest) := cutLabel (Text.lower (Text.trim code))
  let (keyword, operands) := cutKeyword (Text.trim rest)
  { number
    label := label.map String.ofList
    keyword := keyword.map String.ofList
    operands := String.ofList operands
    comment := comment.map fun text => String.ofList (Text.trim text) }

/-- Every line of a source text, numbered from 1. -/
def ofSource (source : String) : List SourceLine :=
  (Text.lines source.toList).mapIdx fun i raw => ofText (i + 1) raw

end SourceLine

end TinyMips
