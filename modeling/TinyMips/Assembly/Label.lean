/-!
# Labels

The names that a source may give to its items.
-/

namespace TinyMips.Label

/-- Whether a character may start a label. -/
def isStart (c : Char) : Bool :=
  c.isLower || c = '_'

/-- Whether a character may follow in a label. -/
def isRest (c : Char) : Bool :=
  c.isLower || c.isDigit || c = '_' || c = '.' || c = '-'

/-- Whether a text is a well-formed label: a lower-case letter or an underscore, and then letters,
digits, underscores, dots and hyphens. -/
def isValid : List Char → Bool
  | c :: rest => isStart c && rest.all isRest
  | [] => false

end TinyMips.Label
