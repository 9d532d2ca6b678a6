/-!
# Blank characters

The blank characters of a source line are those with the Unicode property `White_Space`: the
25 code points of `blankRanges`. Trimming takes them off either end of a text, and cutting splits
a text in front of the first character of a kind.

Texts under analysis are lists of characters, so that every function here is a composition of list
operators.
-/

namespace TinyMips.Text

/-- Ranges of code points, ends included, that have the property `White_Space`. -/
def blankRanges : List (Nat × Nat) :=
  [(0x09, 0x0D), (0x20, 0x20), (0x85, 0x85), (0xA0, 0xA0), (0x1680, 0x1680), (0x2000, 0x200A),
    (0x2028, 0x2029), (0x202F, 0x202F), (0x205F, 0x205F), (0x3000, 0x3000)]

/-- A character is blank when its code point lies in one of `blankRanges`. -/
def isBlank (c : Char) : Bool :=
  blankRanges.any fun (low, high) => low ≤ c.toNat && c.toNat ≤ high

/-- The text without the blanks at its front. -/
def trimStart (text : List Char) : List Char :=
  text.dropWhile isBlank

/-- The text without the blanks at its end. -/
def trimEnd (text : List Char) : List Char :=
  (text.reverse.dropWhile isBlank).reverse

/-- The text without the blanks at either end. -/
def trim (text : List Char) : List Char :=
  trimEnd (trimStart text)

/-- The text with the ASCII letters `A` to `Z` in lower case and all else as it was. -/
def lower (text : List Char) : List Char :=
  text.map Char.toLower

/-- Cuts a text at the first character of the given kind: what stands before it and what stands
after it. There is no cut when no character is of that kind. -/
def cut? (kind : Char → Bool) (text : List Char) : Option (List Char × List Char) :=
  match text.dropWhile fun c => !kind c with
  | [] => none
  | _ :: after => some (text.takeWhile (fun c => !kind c), after)

end TinyMips.Text
