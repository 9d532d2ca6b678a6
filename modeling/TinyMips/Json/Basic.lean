import TinyMips.Numeral.Digits
import TinyMips.Numeral.Written

/-!
# JSON values

A JSON value keeps its numbers and strings as they are written between their delimiters, so that
reading a document decides nothing about the values that nobody asks for. Encoding writes strings
with the shortest escapes; decoding gives the text that a written string stands for.
-/

namespace TinyMips

/-- A JSON value. -/
inductive Json where
  | null
  | bool (value : Bool)
  /-- A number, as written. -/
  | number (literal : String)
  /-- A string, as written between its quotes. -/
  | string (literal : String)
  | array (elements : List Json)
  /-- An object, with its keys as written between their quotes. -/
  | object (members : List (String × Json))

namespace Json

/-- The 16-bit unit of four hexadecimal digits. -/
def unit? (a b c d : Char) : Option Nat :=
  Numeral.value? 16 [a, b, c, d]

/-- The escape of a character in a written string. Quotes, backslashes and control characters have
one; all else stands for itself. -/
def escapeChar (c : Char) : List Char :=
  if c = '"' then ['\\', '"']
  else if c = '\\' then ['\\', '\\']
  else if c = '\x08' then ['\\', 'b']
  else if c = '\x0c' then ['\\', 'f']
  else if c = '\n' then ['\\', 'n']
  else if c = '\r' then ['\\', 'r']
  else if c = '\t' then ['\\', 't']
  else if c.toNat < 0x20 then
    ['\\', 'u', '0', '0', Nat.digitChar (c.toNat / 16), Nat.digitChar (c.toNat % 16)]
  else [c]

/-- The written form of a text. -/
def escape (text : List Char) : List Char :=
  text.flatMap escapeChar

/-- The character of a one-letter escape. -/
def simpleEscape? (c : Char) : Option Char :=
  if c = '"' ∨ c = '\\' ∨ c = '/' then some c
  else if c = 'b' then some '\x08'
  else if c = 'f' then some '\x0c'
  else if c = 'n' then some '\n'
  else if c = 'r' then some '\r'
  else if c = 't' then some '\t'
  else none

/-- The text of a written string. Escapes of the two halves of a surrogate pair stand for one
character; a half by itself stands for none. -/
def unescape? : List Char → Option (List Char)
  | [] => some []
  | '\\' :: 'u' :: a :: b :: c :: d :: rest =>
    match unit? a b c d with
    | none => none
    | some high =>
      if 0xD800 ≤ high ∧ high < 0xDC00 then
        -- the first half of a pair; the second must follow as an escape too
        match rest with
        | '\\' :: 'u' :: a :: b :: c :: d :: rest =>
          match unit? a b c d with
          | some low =>
            if 0xDC00 ≤ low ∧ low < 0xE000 then
              let code := 0x10000 + (high - 0xD800) * 0x400 + (low - 0xDC00)
              (unescape? rest).map (Char.ofNat code :: ·)
            else none
          | none => none
        | _ => none
      else if 0xDC00 ≤ high ∧ high < 0xE000 then none
      else (unescape? rest).map (Char.ofNat high :: ·)
  | '\\' :: c :: rest =>
    match simpleEscape? c with
    | some c => (unescape? rest).map (c :: ·)
    | none => none
  | c :: rest => (unescape? rest).map (c :: ·)

/-- The string value of a text. -/
def ofText (text : String) : Json :=
  string (String.ofList (escape text.toList))

/-- The number value of an integer. -/
def ofInt (value : Int) : Json :=
  number (String.ofList (Numeral.decimal value))

/-- The number value of a natural number. -/
def ofNat (value : Nat) : Json :=
  ofInt value

/-- The value of something that may be missing. -/
def ofOption {α : Type} (encode : α → Json) (value : Option α) : Json :=
  (value.map encode).getD null

/-- The truth value. -/
def bool? : Json → Option Bool
  | bool value => some value
  | _ => none

end Json

end TinyMips
