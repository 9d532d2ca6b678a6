import TinyMips.Json.Basic

/-!
# Printing JSON

The printed form puts every element and member on a line of its own, indented by two blanks for
each level, and writes empty arrays and objects as a pair of brackets.
-/

namespace TinyMips.Json

/-- The start of a line at a level of nesting. -/
def newline (level : Nat) : String :=
  "\n" ++ String.ofList (List.replicate (2 * level) ' ')

/-- A written string between its quotes. -/
def quoted (literal : String) : String :=
  "\"" ++ literal ++ "\""

/-- The comma between an element and the rest, if there is any. -/
def separator {α : Type} (rest : List α) : String :=
  if rest.isEmpty then "" else ","

mutual

/-- Appends the printed form of a value at a level of nesting. -/
def printOnto (level : Nat) (text : String) : Json → String
  | .null => text ++ "null"
  | .bool true => text ++ "true"
  | .bool false => text ++ "false"
  | .number literal => text ++ literal
  | .string literal => text ++ quoted literal
  | .array elements =>
    if elements.isEmpty then text ++ "[]"
    else printElements (level + 1) (text ++ "[") elements ++ newline level ++ "]"
  | .object members =>
    if members.isEmpty then text ++ "\x7b\x7d"
    else printMembers (level + 1) (text ++ "\x7b") members ++ newline level ++ "\x7d"

/-- Appends the elements of an array, each on a line of its own. -/
def printElements (level : Nat) (text : String) : List Json → String
  | [] => text
  | element :: rest =>
    printElements level (printOnto level (text ++ newline level) element ++ separator rest) rest

/-- Appends the members of an object, each on a line of its own. -/
def printMembers (level : Nat) (text : String) : List (String × Json) → String
  | [] => text
  | (key, value) :: rest =>
    printMembers level
      (printOnto level (text ++ newline level ++ quoted key ++ ": ") value ++ separator rest) rest

end

/-- The printed form of a value. -/
def print (value : Json) : String :=
  printOnto 0 "" value

end TinyMips.Json
