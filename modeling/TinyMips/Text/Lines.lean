/-!
# Lines of a text

A newline ends a line, and one carriage return just before it belongs to the ending. What follows
the last newline is a line of its own unless it is empty.
-/

namespace TinyMips.Text

/-- A line without the carriage return at its end, if it has one. -/
def dropReturn (line : List Char) : List Char :=
  if line.getLast? = some '\r' then line.dropLast else line

/-- The lines of a text, without their endings. -/
def lines (text : List Char) : List (List Char) :=
  let pieces := text.splitOn '\n'
  pieces.dropLast.map dropReturn ++ pieces.getLast?.toList.filter (· ≠ [])

end TinyMips.Text
