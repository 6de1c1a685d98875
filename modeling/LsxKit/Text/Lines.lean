/-!
# Lines of a text

* `lines`: a text split at its line feeds. A carriage return before a line feed belongs to the
  line end, and a last line without characters does not count.
-/

namespace LsxKit.Text

/-- A line without the carriage return at its end, if it has one. -/
def dropCarriageReturn (line : List Char) : List Char :=
  match line.getLast? with
  | some '\r' => line.dropLast
  | _ => line

/-- The lines of a text: what stands between its line feeds, each without a carriage return
before the line feed. What follows the last line feed is a line only if it is not empty, and
keeps its carriage return. -/
def lines (s : List Char) : List (List Char) :=
  let parts := s.splitOn '\n'
  let last := parts.getLast?.getD []
  parts.dropLast.map dropCarriageReturn ++ if last.isEmpty then [] else [last]

end LsxKit.Text
