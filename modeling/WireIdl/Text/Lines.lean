/-!
The lines of a text. A line ends with a line feed, before which one carriage return is not part of
the line; the text after the last line feed is a line of its own unless it is empty.
-/

namespace WireIdl.Text

/-- The terminated lines of a text, and what follows the last line feed. -/
def splitFeeds (cs : List Char) : List (List Char) × List Char :=
  cs.foldr
    (fun c (ended, rest) =>
      if c = '\n' then ([] :: ended, rest)
      else
        match ended with
        | [] => ([], c :: rest)
        | line :: ended => ((c :: line) :: ended, rest))
    ([], [])

def dropReturn (line : List Char) : List Char :=
  if line.getLast? = some '\r' then line.dropLast else line

def linesOf (cs : List Char) : List (List Char) :=
  let (ended, rest) := splitFeeds cs
  ended.map dropReturn ++ if rest.isEmpty then [] else [rest]

def lines (s : String) : List String :=
  (linesOf s.toList).map String.ofList

end WireIdl.Text
