import WireIdl.Text.Alphanumeric
import WireIdl.Text.LetterCase

/-!
The words of an identifier and the usual ways to join them. Words are separated by characters that
are neither letters nor digits, and by a change of case: `findAll` is `find`, `All`, and
`HTTPServer` is `HTTP`, `Server`. This stands for the case conversions of the library `heck`, from
which emitted names are made; what is proved of names holds as far as it splits words in this way.
-/

namespace WireIdl.Text

inductive CaseRun where
  | start
  | lower
  | upper
  deriving DecidableEq

def CaseRun.next (run : CaseRun) (c : Char) : CaseRun :=
  if isLowercase c then .lower else if isUppercase c then .upper else run

/-- The words of a run of letters and digits; `word` is the word begun before it, last character
first. -/
def wordsOfRun : CaseRun → List Char → List Char → List (List Char)
  | _, _, [] => []
  | _, word, [c] => [(c :: word).reverse]
  | run, word, c :: d :: rest =>
      if run.next c = .lower && isUppercase d then
        (c :: word).reverse :: wordsOfRun .start [] (d :: rest)
      else if run = .upper && isUppercase c && isLowercase d then
        word.reverse :: wordsOfRun .start [c] (d :: rest)
      else
        wordsOfRun (run.next c) (c :: word) (d :: rest)

/-- The first run of letters and digits, and the runs after each other character. -/
def alphanumericRuns (cs : List Char) : List Char × List (List Char) :=
  cs.foldr
    (fun c (run, runs) => if isAlphanumeric c then (c :: run, runs) else ([], run :: runs))
    ([], [])

def words (s : String) : List (List Char) :=
  let (run, runs) := alphanumericRuns s.toList
  (run :: runs).flatMap (wordsOfRun .start [])

/-- A word in small letters; a capital sigma at the end takes its final form. -/
def lowerWord : List Char → List Char
  | [] => []
  | [c] => if c = 'Σ' then ['ς'] else toLowercase c
  | c :: rest => toLowercase c ++ lowerWord rest

def upperWord (word : List Char) : List Char :=
  word.flatMap toUppercase

def capitalWord : List Char → List Char
  | [] => []
  | c :: rest => toUppercase c ++ lowerWord rest

def joinWords (separator : String) (form : List Char → List Char) (s : String) : String :=
  separator.intercalate ((words s).map fun word => String.ofList (form word))

def snakeCase : String → String :=
  joinWords "_" lowerWord

def shoutyCase : String → String :=
  joinWords "_" upperWord

def upperCamelCase : String → String :=
  joinWords "" capitalWord

end WireIdl.Text
