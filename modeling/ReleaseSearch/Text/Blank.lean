/-! Blanks of running text: the White_Space property, trimming, and the words between blanks. -/
namespace ReleaseSearch.Text

/-- The White_Space property. The zero-width space and the byte order mark are not in it. -/
def isBlank (c : Char) : Bool :=
  let n := c.toNat
  (9 ≤ n && n ≤ 13) || n == 0x20 || n == 0x85 || n == 0xA0 || n == 0x1680 ||
    (0x2000 ≤ n && n ≤ 0x200A) || n == 0x2028 || n == 0x2029 || n == 0x202F ||
    n == 0x205F || n == 0x3000

/-- Drops from the end, as long as the test holds. -/
def dropEndWhile (p : Char → Bool) (cs : List Char) : List Char :=
  (cs.reverse.dropWhile p).reverse

/-- Drops at both ends, as long as the test holds. -/
def stripWhile (p : Char → Bool) (cs : List Char) : List Char :=
  dropEndWhile p (cs.dropWhile p)

/-- The text without the blanks at its ends. -/
def trim (s : String) : String :=
  String.ofList (stripWhile isBlank s.toList)

/-- The trimmed text, unless nothing is left of it. -/
def nonBlank (s : String) : Option String :=
  if trim s = "" then none else some (trim s)

/-- Puts a finished word before the words after it; an empty one is none. -/
def closeWord (word : List Char) (rest : List (List Char)) : List (List Char) :=
  if word.isEmpty then rest else word :: rest

/-- One character read from the right: the word it belongs to, and the words after that one. -/
def wordStep (blank : Char → Bool) (c : Char) (state : List Char × List (List Char)) :
    List Char × List (List Char) :=
  if blank c then ([], closeWord state.1 state.2) else (c :: state.1, state.2)

/-- The longest runs of characters that are not blank, in order. -/
def wordsBy (blank : Char → Bool) (cs : List Char) : List (List Char) :=
  let state := cs.foldr (wordStep blank) ([], [])
  closeWord state.1 state.2

/-- The words of running text. -/
def words (s : String) : List (List Char) := wordsBy isBlank s.toList

end ReleaseSearch.Text
