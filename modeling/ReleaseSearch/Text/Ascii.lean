/-! The classes of the name, marker and annotation grammars. They know ASCII only: a no-break space
is no blank here, and a letter outside ASCII has no other case. -/
namespace ReleaseSearch.Text

/-- Tab, line feed, vertical tab, form feed, carriage return and space. -/
def isAsciiBlank (c : Char) : Bool :=
  c == ' ' || (9 ≤ c.toNat && c.toNat ≤ 13)

/-- Equality up to the case of ASCII letters. -/
def sameLetter (a b : Char) : Bool :=
  a.toLower == b.toLower

/-- What follows `word` at the front of the text. `same` says which characters count as one. -/
def afterWord? (same : Char → Char → Bool) : (word text : List Char) → Option (List Char)
  | [], rest => some rest
  | _ :: _, [] => none
  | w :: word, c :: text => if same w c then afterWord? same word text else none

/-- Equality of texts up to the case of ASCII letters. -/
def sameLetters (a b : String) : Bool :=
  a.toList.map Char.toLower == b.toList.map Char.toLower

end ReleaseSearch.Text
