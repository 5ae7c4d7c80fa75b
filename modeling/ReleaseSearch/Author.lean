import ReleaseSearch.Outcome
import ReleaseSearch.Simplifier
import ReleaseSearch.Text.Ascii

/-! Simplifying the name of an author. A name in forward order gives up its middle initial, a name in
inverted order is turned round; a suffix of the table stays at the end. -/
namespace ReleaseSearch

/-- The parts of a name that are kept. -/
structure AuthorName where
  given : List Char
  family : List Char
  suffix : Option (List Char)
deriving DecidableEq

namespace AuthorName

open Text

def isGivenChar (c : Char) : Bool := !isAsciiBlank c && c != '.' && c != ','

/-- Reads given names up to the first of them behind which `accept` takes the rest. Each has two or
more characters, without period or comma. `taken` holds what has been read, last character first,
and `size` counts the characters of the name that is being read, 0 between names. -/
def givenThen? {α : Type} (accept : List Char → Option α) (taken : List Char) (size : Nat) :
    List Char → Option (List Char × α)
  | [] => if 2 ≤ size then (accept []).map fun rest => (taken.reverse, rest) else none
  | c :: cs =>
    if isGivenChar c then givenThen? accept (c :: taken) (size + 1) cs
    else
      let here := if 2 ≤ size then accept (c :: cs) else none
      match here with
      | some rest => some (taken.reverse, rest)
      | none =>
        if isAsciiBlank c && size != 1 then givenThen? accept (c :: taken) 0 cs else none

/-- What follows one or more blanks. -/
def afterBlanks? : List Char → Option (List Char)
  | [] => none
  | c :: rest => if isAsciiBlank c then some (rest.dropWhile isAsciiBlank) else none

/-- What follows a middle initial, which blanks set off and a period ends. -/
def afterInitial? (cs : List Char) : Option (List Char) :=
  match afterBlanks? cs with
  | some (c :: '.' :: rest) => if c.isUpper then some rest else none
  | _ => none

/-- Takes a suffix behind which nothing is left. -/
def wholeSuffix? (suffix rest : List Char) : Option (List Char) :=
  if rest.isEmpty then some suffix else none

/-- Blanks and the first suffix of the table that reaches to the end. -/
def spacedSuffix? (suffixes : List (List Char)) (cs : List Char) : Option (List Char) :=
  (afterBlanks? cs).bind (firstMatch? (· == ·) wholeSuffix? suffixes)

/-- The end of a name: nothing more, or a suffix, which a comma may announce. -/
def ending? (suffixes : List (List Char)) : List Char → Option (Option (List Char))
  | [] => some none
  | ',' :: rest => (spacedSuffix? suffixes rest).map some
  | rest => (spacedSuffix? suffixes rest).map some

def isFamilyChar (c : Char) : Bool := !isAsciiBlank c && c != ','

/-- After the given names in forward order: initial, family name, end. -/
def forwardRest? (suffixes : List (List Char)) (cs : List Char) :
    Option (List Char × Option (List Char)) := do
  let rest := (← afterInitial? cs).dropWhile isAsciiBlank
  let family := rest.takeWhile isFamilyChar
  if family.isEmpty then none
  else return (family, ← ending? suffixes (rest.dropWhile isFamilyChar))

/-- After the given names in inverted order: an initial or none, end. The reading with an initial is
tried first. -/
def invertedRest? (suffixes : List (List Char)) (cs : List Char) : Option (Option (List Char)) :=
  ((afterInitial? cs).bind (ending? suffixes)).or (ending? suffixes cs)

/-- Given names, initial, family name: `Robert R. McCammon`. -/
def ofForward? (suffixes : List (List Char)) (cs : List Char) : Option AuthorName :=
  (givenThen? (forwardRest? suffixes) [] 0 cs).map fun found =>
    ⟨found.1, found.2.1, found.2.2⟩

/-- Family name, comma, given names: `McCammon, Robert R.` As few given names are taken as leave an
end behind them, so a suffix is not read as a given name. -/
def ofInverted? (suffixes : List (List Char)) (cs : List Char) : Option AuthorName :=
  let family := cs.takeWhile (· != ',')
  match cs.dropWhile (· != ',') with
  | [] => none
  | _ :: rest =>
    if family.isEmpty then none
    else (givenThen? (invertedRest? suffixes) [] 0 (rest.dropWhile isAsciiBlank)).map fun found =>
      ⟨found.1, family, found.2⟩

/-- The name as it is searched for. -/
def display (name : AuthorName) : String :=
  trim (String.ofList name.given) ++ " " ++ trim (String.ofList name.family) ++
    match name.suffix with
    | some suffix => " " ++ String.ofList suffix
    | none => ""

/-- The suffixes of a rule table. -/
def suffixesOf (rules : Rules) : List (List Char) :=
  (vocabulary rules.nameSuffixes).map String.toList

/-- Reads a trimmed name, forward order first. -/
def ofText? (rules : Rules) (author : String) : Option AuthorName :=
  let suffixes := suffixesOf rules
  (ofForward? suffixes author.toList).or (ofInverted? suffixes author.toList)

end AuthorName

/-- Simplifies a name. One that cannot be read stays as it is. -/
def Simplifier.simplifyAuthor (s : Simplifier) (author : String) : Outcome :=
  let author := Text.trim author
  match AuthorName.ofText? s.rules author with
  | some name => Outcome.ofCandidate name.display author
  | none => .unchanged

end ReleaseSearch
