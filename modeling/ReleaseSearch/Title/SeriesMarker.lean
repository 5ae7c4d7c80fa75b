import ReleaseSearch.Rules
import ReleaseSearch.Text.Ascii

/-! Series markers: a word of the marker table, a gap, and an arabic or roman number. -/
namespace ReleaseSearch

namespace SeriesMarker

open Text

def isRomanLetter (c : Char) : Bool :=
  ['i', 'v', 'x', 'l', 'c', 'd', 'm'].contains c.toLower

/-- Digits only, or roman letters only. -/
def isNumber (cs : List Char) : Bool :=
  !cs.isEmpty && (cs.all Char.isDigit || cs.all isRomanLetter)

/-- A marker that ends with a period may touch its number; any other one may not. -/
def mayTouch (marker : List Char) : Bool := marker.getLast? == some '.'

/-- The number behind a marker and a gap, to the end of the text. -/
def numberAfter? (marker cs : List Char) : Option (List Char) :=
  let number := cs.dropWhile isAsciiBlank
  if isNumber number && (mayTouch marker || number.length < cs.length) then some number else none

/-- The number behind the first marker that leaves one, the case of ASCII letters aside. -/
def markedNumber? (markers : List (List Char)) (text : List Char) : Option (List Char) :=
  firstMatch? sameLetter numberAfter? markers text

end SeriesMarker

/-- Whether the text is a bare place in a series. A table whose entries are all blank has no word to
ask for, and then a number alone is one. -/
def Rules.isSeriesMarker (rules : Rules) (text : String) : Bool :=
  let cs := (Text.trim text).toList
  match vocabulary rules.seriesMarkers with
  | [] => SeriesMarker.isNumber cs
  | markers => (SeriesMarker.markedNumber? (markers.map String.toList) cs).isSome

end ReleaseSearch
