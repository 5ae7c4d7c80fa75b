import ReleaseSearch.Rules
import ReleaseSearch.Text.Alphanumeric
import ReleaseSearch.Text.Case

/-! Descriptive subtitles: long ones, and those that hold a connecting phrase. -/
namespace ReleaseSearch

namespace Subtitle

open Text

/-- A word as it is compared: without the signs at its ends, in small letters. -/
def comparable (word : List Char) : List Char :=
  lowerChars (stripWhile (fun c => !isAlphanumeric c) word)

/-- The words that hold a letter or a digit, as they are compared. -/
def significantWords (subtitle : String) : List (List Char) :=
  ((words subtitle).map comparable).filter fun word => !word.isEmpty

/-- The words of a phrase of the table, in small letters and with their signs. -/
def phraseWords (phrase : String) : List (List Char) := (words phrase).map lowerChars

/-- Whether `needle` is a run of neighbours in the list. -/
def occursIn (needle : List (List Char)) : List (List Char) → Bool
  | [] => needle.isEmpty
  | word :: rest => needle.isPrefixOf (word :: rest) || occursIn needle rest

/-- Whether the phrase has words and they stand in the text, one after the other. -/
def holdsPhrase (text : List (List Char)) (phrase : String) : Bool :=
  let needle := phraseWords phrase
  !needle.isEmpty && occursIn needle text

end Subtitle

/-- Whether the subtitle describes the book, so that the main title is what to search for. -/
def Rules.isDescriptive (rules : Rules) (subtitle : String) : Bool :=
  let text := Subtitle.significantWords subtitle
  rules.maxShortSubtitleWords < text.length ||
    rules.connectingPhrases.any (Subtitle.holdsPhrase text)

end ReleaseSearch
