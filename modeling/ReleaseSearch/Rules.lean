import ReleaseSearch.Text.Ascii
import ReleaseSearch.Text.Blank

/-! The vocabulary that steers how titles and names are simplified. -/
namespace ReleaseSearch

structure Rules where
  /-- Subtitles with more words than this describe the book. -/
  maxShortSubtitleWords : Nat := 4
  /-- Phrases that make a subtitle descriptive at any length. -/
  connectingPhrases : List String := ["through", "of the"]
  /-- Words that mark a place in a series when a number follows. -/
  seriesMarkers : List String :=
    ["book", "volume", "vol", "vol.", "part", "tome", "no", "no.", "number"]
  /-- Suffixes that stay at the end of a name. -/
  nameSuffixes : List String := ["Jr.", "Jr", "Sr.", "Sr", "II", "III", "IV"]
deriving DecidableEq

/-- The entries that count: those that are not blank, trimmed. -/
def vocabulary (entries : List String) : List String :=
  entries.filterMap Text.nonBlank

/-- Reads an entry of a vocabulary at the front of a text. The entries are tried in their order, and
one behind which `accept` refuses the rest gives way to the next. -/
def firstMatch? {α : Type} (same : Char → Char → Bool) (accept : List Char → List Char → Option α)
    (entries : List (List Char)) (cs : List Char) : Option α :=
  entries.findSome? fun entry => (Text.afterWord? same entry cs).bind (accept entry)

namespace Rules

/-- Why a table is refused. A vocabulary is taken to be small enough for its patterns to be built, so
there is no error for one that is too large. -/
inductive Error where
  /-- The named table has no entries. -/
  | emptyVocabulary (table : String)
deriving DecidableEq

def Error.message : Error → String
  | .emptyVocabulary table => "Rule vocabulary is empty: " ++ table

end Rules

end ReleaseSearch
