import ReleaseSearch.Rules

/-! A simplifier is a rule table that has been accepted: it names at least one series marker. -/
namespace ReleaseSearch

structure Simplifier where
  rules : Rules
  has_markers : rules.seriesMarkers ≠ []
deriving DecidableEq

namespace Simplifier

/-- Accepts every table with a series marker, blank or not. An entry is read letter by letter, so none
of them can be malformed; that their patterns stay within the limit on the size of a pattern is taken
for granted. -/
def ofRules (rules : Rules) : Except Rules.Error Simplifier :=
  if h : rules.seriesMarkers = [] then .error (.emptyVocabulary "series_markers")
  else .ok ⟨rules, h⟩

/-- The simplifier of the default rules. -/
def standard : Simplifier := ⟨{}, by decide⟩

end Simplifier

end ReleaseSearch
