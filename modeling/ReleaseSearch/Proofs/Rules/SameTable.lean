import ReleaseSearch.Proofs.Author.Grammar
import ReleaseSearch.Proofs.Text.Words
import ReleaseSearch.Proofs.Title.SeriesMarker

/-! Rule tables that list the same entries. A suffix reaches to the end of a name, a number to the end
of a series marker, so whichever entry is tried first, the text admits one answer; and a phrase is
found wherever it stands. The order of the entries, their repeats and the blanks around them never
show. -/
namespace ReleaseSearch
open Text

namespace Subtitle

theorem holdsPhrase_trim (text : List (List Char)) (phrase : String) :
    holdsPhrase text (trim phrase) = holdsPhrase text phrase := by
  rw [holdsPhrase, holdsPhrase, phraseWords, phraseWords, words_trim]

theorem any_holdsPhrase_congr {xs ys : List String} (h : SameEntries xs ys)
    (text : List (List Char)) : xs.any (holdsPhrase text) = ys.any (holdsPhrase text) := by
  have strict : holdsPhrase text "" = false := rfl
  rw [← any_vocabulary (holdsPhrase_trim text) strict xs, h.any_eq,
    any_vocabulary (holdsPhrase_trim text) strict ys]

end Subtitle

namespace AuthorName

variable {suffixes others : List (List Char)}
  (listed : ∀ suffix, suffix ∈ suffixes ↔ suffix ∈ others)
include listed

/-- The suffix that is read reaches to the end of the name, so it is the same in any order. -/
theorem ending?_congr : ending? suffixes = ending? others := by
  have spaced : spacedSuffix? suffixes = spacedSuffix? others := by
    funext cs
    unfold spacedSuffix?
    congr 1
    funext word
    exact firstMatch?_congr (oneAnswer_wholeSuffix word) listed
  funext cs
  unfold ending?
  rw [spaced]

theorem ofForward?_congr : ofForward? suffixes = ofForward? others := by
  have rest : forwardRest? suffixes = forwardRest? others := by
    funext cs
    unfold forwardRest?
    rw [ending?_congr listed]
  funext cs
  rw [ofForward?, ofForward?, rest]

theorem ofInverted?_congr : ofInverted? suffixes = ofInverted? others := by
  have rest : invertedRest? suffixes = invertedRest? others := by
    funext cs
    rw [invertedRest?, invertedRest?, ending?_congr listed]
  funext cs
  unfold ofInverted?
  rw [rest]

end AuthorName

namespace Rules

/-- The same threshold, and tables with the same entries. -/
structure SameTable (r t : Rules) : Prop where
  maxShortSubtitleWords : r.maxShortSubtitleWords = t.maxShortSubtitleWords
  connectingPhrases : SameEntries r.connectingPhrases t.connectingPhrases
  seriesMarkers : SameEntries r.seriesMarkers t.seriesMarkers
  nameSuffixes : SameEntries r.nameSuffixes t.nameSuffixes

variable {r t : Rules}

theorem SameTable.isSeriesMarker (h : r.SameTable t) (text : String) :
    r.isSeriesMarker text = t.isSeriesMarker text := by
  have number := fun cs => firstMatch?_congr (SeriesMarker.oneAnswer_number cs)
    h.seriesMarkers.mem_spelled_iff
  rw [isSeriesMarker_eq, isSeriesMarker_eq, SeriesMarker.markedNumber?, SeriesMarker.markedNumber?,
    number]
  simp only [h.seriesMarkers.eq_nil_iff]

theorem SameTable.isDescriptive (h : r.SameTable t) (subtitle : String) :
    r.isDescriptive subtitle = t.isDescriptive subtitle := by
  rw [Rules.isDescriptive, Rules.isDescriptive, h.maxShortSubtitleWords,
    Subtitle.any_holdsPhrase_congr h.connectingPhrases]

theorem SameTable.ofSubtitle (h : r.SameTable t) (title main subtitle : String) :
    Title.ofSubtitle r title main subtitle = Title.ofSubtitle t title main subtitle := by
  rw [Title.ofSubtitle, Title.ofSubtitle, h.isSeriesMarker, h.isDescriptive]

theorem SameTable.ofText? (h : r.SameTable t) (author : String) :
    AuthorName.ofText? r author = AuthorName.ofText? t author := by
  have listed : ∀ suffix, suffix ∈ AuthorName.suffixesOf r ↔ suffix ∈ AuthorName.suffixesOf t :=
    h.nameSuffixes.mem_spelled_iff
  rw [AuthorName.ofText?, AuthorName.ofText?, AuthorName.ofForward?_congr listed,
    AuthorName.ofInverted?_congr listed]

end Rules

namespace Simplifier

theorem rules_of_ofRules {rules : Rules} {s : Simplifier} (h : ofRules rules = .ok s) :
    s.rules = rules := by
  unfold ofRules at h
  split at h
  · cases h
  · cases h
    rfl

/-- Two accepted tables with the same entries answer alike on every input. -/
theorem answers_of_sameTable {r t : Rules} {s u : Simplifier} (accepted : ofRules r = .ok s)
    (accepted' : ofRules t = .ok u) (same : r.SameTable t) :
    (∀ title subtitle series,
      s.simplifyTitle title subtitle series = u.simplifyTitle title subtitle series) ∧
    (∀ author, s.simplifyAuthor author = u.simplifyAuthor author) ∧
    (∀ text, s.rules.isSeriesMarker text = u.rules.isSeriesMarker text) ∧
    ∀ text, s.rules.isDescriptive text = u.rules.isDescriptive text := by
  rw [← rules_of_ofRules accepted, ← rules_of_ofRules accepted'] at same
  refine ⟨?_, ?_, same.isSeriesMarker, same.isDescriptive⟩
  · intro title subtitle series
    unfold simplifyTitle
    simp only [same.ofSubtitle]
  · intro author
    unfold simplifyAuthor
    simp only [same.ofText?]

theorem answers_of_sameTable_respelled :
    let r : Rules :=
      { connectingPhrases := ["of the"]
        seriesMarkers := ["vol.", "vol"]
        nameSuffixes := ["Jr", "Jr.", "III"] }
    let t : Rules :=
      { connectingPhrases := ["", " of the\t"]
        seriesMarkers := ["vol", "\u00a0vol. ", "vol", " "]
        nameSuffixes := ["III", "Jr.", " Jr ", "III"] }
    ∃ s u, ofRules r = .ok s ∧ ofRules t = .ok u ∧ r.SameTable t ∧
      s.simplifyTitle "Lord: Return of the King" (some "Return of the King") none =
        u.simplifyTitle "Lord: Return of the King" (some "Return of the King") none ∧
      u.simplifyTitle "Lord: Return of the King" (some "Return of the King") none =
        .simplified "Lord" ∧
      s.simplifyAuthor "King, Martin L., Jr." = u.simplifyAuthor "King, Martin L., Jr." ∧
      u.simplifyAuthor "King, Martin L., Jr." = .simplified "Martin King Jr." ∧
      s.rules.isSeriesMarker "Vol.3" = u.rules.isSeriesMarker "Vol.3" ∧
      u.rules.isSeriesMarker "Vol.3" = true := by
  intro r t
  have same : r.SameTable t := by
    have phrases : vocabulary r.connectingPhrases = ["of the"] ∧
        vocabulary t.connectingPhrases = ["of the"] := by decide +kernel
    have markers : vocabulary r.seriesMarkers = ["vol.", "vol"] ∧
        vocabulary t.seriesMarkers = ["vol", "vol.", "vol"] := by decide +kernel
    have endings : vocabulary r.nameSuffixes = ["Jr", "Jr.", "III"] ∧
        vocabulary t.nameSuffixes = ["III", "Jr.", "Jr", "III"] := by decide +kernel
    refine ⟨rfl, fun entry => ?_, fun entry => ?_, fun entry => ?_⟩
    · rw [phrases.1, phrases.2]
    · rw [markers.1, markers.2]
      simp [or_comm]
    · rw [endings.1, endings.2]
      simp [or_comm, or_left_comm]
  have alike := answers_of_sameTable (s := ⟨r, by decide⟩) (u := ⟨t, by decide⟩) rfl rfl same
  exact ⟨_, _, rfl, rfl, same, alike.1 _ _ _, by decide +kernel, alike.2.1 _, by decide +kernel,
    alike.2.2.1 _, by decide +kernel⟩

end Simplifier

end ReleaseSearch
