import Mathlib.Data.List.Forall2
import ReleaseSearch.Proofs.Title.Subtitle

/-! Which subtitles are descriptive. The text alone tells the words that are compared, and they tell
the answer: too many words, or the words of a phrase side by side. More words around a subtitle, a
lower limit and more phrases can only make it descriptive. -/
namespace ReleaseSearch
open Text

namespace Subtitle

/-- The words of a text as they are compared: without the signs at their ends, in small letters, and
none that held nothing but signs. -/
def ComparedWords (text : String) (compared : List (List Char)) : Prop :=
  ∃ words cores, Worded isBlank text.toList words ∧
    List.Forall₂ (Stripped fun c => !isAlphanumeric c) cores words ∧
    compared = (cores.map lowerChars).filter (· ≠ [])

/-- The words of a phrase of the table, in small letters. -/
def LoweredWords (phrase : String) (lowered : List (List Char)) : Prop :=
  ∃ words, Worded isBlank phrase.toList words ∧ lowered = words.map lowerChars

theorem forall₂_stripped_iff {p : Char → Bool} {cores words : List (List Char)} :
    List.Forall₂ (Stripped p) cores words ↔ cores = words.map (stripWhile p) := by
  rw [← List.forall₂_eq_eq_eq, List.forall₂_map_right_iff]
  exact ⟨.imp fun _ _ => stripped_iff.mp, .imp fun _ _ => stripped_iff.mpr⟩

theorem comparedWords_iff {text : String} {compared : List (List Char)} :
    ComparedWords text compared ↔ compared = significantWords text := by
  have listed : significantWords text = (((words text).map
      (stripWhile fun c => !isAlphanumeric c)).map lowerChars).filter (· ≠ []) := by
    rw [significantWords, List.map_map]
    refine List.filter_congr fun word _ => ?_
    cases word <;> rfl
  rw [ComparedWords, listed]
  constructor
  · rintro ⟨_, cores, worded, stripped, rfl⟩
    rw [forall₂_stripped_iff.mp stripped, ← worded_iff.mp worded, words]
  · rintro rfl
    exact ⟨_, _, worded_iff.mpr rfl, forall₂_stripped_iff.mpr rfl, rfl⟩

theorem loweredWords_iff {phrase : String} {lowered : List (List Char)} :
    LoweredWords phrase lowered ↔ lowered = phraseWords phrase := by
  rw [LoweredWords, phraseWords, words]
  constructor
  · rintro ⟨words, worded, rfl⟩
    rw [worded_iff.mp worded]
  · rintro rfl
    exact ⟨_, worded_iff.mpr rfl, rfl⟩

end Subtitle

namespace Rules

open Subtitle

theorem isDescriptive_of_wider {rules wider : Rules}
    (limit : wider.maxShortSubtitleWords ≤ rules.maxShortSubtitleWords)
    (more : rules.connectingPhrases ⊆ wider.connectingPhrases) {subtitle : String}
    (h : rules.isDescriptive subtitle = true) : wider.isDescriptive subtitle = true := by
  rw [isDescriptive_iff] at h ⊢
  rcases h with long | ⟨phrase, listed, found⟩
  · exact Or.inl (Nat.lt_of_le_of_lt limit long)
  · exact Or.inr ⟨phrase, more listed, found⟩

/-- A subtitle is descriptive exactly when it has more words than the limit or holds the words of a
phrase side by side. It stays so with any words around it, under a lower limit and in a table with
more phrases. -/
theorem isDescriptive_exactly (rules : Rules) (subtitle : String) :
    (∃! compared, ComparedWords subtitle compared) ∧
    (∀ compared, ComparedWords subtitle compared →
      (rules.isDescriptive subtitle = true ↔
        rules.maxShortSubtitleWords < compared.length ∨
          ∃ phrase ∈ rules.connectingPhrases, ∃ lowered, LoweredWords phrase lowered ∧
            lowered ≠ [] ∧ lowered <:+: compared)) ∧
    (rules.isDescriptive subtitle = true →
      (∀ before behind,
        rules.isDescriptive (before ++ " " ++ subtitle ++ " " ++ behind) = true) ∧
      ∀ wider : Rules, wider.maxShortSubtitleWords ≤ rules.maxShortSubtitleWords →
        rules.connectingPhrases ⊆ wider.connectingPhrases →
          wider.isDescriptive subtitle = true) := by
  refine ⟨⟨_, comparedWords_iff.mpr rfl, fun _ => comparedWords_iff.mp⟩, ?_, ?_⟩
  · intro compared told
    have worded : ∀ phrase, trim phrase ≠ "" ↔ phraseWords phrase ≠ [] := by
      intro phrase
      rw [Ne, Ne, ← words_eq_nil_iff, phraseWords, List.map_eq_nil_iff]
    simp only [isDescriptive_iff, comparedWords_iff.mp told, loweredWords_iff, worded,
      exists_eq_left]
  · intro descriptive
    exact ⟨(rules.isDescriptive_around_all_iff subtitle).mpr descriptive,
      fun wider limit more => isDescriptive_of_wider limit more descriptive⟩

theorem isDescriptive_exactly_signs :
    let rules : Rules := { maxShortSubtitleWords := 5, connectingPhrases := ["Of the"] }
    let wider : Rules := { maxShortSubtitleWords := 2, connectingPhrases := ["vs.", "Of the"] }
    let subtitle := "(Return) of the \u2014 King!"
    let compared := ["return", "of", "the", "king"].map String.toList
    ComparedWords subtitle compared ∧
      (∃ phrase ∈ rules.connectingPhrases, ∃ lowered, LoweredWords phrase lowered ∧
        lowered ≠ [] ∧ lowered <:+: compared) ∧
      rules.isDescriptive subtitle = true ∧
      rules.isDescriptive ("The" ++ " " ++ subtitle ++ " " ++ "& After") = true ∧
      wider.maxShortSubtitleWords ≤ rules.maxShortSubtitleWords ∧
      rules.connectingPhrases ⊆ wider.connectingPhrases ∧ wider.isDescriptive subtitle = true := by
  intro rules wider subtitle compared
  have told : ComparedWords subtitle compared := comparedWords_iff.mpr (by decide +kernel)
  have phrase : LoweredWords "Of the" ["of".toList, "the".toList] :=
    loweredWords_iff.mpr (by decide +kernel)
  have found : ∃ phrase ∈ rules.connectingPhrases, ∃ lowered, LoweredWords phrase lowered ∧
      lowered ≠ [] ∧ lowered <:+: compared :=
    ⟨_, List.mem_singleton_self _, _, phrase, by decide, ["return".toList], ["king".toList], rfl⟩
  have limit : wider.maxShortSubtitleWords ≤ rules.maxShortSubtitleWords := by decide
  have more : rules.connectingPhrases ⊆ wider.connectingPhrases := by decide
  obtain ⟨_, exactly, monotone⟩ := isDescriptive_exactly rules subtitle
  have descriptive := (exactly compared told).mpr (Or.inr found)
  obtain ⟨around, wide⟩ := monotone descriptive
  exact ⟨told, found, descriptive, around _ _, limit, more, wide wider limit more⟩

end Rules

end ReleaseSearch
