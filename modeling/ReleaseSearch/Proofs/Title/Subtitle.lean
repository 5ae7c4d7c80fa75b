import ReleaseSearch.Proofs.Text.SmallLetters
import ReleaseSearch.Proofs.Text.Words
import ReleaseSearch.Simplifier
import ReleaseSearch.Title.Subtitle

/-! Connecting phrases in a subtitle. The words of a subtitle are compared without the signs at their
ends, those of a phrase with them. So a phrase is found wherever it stands when its words have no
such signs, and is not found in itself when one of them has. -/
namespace ReleaseSearch
open Text

namespace Text

theorem length_formAt (before : List Char) (c : Char) (rest : List Char) :
    (formAt before c rest).length = (lowerChar c).length := by
  unfold formAt
  split
  · rename_i sigma
    have single : (lowerChar 'Σ').length = 1 := by decide +kernel
    rw [sigma, single]
    split <;> rfl
  · rfl

theorem length_lowerAfter (before cs : List Char) :
    (lowerAfter before cs).length = (cs.flatMap lowerChar).length := by
  induction cs generalizing before with
  | nil => rfl
  | cons c rest ih =>
    rw [lowerAfter_cons, List.flatMap_cons, List.length_append, List.length_append, length_formAt, ih]

/-- What is cut from a text is missed in its small letters. -/
theorem stripWhile_eq_of_length_lower {p : Char → Bool} {cs : List Char}
    (same : (lowerChars (stripWhile p cs)).length = (lowerChars cs).length) :
    stripWhile p cs = cs := by
  obtain ⟨front, back, _, _, split⟩ := exists_stripWhile p cs
  have lengths := same
  rw [lowerChars, lowerChars, length_lowerAfter, length_lowerAfter] at lengths
  generalize stripWhile p cs = core at split lengths ⊢
  have empty : ∀ part : List Char, (part.flatMap lowerChar).length = 0 → part = [] := by
    intro part none_there
    rw [← length_lowerAfter [], List.length_eq_zero_iff, lowerAfter_eq_nil_iff] at none_there
    exact none_there
  simp only [split, List.flatMap_append, List.length_append] at lengths
  rw [split, empty front (by omega), empty back (by omega), List.nil_append, List.append_nil]

end Text

namespace Subtitle

/-- The word begins with a letter or a digit and ends with one. -/
def PlainWord (word : List Char) : Prop :=
  word.head?.any isAlphanumeric = true ∧ word.getLast?.any isAlphanumeric = true

instance : DecidablePred PlainWord := fun _ => inferInstanceAs (Decidable (_ ∧ _))

theorem plainWord_iff (word : List Char) :
    PlainWord word ↔ word ≠ [] ∧ ClearEnds (fun c => !isAlphanumeric c) word := by
  by_cases filled : word = []
  · rw [filled]
    simp [PlainWord]
  · rw [PlainWord, ClearEnds, List.head?_eq_some_head filled, List.getLast?_eq_some_getLast filled]
    simp [filled]

theorem comparable_of_plain {word : List Char} (h : PlainWord word) :
    comparable word = lowerChars word ∧ comparable word ≠ [] := by
  obtain ⟨filled, clear⟩ := (plainWord_iff word).mp h
  rw [comparable, stripWhile_of_clearEnds clear]
  exact ⟨rfl, fun empty => filled ((lowerAfter_eq_nil_iff [] word).mp empty)⟩

theorem plain_of_comparable {word : List Char} (same : comparable word = lowerChars word)
    (filled : comparable word ≠ []) : PlainWord word := by
  have uncut : stripWhile (fun c => !isAlphanumeric c) word = word :=
    stripWhile_eq_of_length_lower (congrArg List.length same)
  rw [plainWord_iff]
  constructor
  · rintro rfl
    exact filled rfl
  · rw [← uncut]
    exact clearEnds_stripWhile _ word

theorem occursIn_iff (needle text : List (List Char)) :
    occursIn needle text = true ↔ needle <:+: text := by
  induction text with
  | nil => rw [occursIn, List.isEmpty_iff, List.infix_nil]
  | cons word rest ih =>
    rw [occursIn, Bool.or_eq_true, List.isPrefixOf_iff_prefix, ih, List.infix_cons_iff]

theorem holdsPhrase_iff (text : List (List Char)) (phrase : String) :
    holdsPhrase text phrase = true ↔ trim phrase ≠ "" ∧ phraseWords phrase <:+: text := by
  have worded : (!(phraseWords phrase).isEmpty) = true ↔ trim phrase ≠ "" := by
    rw [Ne, ← words_eq_nil_iff, phraseWords]
    simp
  rw [holdsPhrase, Bool.and_eq_true, worded, occursIn_iff]

theorem significantWords_append_space (s t : String) :
    significantWords (s ++ " " ++ t) = significantWords s ++ significantWords t := by
  rw [significantWords, words_append_space, List.map_append, List.filter_append]
  rfl

theorem length_significantWords_le (phrase : String) :
    (significantWords phrase).length ≤ (phraseWords phrase).length := by
  have kept := List.length_filter_le (fun word => !word.isEmpty) ((words phrase).map comparable)
  rw [List.length_map] at kept
  rwa [phraseWords, List.length_map]

/-- A phrase has no more words than it is looked for with, so it is found in itself only when these
are its words. -/
theorem phraseWords_infix_iff (phrase : String) :
    phraseWords phrase <:+: significantWords phrase ↔ ∀ word ∈ words phrase, PlainWord word := by
  constructor
  · intro found
    have lengths := Nat.le_antisymm found.length_le (length_significantWords_le phrase)
    have same := found.eq_of_length lengths
    have whole : (significantWords phrase).length = ((words phrase).map comparable).length := by
      rw [← lengths, phraseWords, List.length_map, List.length_map]
    have filled := List.length_filter_eq_length_iff.mp whole
    rw [significantWords, List.filter_eq_self.mpr filled, phraseWords, List.map_inj_left] at same
    intro word member
    refine plain_of_comparable (same word member).symm ?_
    simpa using filled _ (List.mem_map_of_mem member)
  · intro plain
    have filled : ∀ word ∈ (words phrase).map comparable, (!word.isEmpty) = true := by
      intro _ member
      obtain ⟨word, listed, rfl⟩ := List.mem_map.mp member
      simpa using (comparable_of_plain (plain word listed)).2
    have same : (words phrase).map comparable = phraseWords phrase :=
      List.map_congr_left fun word member => (comparable_of_plain (plain word member)).1
    have whole : significantWords phrase = phraseWords phrase :=
      (List.filter_eq_self.mpr filled).trans same
    exact whole ▸ List.infix_rfl

end Subtitle

namespace Rules

open Subtitle

/-- The table without a connecting phrase. -/
def withoutPhrase (rules : Rules) (phrase : String) : Rules :=
  { rules with connectingPhrases := rules.connectingPhrases.filter (· ≠ phrase) }

variable (rules : Rules)

theorem isDescriptive_iff (subtitle : String) :
    rules.isDescriptive subtitle = true ↔
      rules.maxShortSubtitleWords < (significantWords subtitle).length ∨
        ∃ phrase ∈ rules.connectingPhrases, trim phrase ≠ "" ∧
          phraseWords phrase <:+: significantWords subtitle := by
  simp only [isDescriptive, Bool.or_eq_true, decide_eq_true_eq, List.any_eq_true, holdsPhrase_iff]

theorem isDescriptive_of_infix {part whole : String}
    (inside : significantWords part <:+: significantWords whole)
    (h : rules.isDescriptive part = true) : rules.isDescriptive whole = true := by
  rw [isDescriptive_iff] at h ⊢
  rcases h with long | ⟨phrase, listed, filled, found⟩
  · exact Or.inl (Nat.lt_of_lt_of_le long inside.length_le)
  · exact Or.inr ⟨phrase, listed, filled, found.trans inside⟩

theorem isDescriptive_around_all_iff (phrase : String) :
    (∀ before behind, rules.isDescriptive (before ++ " " ++ phrase ++ " " ++ behind) = true) ↔
      rules.isDescriptive phrase = true := by
  constructor
  · intro everywhere
    refine rules.isDescriptive_of_infix ?_ (everywhere "" "")
    have nothing : significantWords "" = [] := rfl
    have same : significantWords ("" ++ " " ++ phrase ++ " " ++ "") = significantWords phrase := by
      rw [significantWords_append_space, significantWords_append_space, nothing, List.nil_append,
        List.append_nil]
    exact same ▸ List.infix_rfl
  · intro alone before behind
    refine rules.isDescriptive_of_infix ?_ alone
    rw [significantWords_append_space, significantWords_append_space]
    exact List.infix_append _ _ _

/-- A phrase of the table makes every subtitle descriptive in which it stands as whole words exactly
when its words begin and end with letters or digits, or when it would be descriptive without being
in the table. -/
theorem isDescriptive_around_iff {phrase : String} (listed : phrase ∈ rules.connectingPhrases)
    (filled : trim phrase ≠ "") :
    (∀ before behind, rules.isDescriptive (before ++ " " ++ phrase ++ " " ++ behind) = true) ↔
      (∀ word ∈ words phrase, PlainWord word) ∨
        (rules.withoutPhrase phrase).isDescriptive phrase = true := by
  rw [isDescriptive_around_all_iff, isDescriptive_iff, isDescriptive_iff, ← phraseWords_infix_iff]
  simp only [withoutPhrase, List.mem_filter, decide_eq_true_eq]
  constructor
  · rintro (long | ⟨other, known, worded, found⟩)
    · exact Or.inr (Or.inl long)
    · by_cases same : other = phrase
      · rw [same] at found
        exact Or.inl found
      · exact Or.inr (Or.inr ⟨other, ⟨known, same⟩, worded, found⟩)
  · rintro (found | long | ⟨other, ⟨known, _⟩, worded, found⟩)
    · exact Or.inr ⟨phrase, listed, filled, found⟩
    · exact Or.inl long
    · exact Or.inr ⟨other, known, worded, found⟩

theorem isDescriptive_around_iff_signs :
    let rules : Rules := { connectingPhrases := ["Return to", "R & D"] }
    "Return to" ∈ rules.connectingPhrases ∧ trim "Return to" ≠ "" ∧
      (∀ word ∈ words "Return to", PlainWord word) ∧
      (∀ before behind, rules.isDescriptive (before ++ " " ++ "Return to" ++ " " ++ behind) = true) ∧
      "R & D" ∈ rules.connectingPhrases ∧ trim "R & D" ≠ "" ∧
      ¬ (∀ word ∈ words "R & D", PlainWord word) ∧
      (rules.withoutPhrase "R & D").isDescriptive "R & D" = false ∧
      ¬ ∀ before behind, rules.isDescriptive (before ++ " " ++ "R & D" ++ " " ++ behind) = true := by
  intro rules
  have listed : "Return to" ∈ rules.connectingPhrases ∧ "R & D" ∈ rules.connectingPhrases := by
    decide
  have filled : trim "Return to" ≠ "" ∧ trim "R & D" ≠ "" := by decide
  have plain : ∀ word ∈ words "Return to", PlainWord word := by decide +kernel
  have signs : ¬ ∀ word ∈ words "R & D", PlainWord word := by decide +kernel
  have alone : (rules.withoutPhrase "R & D").isDescriptive "R & D" = false := by decide +kernel
  have found := isDescriptive_around_iff rules listed.1 filled.1
  have missed := isDescriptive_around_iff rules listed.2 filled.2
  refine ⟨listed.1, filled.1, plain, found.mpr (Or.inl plain), listed.2, filled.2, signs, alone, ?_⟩
  rw [missed, alone]
  exact not_or.mpr ⟨signs, by decide⟩

/-- A phrase that ends with a period is not found where it stands. -/
theorem isDescriptive_misses_phrase :
    let rules : Rules := { connectingPhrases := ["vs."] }
    "vs." ∈ rules.connectingPhrases ∧ trim "vs." ≠ "" ∧
      rules.isDescriptive ("Cats" ++ " " ++ "vs." ++ " " ++ "Dogs") = false := by
  decide +kernel

end Rules

end ReleaseSearch
