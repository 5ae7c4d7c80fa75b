import ReleaseSearch.Proofs.Title.Precedence

/-! What a title is simplified to. It is always a piece of the title, shorter than the whole, and
never a text that only the caller knows. So a title that is simplified again and again, whatever
subtitle and series are given with it each time, is left as it is in the end. -/
namespace ReleaseSearch
open Text Title Annotation

/-- The pieces of a title: the parts around its first colon, and what its annotation follows. -/
inductive Title.Piece (title : String) : String → Prop where
  | main {main rest} : FirstColon title main rest → Piece title (trim main)
  | rest {main rest} : FirstColon title main rest → Piece title (trim rest)
  | kept {kept note} : Annotated title kept note → Piece title (trim kept)

namespace Title.Piece

variable {title text : String} (piece : Piece title text)
include piece

theorem length_lt : text.length < title.length := by
  cases piece with
  | main colon => exact colon.length_trim_lt.1
  | rest colon => exact colon.length_trim_lt.2
  | kept annotated => exact annotated.length_trim_lt

theorem prefix_or_suffix (clear : Trimmed title) :
    text.toList <+: title.toList ∨ text.toList <:+ title.toList := by
  cases piece with
  | main colon => exact Or.inl (prefix_of_front clear (split_colon_iff.mp colon.split))
  | @rest main rest colon =>
    have behind : title.toList = (main.toList ++ ": ".toList) ++ rest.toList := by
      rw [split_colon_iff.mp colon.split]
      simp
    exact Or.inr (suffix_of_back clear behind)
  | kept annotated => exact Or.inl (prefix_of_front clear (split_iff.mp annotated.split))

end Title.Piece

namespace Simplifier

variable (s : Simplifier) {title text : String}

theorem piece_of_simplified {subtitle series : Option String}
    (h : s.simplifyTitle title subtitle series = .simplified text) : Piece (trim title) text := by
  by_cases told : ∃ main rest, FirstColon (trim title) main rest ∧
      (SubtitleIs subtitle rest ∨ SeriesIs series main)
  · obtain ⟨main, rest, colon, known⟩ := told
    by_cases subtitled : SubtitleIs subtitle rest
    · rw [s.simplifyTitle_of_subtitle colon subtitled] at h
      split at h
      · cases h
      · split at h
        · split at h
          · cases h
          · cases h
            exact .main colon
        · cases h
          exact .rest colon
    · rw [s.simplifyTitle_of_series colon subtitled (known.resolve_left subtitled)] at h
      cases h
      exact .rest colon
  · rw [s.simplifyTitle_of_untold told, simplifyTitle_unknown,
      withoutAnnotation_eq_simplified_iff (trimmed_trim title)] at h
    obtain ⟨kept, note, annotated, rfl⟩ := h
    exact .kept annotated

/-- What a round answers, when each round is given what the one before it has made of the title,
with a subtitle and a series of its own. -/
def round (title : String) (subtitles series : Nat → Option String) : Nat → Outcome
  | 0 => s.simplifyTitle title (subtitles 0) (series 0)
  | n + 1 =>
    match round title subtitles series n with
    | .simplified text => s.simplifyTitle text (subtitles (n + 1)) (series (n + 1))
    | .unchanged => .unchanged

/-- A title loses a character in each round at least. -/
theorem length_of_round {subtitles series : Nat → Option String} {n : Nat}
    (h : s.round title subtitles series n = .simplified text) :
    text.length + n < (trim title).length := by
  induction n generalizing text with
  | zero => exact (s.piece_of_simplified h).length_lt
  | succ n ih =>
    rw [round] at h
    split at h
    · rename_i longer before
      -- the rounds before have cut `n` characters, and this one cuts at least one more
      have step := (s.piece_of_simplified h).length_lt
      have run := ih before
      have cut := length_trim_le longer
      omega
    · cases h

/-- A simplified title is not blank, has no blanks around it, and is a shorter piece of the title,
from its front or from its back. Whatever subtitles and series are given, a round comes that leaves
the title as it is. -/
theorem simplifyTitle_shortens (s : Simplifier) (title : String) :
    (∀ subtitle series text, s.simplifyTitle title subtitle series = .simplified text →
      text ≠ "" ∧ Trimmed text ∧ text.length < (trim title).length ∧
      (text.toList <+: (trim title).toList ∨ text.toList <:+ (trim title).toList) ∧
      Piece (trim title) text) ∧
    ∀ subtitles series, ∃ n ≤ (trim title).length,
      s.round title subtitles series n = .unchanged := by
  constructor
  · intro subtitle series text h
    have piece := s.piece_of_simplified h
    obtain ⟨tidy, _⟩ := s.improves_simplifyTitle title subtitle series text (by rw [h]; rfl)
    exact ⟨tidy.ne_empty, tidy.trimmed, piece.length_lt,
      piece.prefix_or_suffix (trimmed_trim title), piece⟩
  · intro subtitles series
    refine ⟨_, Nat.le_refl _, ?_⟩
    cases answer : s.round title subtitles series (trim title).length with
    | unchanged => rfl
    | simplified text =>
      have short := s.length_of_round answer
      omega

theorem simplifyTitle_shortens_twice :
    let title := " Saga: Dune (Deluxe) "
    let series : Nat → Option String := fun n => if n = 0 then some "SAGA" else some "Dune"
    standard.simplifyTitle title none (some "SAGA") = .simplified "Dune (Deluxe)" ∧
      "Dune (Deluxe)" ≠ "" ∧ Trimmed "Dune (Deluxe)" ∧
      "Dune (Deluxe)".length < (trim title).length ∧
      ("Dune (Deluxe)".toList <+: (trim title).toList ∨
        "Dune (Deluxe)".toList <:+ (trim title).toList) ∧
      Piece (trim title) "Dune (Deluxe)" ∧
      standard.round title (fun _ => none) series 1 = .simplified "Dune" ∧
      ∃ n ≤ (trim title).length, standard.round title (fun _ => none) series n = .unchanged := by
  intro title series
  have simplified :
      standard.simplifyTitle title none (some "SAGA") = .simplified "Dune (Deluxe)" := by
    decide +kernel
  obtain ⟨shorter, rounds⟩ := simplifyTitle_shortens standard title
  obtain ⟨filled, clear, short, ends, piece⟩ := shorter _ _ _ simplified
  exact ⟨simplified, filled, clear, short, ends, piece, by decide +kernel, rounds _ _⟩

end Simplifier

end ReleaseSearch
