import ReleaseSearch.Proofs.Title.Annotation
import ReleaseSearch.Proofs.Title.Colon

/-! The order of the title rules. A subtitle that stands behind the first colon decides alone. A
series that stands before it decides when no such subtitle does. Where neither stands there, the
title is simplified as if nothing were known of it. -/
namespace ReleaseSearch
open Text

namespace Title

/-- The known subtitle is the part behind the colon, blanks aside. -/
def SubtitleIs (subtitle : Option String) (rest : String) : Prop :=
  subtitle.map trim = some (trim rest)

/-- The known series is the part before the colon, case and blanks aside. -/
def SeriesIs (series : Option String) (main : String) : Prop :=
  ∃ name ∈ series, lower (trim main) = lower (trim name)

theorem seriesIs_iff (series : Option String) (main : String) :
    series.any (sameName main) = true ↔ SeriesIs series main := by
  cases series <;> simp [SeriesIs, sameName]

instance (subtitle : Option String) (rest : String) : Decidable (SubtitleIs subtitle rest) :=
  inferInstanceAs (Decidable (_ = _))

instance (series : Option String) (main : String) : Decidable (SeriesIs series main) :=
  decidable_of_iff _ (seriesIs_iff series main)

end Title

open Title

namespace Simplifier

variable (s : Simplifier) {title : String} {subtitle series : Option String}

section Colon

variable {main rest : String} (colon : FirstColon (trim title) main rest)
include colon

theorem simplifyTitle_of_subtitle (told : SubtitleIs subtitle rest) :
    s.simplifyTitle title subtitle series =
      if s.rules.isSeriesMarker (trim rest) then .unchanged
      else if s.rules.isDescriptive (trim rest) then
        if trim main = "" then .unchanged else .simplified (trim main)
      else .simplified (trim rest) := by
  have parted := parts?_eq_some_iff.mpr ⟨rest, colon, rfl⟩
  have same : subtitle.map trim = some (trim rest) := told
  have clear := trimmed_trim title
  simp only [simplifyTitle, parted, if_pos same, ofSubtitle, colon.ofCandidate_main clear,
    colon.ofCandidate_rest clear]

theorem simplifyTitle_of_series (other : ¬ SubtitleIs subtitle rest) (told : SeriesIs series main) :
    s.simplifyTitle title subtitle series = .simplified (trim rest) := by
  have parted := parts?_eq_some_iff.mpr ⟨rest, colon, rfl⟩
  have unlike : ¬ subtitle.map trim = some (trim rest) := other
  simp only [simplifyTitle, parted, if_neg unlike, if_pos ((seriesIs_iff series main).mpr told),
    colon.ofCandidate_rest (trimmed_trim title)]

theorem simplifyTitle_of_neither (other : ¬ SubtitleIs subtitle rest)
    (stranger : ¬ SeriesIs series main) :
    s.simplifyTitle title subtitle series = s.simplifyTitle title none none := by
  have parted := parts?_eq_some_iff.mpr ⟨rest, colon, rfl⟩
  have unlike : ¬ subtitle.map trim = some (trim rest) := other
  have unnamed := (seriesIs_iff series main).not.mpr stranger
  rw [simplifyTitle_unknown]
  simp only [simplifyTitle, parted, if_neg unlike, if_neg unnamed]

end Colon

theorem simplifyTitle_of_no_colon (plain : ¬ ∃ main rest, FirstColon (trim title) main rest) :
    s.simplifyTitle title subtitle series = s.simplifyTitle title none none := by
  have whole := parts?_eq_none_iff.mpr plain
  simp only [simplifyTitle, whole]

theorem simplifyTitle_of_untold (untold : ¬ ∃ main rest, FirstColon (trim title) main rest ∧
    (SubtitleIs subtitle rest ∨ SeriesIs series main)) :
    s.simplifyTitle title subtitle series = s.simplifyTitle title none none := by
  by_cases colon : ∃ main rest, FirstColon (trim title) main rest
  · obtain ⟨main, rest, colon⟩ := colon
    refine s.simplifyTitle_of_neither colon ?_ ?_
    · exact fun told => untold ⟨main, rest, colon, Or.inl told⟩
    · exact fun told => untold ⟨main, rest, colon, Or.inr told⟩
  · exact s.simplifyTitle_of_no_colon colon

/-- Of the subtitle it counts only whether it is the part behind the colon, and of the series only
whether it is the part before the colon, where the subtitle is not the other part. -/
theorem simplifyTitle_congr {subtitle' series' : Option String}
    (alike : ∀ main rest, FirstColon (trim title) main rest →
      (SubtitleIs subtitle rest ↔ SubtitleIs subtitle' rest) ∧
      (¬ SubtitleIs subtitle rest → (SeriesIs series main ↔ SeriesIs series' main))) :
    s.simplifyTitle title subtitle series = s.simplifyTitle title subtitle' series' := by
  by_cases colon : ∃ main rest, FirstColon (trim title) main rest
  · obtain ⟨main, rest, colon⟩ := colon
    obtain ⟨same_subtitle, same_series⟩ := alike main rest colon
    by_cases told : SubtitleIs subtitle rest
    · rw [s.simplifyTitle_of_subtitle colon told,
        s.simplifyTitle_of_subtitle colon (same_subtitle.mp told)]
    · have untold := same_subtitle.not.mp told
      by_cases named : SeriesIs series main
      · rw [s.simplifyTitle_of_series colon told named,
          s.simplifyTitle_of_series colon untold ((same_series told).mp named)]
      · rw [s.simplifyTitle_of_neither colon told named,
          s.simplifyTitle_of_neither colon untold ((same_series told).not.mp named)]
  · exact (s.simplifyTitle_of_no_colon colon).trans (s.simplifyTitle_of_no_colon colon).symm

/-- The rules for a title, in their order. A subtitle that stands behind the first colon decides
alone, whatever the series. A series that stands before the colon is cut off, when no such subtitle
decides. Otherwise nothing is used that is known of the book. -/
theorem simplifyTitle_precedence (s : Simplifier) (title : String)
    (subtitle series : Option String) :
    ((∃ main rest, FirstColon (trim title) main rest) ↔ ": ".toList <:+: (trim title).toList) ∧
    (∀ main rest, FirstColon (trim title) main rest → SubtitleIs subtitle rest →
      s.simplifyTitle title subtitle series =
        if s.rules.isSeriesMarker (trim rest) then .unchanged
        else if s.rules.isDescriptive (trim rest) then
          if trim main = "" then .unchanged else .simplified (trim main)
        else .simplified (trim rest)) ∧
    (∀ main rest, FirstColon (trim title) main rest → ¬ SubtitleIs subtitle rest →
      SeriesIs series main → s.simplifyTitle title subtitle series = .simplified (trim rest)) ∧
    ((¬ ∃ main rest, FirstColon (trim title) main rest ∧
        (SubtitleIs subtitle rest ∨ SeriesIs series main)) →
      s.simplifyTitle title subtitle series = s.simplifyTitle title none none) ∧
    ∀ subtitle' series',
      (∀ main rest, FirstColon (trim title) main rest →
        (SubtitleIs subtitle rest ↔ SubtitleIs subtitle' rest) ∧
        (¬ SubtitleIs subtitle rest → (SeriesIs series main ↔ SeriesIs series' main))) →
      s.simplifyTitle title subtitle series = s.simplifyTitle title subtitle' series' :=
  ⟨exists_firstColon_iff, fun _ _ => s.simplifyTitle_of_subtitle,
    fun _ _ => s.simplifyTitle_of_series, s.simplifyTitle_of_untold,
    fun _ _ => s.simplifyTitle_congr⟩

theorem simplifyTitle_precedence_two_colons :
    let title := "\u00a0Saga: Vol. 2: Return of the King "
    let rest := "Vol. 2: Return of the King"
    FirstColon (trim title) "Saga" rest ∧
      SubtitleIs (some " Vol. 2: Return of the King\n") rest ∧
      standard.simplifyTitle title (some " Vol. 2: Return of the King\n") (some "Saga") =
        .simplified "Saga" ∧
      ¬ SubtitleIs (some "Return of the King") rest ∧ SeriesIs (some " SAGA") "Saga" ∧
      standard.simplifyTitle title (some "Return of the King") (some " SAGA") = .simplified rest ∧
      (¬ ∃ main rest, FirstColon (trim title) main rest ∧
        (SubtitleIs none rest ∨ SeriesIs (some "Saga: Vol. 2") main)) ∧
      standard.simplifyTitle title none (some "Saga: Vol. 2") =
        standard.simplifyTitle title none none ∧
      standard.simplifyTitle title none (some "Saga: Vol. 2") =
        standard.simplifyTitle title (some "") none := by
  intro title rest
  have colon : FirstColon (trim title) "Saga" rest := by decide +kernel
  have told : SubtitleIs (some " Vol. 2: Return of the King\n") rest := by decide +kernel
  have other : ¬ SubtitleIs (some "Return of the King") rest := by decide +kernel
  have named : SeriesIs (some " SAGA") "Saga" := by decide +kernel
  have untold : ¬ SubtitleIs none rest ∧ ¬ SeriesIs (some "Saga: Vol. 2") "Saga" := by
    decide +kernel
  have neither : ¬ ∃ main rest, FirstColon (trim title) main rest ∧
      (SubtitleIs none rest ∨ SeriesIs (some "Saga: Vol. 2") main) := by
    rintro ⟨main, behind, parted, known⟩
    obtain ⟨rfl, rfl⟩ := parted.unique colon
    exact known.elim untold.1 untold.2
  have first := (simplifyTitle_precedence standard title (some " Vol. 2: Return of the King\n")
    (some "Saga")).2.1 _ _ colon told
  have second := (simplifyTitle_precedence standard title (some "Return of the King")
    (some " SAGA")).2.2.1 _ _ colon other named
  obtain ⟨_, _, _, third, alike⟩ :=
    simplifyTitle_precedence standard title none (some "Saga: Vol. 2")
  refine ⟨colon, told, ?_, other, named, ?_, neither, third neither, alike _ _ ?_⟩
  · rw [first]
    decide +kernel
  · rw [second]
    decide +kernel
  · intro main behind parted
    obtain ⟨rfl, rfl⟩ := parted.unique colon
    decide +kernel

end Simplifier

end ReleaseSearch
