import ReleaseSearch.Author
import ReleaseSearch.Proofs.Text.Trim
import ReleaseSearch.Title

/-! What a simplification answers with. A simplified text is tidy, and is another one than the text
it was made from, trimmed. -/
namespace ReleaseSearch

open Text

/-- The outcome leaves the given text as it is, or improves on it. -/
def Outcome.Improves (o : Outcome) (given : String) : Prop :=
  ∀ text ∈ o.toOption, Tidy text ∧ text ≠ trim given

namespace Outcome

theorem toOption_eq_none_iff (o : Outcome) : o.toOption = none ↔ o = .unchanged := by
  cases o <;> simp [toOption]

theorem toOption_eq_some_iff (o : Outcome) (text : String) :
    o.toOption = some text ↔ o = .simplified text := by
  cases o <;> simp [toOption]

theorem improves_unchanged (given : String) : Improves .unchanged given := by
  intro text h
  cases h

theorem improves_ofCandidate (candidate given : String) :
    (ofCandidate candidate given).Improves given := by
  unfold ofCandidate
  dsimp only
  split
  · exact improves_unchanged given
  · rename_i kept
    rw [not_or] at kept
    intro text h
    cases h
    exact ⟨tidy_trim kept.1, kept.2⟩

theorem ofCandidate_eq_simplified_iff {candidate given text : String} :
    ofCandidate candidate given = .simplified text ↔
      trim candidate = text ∧ text ≠ "" ∧ text ≠ trim given := by
  unfold ofCandidate
  dsimp only
  split
  · rename_i same
    constructor
    · intro h
      cases h
    · rintro ⟨rfl, filled, other⟩
      exact absurd same (not_or.mpr ⟨filled, other⟩)
  · rename_i kept
    rw [not_or] at kept
    constructor
    · intro h
      cases h
      exact ⟨rfl, kept⟩
    · rintro ⟨rfl, _⟩
      rfl

/-- A candidate that is shorter than the given text counts unless it is blank. -/
theorem ofCandidate_of_shorter {candidate given : String}
    (shorter : (trim candidate).length < (trim given).length) :
    ofCandidate candidate given =
      if trim candidate = "" then .unchanged else .simplified (trim candidate) := by
  have other : trim candidate ≠ trim given := by
    intro same
    rw [same] at shorter
    exact Nat.lt_irrefl _ shorter
  simp only [ofCandidate, other, or_false]

/-- Only an outcome that leaves the text as it is has nothing else to offer. -/
theorem Improves.trim_textOr_eq_iff {o : Outcome} {given : String} (h : o.Improves given) :
    trim (o.textOr given) = trim given ↔ o = .unchanged := by
  cases o with
  | unchanged => exact ⟨fun _ => rfl, fun _ => rfl⟩
  | simplified text =>
    obtain ⟨tidy, other⟩ := h text rfl
    constructor
    · intro same
      exact absurd ((trim_of_trimmed tidy.trimmed).symm.trans same) other
    · intro impossible
      cases impossible

theorem Improves.trim_textOr {o : Outcome} {given : String} (h : o.Improves given) :
    trim (o.textOr given) = o.toOption.getD (trim given) := by
  cases o with
  | unchanged => rfl
  | simplified text =>
    obtain ⟨tidy, _⟩ := h text rfl
    exact trim_of_trimmed tidy.trimmed

theorem Improves.of_trim {o : Outcome} {given : String} (h : o.Improves (trim given)) :
    o.Improves given := by
  intro text simplified
  rw [← trim_trim given]
  exact h text simplified

end Outcome

open Outcome

theorem Title.improves_withoutAnnotation (title : String) :
    withoutAnnotation title |>.Improves title := by
  unfold withoutAnnotation
  split
  · exact improves_ofCandidate _ title
  · exact improves_unchanged title

theorem Title.improves_ofSubtitle (rules : Rules) (title main subtitle : String) :
    (ofSubtitle rules title main subtitle).Improves title := by
  unfold ofSubtitle
  split
  · exact improves_unchanged title
  · split
    · exact improves_ofCandidate main title
    · exact improves_ofCandidate subtitle title

namespace Simplifier

variable (s : Simplifier)

theorem improves_simplifyTitle (title : String) (subtitle series : Option String) :
    (s.simplifyTitle title subtitle series).Improves title := by
  apply Improves.of_trim
  unfold simplifyTitle
  dsimp only
  split
  · rename_i main rest _
    split
    · exact Title.improves_ofSubtitle s.rules _ main rest
    · split
      · exact improves_ofCandidate rest _
      · exact Title.improves_withoutAnnotation _
  · exact Title.improves_withoutAnnotation _

theorem improves_simplifyAuthor (author : String) :
    (s.simplifyAuthor author).Improves author := by
  apply Improves.of_trim
  unfold simplifyAuthor
  dsimp only
  split
  · exact improves_ofCandidate _ _
  · exact improves_unchanged _

theorem simplifyTitle_trimmed {title title' : String} {subtitle subtitle' : Option String}
    {series series' : Option String} (same_title : trim title = trim title')
    (same_subtitle : subtitle.map trim = subtitle'.map trim)
    (same_series : series.map trim = series'.map trim) :
    s.simplifyTitle title subtitle series = s.simplifyTitle title' subtitle' series' := by
  have test : ∀ (main : String) (series : Option String), series.any (Title.sameName main) =
      (series.map trim).any fun name => lower (trim main) == lower name := by
    intro main series
    rw [Option.any_map]
    rfl
  unfold simplifyTitle
  simp only [same_title, same_subtitle, test, same_series]

theorem simplifyAuthor_trimmed {author author' : String} (same : trim author = trim author') :
    s.simplifyAuthor author = s.simplifyAuthor author' := by
  rw [simplifyAuthor, simplifyAuthor, same]

/-- A blank name has no given name to begin with. -/
theorem simplifyAuthor_of_blank {author : String} (blank : trim author = "") :
    s.simplifyAuthor author = .unchanged := by
  unfold simplifyAuthor
  rw [blank]
  rfl

end Simplifier

end ReleaseSearch
