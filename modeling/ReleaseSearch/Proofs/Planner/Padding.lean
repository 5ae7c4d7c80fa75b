import ReleaseSearch.Proofs.Planner.Dependence
import ReleaseSearch.Proofs.Text.Padding
import ReleaseSearch.Proofs.Editions

/-! Blanks around the texts of a book. Every rule and every look-up trims what it reads, so a search
does not see them. -/
namespace ReleaseSearch
open Text

namespace Editions

/-- The same codes with titles that differ by blanks. The codes come in the same order, which counts
only where two of them have one normal form. -/
structure Respaced (e f : Editions) : Prop where
  titles : ∀ code, Option.Rel Text.Respaced (e.get? code) (f.get? code)
  order : e.keys = f.keys ∨ e.Unambiguous

variable {e f : Editions}

theorem Respaced.mem_keys (h : Respaced e f) (code : String) : code ∈ e.keys ↔ code ∈ f.keys := by
  have titles := h.titles code
  rw [Assoc.mem_keys_iff, Assoc.mem_keys_iff]
  generalize e.get? code = first, f.get? code = second at titles
  cases titles <;> simp

theorem Respaced.find?_keys (h : Respaced e f) (code : String) :
    e.keys.find? (Language.normalize · == code) = f.keys.find? (Language.normalize · == code) := by
  rcases h.order with same | distinct
  · rw [same]
  · have only : ∀ k ∈ e.keys, ∀ l ∈ e.keys, Language.normalize k = Language.normalize l → k = l := by
      have apart : (e.keys.map Language.normalize).Nodup := by
        rw [Assoc.keys, List.map_map]
        exact distinct
      exact fun k known l known' => List.inj_on_of_nodup_map apart known known'
    cases found : e.keys.find? (Language.normalize · == code) with
    | none =>
      symm
      rw [List.find?_eq_none] at found ⊢
      exact fun k member => found k ((h.mem_keys k).mpr member)
    | some k =>
      have fits : Language.normalize k = code := by simpa using List.find?_some found
      have known := List.mem_of_find?_eq_some found
      cases other : f.keys.find? (Language.normalize · == code) with
      | none =>
        have apart := List.find?_eq_none.mp other k ((h.mem_keys k).mp known)
        simp [fits] at apart
      | some l =>
        have fits' : Language.normalize l = code := by simpa using List.find?_some other
        have known' := (h.mem_keys l).mpr (List.mem_of_find?_eq_some other)
        rw [only k known l known' (fits.trans fits'.symm)]

theorem Respaced.find? (h : Respaced e f) (language : String) :
    Option.Rel Text.Respaced (Editions.find? e language) (Editions.find? f language) := by
  have exactly := h.titles (Language.normalize language)
  unfold Editions.find?
  dsimp only
  cases first : e.get? (Language.normalize language) with
  | some title =>
    rw [first] at exactly
    cases second : f.get? (Language.normalize language) with
    | some title' => rwa [second] at exactly
    | none =>
      rw [second] at exactly
      cases exactly
  | none =>
    rw [first] at exactly
    cases second : f.get? (Language.normalize language) with
    | some title' =>
      rw [second] at exactly
      cases exactly
    | none =>
      have scan := fun e : Editions =>
        Assoc.map_find?_entries e (Language.normalize · == Language.normalize language)
      simp only [scan, h.find?_keys]
      cases f.keys.find? (Language.normalize · == Language.normalize language) with
      | none => exact .none
      | some code => exact h.titles code

end Editions

namespace Book

/-- Two books whose texts differ by blanks at their ends. -/
structure Respaced (b c : Book) : Prop where
  title : Text.Respaced b.title c.title
  subtitle : Option.Rel Text.Respaced b.subtitle c.subtitle
  seriesName : Option.Rel Text.Respaced b.seriesName c.seriesName
  searchTitle : Option.Rel Text.Respaced b.searchTitle c.searchTitle
  authors : List.Forall₂ Text.Respaced b.authors c.authors
  searchAuthor : Option.Rel Text.Respaced b.searchAuthor c.searchAuthor
  titlesByLanguage : Editions.Respaced b.titlesByLanguage c.titlesByLanguage
  primaryLanguage : Option.Rel Text.Respaced b.primaryLanguage c.primaryLanguage
  isbn13 : Option.Rel Text.Respaced b.isbn13 c.isbn13
  isbn10 : Option.Rel Text.Respaced b.isbn10 c.isbn10

variable {b c : Book}

theorem Respaced.titleIn (h : b.Respaced c) (language : String) :
    b.titleIn language = c.titleIn language :=
  bind_eq_of_rel Text.Respaced.nonBlank_eq (h.titlesByLanguage.find? language)

theorem Respaced.declaredLanguage? (h : b.Respaced c) :
    b.declaredLanguage? = c.declaredLanguage? :=
  congrArg (·.filter (· ≠ "")) (map_eq_of_rel Text.Respaced.normalize_eq h.primaryLanguage)

theorem Respaced.simplifyTitle (h : b.Respaced c) (s : Simplifier) :
    s.simplifyTitle b.title b.subtitle b.seriesName =
      s.simplifyTitle c.title c.subtitle c.seriesName := by
  apply s.simplifyTitle_trimmed h.title.trim_eq
  · exact map_eq_of_rel Text.Respaced.trim_eq h.subtitle
  · exact map_eq_of_rel Text.Respaced.trim_eq h.seriesName

/-- A term that is set is set in both books; one that is not gets the same simplified text. -/
theorem Respaced.searchTitle? (h : b.Respaced c) (s : Simplifier) :
    (b.withSearchTerms s).searchTitle? = (c.withSearchTerms s).searchTitle? := by
  simp only [Book.searchTitle?, withSearchTerms, h.simplifyTitle s]
  have terms := h.searchTitle
  generalize b.searchTitle = first, c.searchTitle = second at terms
  cases terms with
  | none => rfl
  | some same => exact same.nonBlank_eq

theorem Respaced.primarySearchAuthor (h : b.Respaced c) (s : Simplifier) :
    (b.withSearchTerms s).primarySearchAuthor = (c.withSearchTerms s).primarySearchAuthor := by
  have first := rel_head? h.authors
  have named := bind_eq_of_rel Text.Respaced.nonBlank_eq first
  have simplified := bind_eq_of_rel (f := fun author => (s.simplifyAuthor author).toOption)
    (fun same => by rw [s.simplifyAuthor_trimmed same.trim_eq]) first
  simp only [Book.primarySearchAuthor, withSearchTerms, named, simplified]
  have terms := h.searchAuthor
  generalize b.searchAuthor = first, c.searchAuthor = second at terms
  cases terms with
  | none => rfl
  | some same => simp only [Option.some_or, Option.bind_some, same.nonBlank_eq]

end Book

namespace Planner

theorem sameSearch_of_respaced {b c : Book} (h : b.Respaced c) (p : Planner) (s : Simplifier)
    (languages : Option (List String)) :
    p.SameSearch languages (b.withSearchTerms s) (c.withSearchTerms s) where
  searchTitle := h.searchTitle? s
  title := by
    simp only [Book.primarySearchTitle, h.searchTitle? s]
    exact congrArg _ h.title.trim_eq
  author := h.primarySearchAuthor s
  primary := congrArg (·.getD p.primaryLanguage) h.declaredLanguage?
  isbns := by
    have long := bind_eq_of_rel Text.Respaced.isbn_eq h.isbn13
    have short := bind_eq_of_rel Text.Respaced.isbn_eq h.isbn10
    simp only [isbnCandidates, Book.withSearchTerms, long, short]
  titleIn := fun _ _ code _ => h.titleIn code

/-- Blanks around the texts of a book never change its plan, with its search terms filled from any
simplifier. -/
theorem plan_respaced (p : Planner) (s : Simplifier) {b c : Book} (h : b.Respaced c)
    (selection : Selection) (manualQuery : Option String) :
    p.plan (b.withSearchTerms s) selection manualQuery =
      p.plan (c.withSearchTerms s) selection manualQuery :=
  plan_congr (sameSearch_of_respaced h p s _) manualQuery

theorem plan_respaced_every_text :
    let p : Planner := ⟨some ["en"], "en"⟩
    let b : Book :=
      { title := "Saga: Dune (Deluxe)"
        subtitle := some "none"
        seriesName := some "saga"
        authors := ["Herbert, Frank P.", "Brian"]
        titlesByLanguage := ⟨[("hu", "A Dűne"), ("FR", "")], by decide⟩
        primaryLanguage := some "EN"
        isbn13 := some "978-0441172719" }
    let c : Book :=
      { title := "\t Saga: Dune (Deluxe)\u3000"
        subtitle := some " none"
        seriesName := some "\u00a0saga"
        authors := [" Herbert, Frank P.\u2003", "Brian\n"]
        titlesByLanguage := ⟨[("FR", "  "), ("hu", "A Dűne\u2028")], by decide⟩
        primaryLanguage := some " EN "
        isbn13 := some "\u00a0978-0441172719 " }
    b.Respaced c ∧
      p.plan (c.withSearchTerms .standard) (.explicit ["hu", "en"]) none =
        p.plan (b.withSearchTerms .standard) (.explicit ["hu", "en"]) none ∧
      (p.plan (c.withSearchTerms .standard) (.explicit ["hu", "en"]) none).titleVariants =
        [⟨"A Dűne Frank Herbert", "A Dűne", some ["hu"]⟩,
          ⟨"Dune (Deluxe) Frank Herbert", "Dune (Deluxe)", some ["en"]⟩] := by
  intro p b c
  have titles : ∀ code, Option.Rel Text.Respaced (b.titlesByLanguage.get? code)
      (c.titlesByLanguage.get? code) := by
    intro code
    by_cases hu : code = "hu"
    · subst hu
      exact .some (by decide +kernel)
    by_cases fr : code = "FR"
    · subst fr
      exact .some (by decide +kernel)
    have absent : b.titlesByLanguage.get? code = none ∧ c.titlesByLanguage.get? code = none := by
      simp [b, c, Assoc.get?, List.lookup_cons, beq_false_of_ne hu, beq_false_of_ne fr]
    rw [absent.1, absent.2]
    exact .none
  have same : b.Respaced c :=
    ⟨by decide +kernel, .some (by decide +kernel), .some (by decide +kernel), .none,
      .cons (by decide +kernel) (.cons (by decide +kernel) .nil), .none,
      ⟨titles, Or.inr (by decide +kernel)⟩, .some (by decide +kernel), .some (by decide +kernel),
      .none⟩
  refine ⟨same, (plan_respaced p .standard same _ _).symm, ?_⟩
  rw [← plan_respaced p .standard same]
  decide +kernel

end Planner

end ReleaseSearch
