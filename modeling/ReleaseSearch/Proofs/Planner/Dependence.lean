import ReleaseSearch.Proofs.Planner.Plans

/-! What a plan depends on. Two books that look the same to a search have the same plans. -/
namespace ReleaseSearch

theorem Book.primaryTitleIn_congr {b c : Book} {language : String}
    (searchTitle : b.searchTitle? = c.searchTitle?)
    (title : b.primarySearchTitle = c.primarySearchTitle)
    (edition : b.titleIn language = c.titleIn language) :
    b.primaryTitleIn language = c.primaryTitleIn language := by
  unfold primarySearchTitle at title
  unfold primaryTitleIn
  rw [searchTitle, edition]
  rw [searchTitle] at title
  cases found : c.searchTitle? with
  | some search => rfl
  | none =>
    rw [found] at title
    cases c.titleIn language with
    | some known => rfl
    | none => exact title

namespace Planner

/-- Two books that a search in these languages cannot tell apart. In a search without restriction
the titles of their editions do not count. -/
structure SameSearch (p : Planner) (languages : Option (List String)) (b c : Book) : Prop where
  searchTitle : b.searchTitle? = c.searchTitle?
  title : b.primarySearchTitle = c.primarySearchTitle
  author : b.primarySearchAuthor = c.primarySearchAuthor
  primary : p.primaryLanguageOf b = p.primaryLanguageOf c
  isbns : isbnCandidates b = isbnCandidates c
  titleIn : ∀ codes ∈ languages, ∀ code, code ∈ codes ∨ code = p.primaryLanguageOf c →
    b.titleIn code = c.titleIn code

variable {p : Planner} {b c : Book}

theorem SameSearch.primaryTitleIn {codes : List String} (same : p.SameSearch (some codes) b c)
    {code : String} (h : code ∈ codes ∨ code = p.primaryLanguageOf c) :
    b.primaryTitleIn code = c.primaryTitleIn code :=
  Book.primaryTitleIn_congr same.searchTitle same.title (same.titleIn codes rfl code h)

theorem SameSearch.titleFor? {codes : List String} (same : p.SameSearch (some codes) b c)
    {code : String} (h : code ∈ codes) : p.titleFor? b code = p.titleFor? c code := by
  rw [Planner.titleFor?, Planner.titleFor?, same.primary, same.primaryTitleIn (Or.inl h),
    same.titleIn codes rfl code (Or.inl h)]

theorem SameSearch.requestedVariants {codes : List String}
    (same : p.SameSearch (some codes) b c) :
    p.requestedVariants b codes = p.requestedVariants c codes := by
  have each : codes.filterMap (p.variantFor? b) = codes.filterMap (p.variantFor? c) := by
    refine List.filterMap_congr fun code h => ?_
    rw [variantFor?, variantFor?, same.titleFor? h, same.author]
  rw [requestedVariants_eq_foldl, requestedVariants_eq_foldl, each]

theorem SameSearch.languageVariants {codes : List String}
    (same : p.SameSearch (some codes) b c) :
    p.languageVariants b codes = p.languageVariants c codes := by
  unfold Planner.languageVariants
  dsimp only
  rw [same.requestedVariants, same.primary, same.primaryTitleIn (Or.inr rfl), same.author]

theorem SameSearch.derivedPlan {languages : Option (List String)}
    (same : p.SameSearch languages b c) :
    p.derivedPlan b languages = p.derivedPlan c languages := by
  unfold Planner.derivedPlan
  cases languages with
  | none => rw [same.title, same.author, same.isbns]
  | some codes => simp only [same.languageVariants, same.author, same.isbns]

/-- Books that a search cannot tell apart have the same plan, whatever query the caller gives. -/
theorem plan_congr {selection : Selection} (same : p.SameSearch (p.resolve selection) b c)
    (manualQuery : Option String) :
    p.plan b selection manualQuery = p.plan c selection manualQuery := by
  unfold plan
  cases manualQuery.filter fun query => Text.trim query ≠ "" with
  | none => exact same.derivedPlan
  | some query => rfl

end Planner

end ReleaseSearch
