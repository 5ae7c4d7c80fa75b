import ReleaseSearch.Proofs.Planner.Plans
import ReleaseSearch.Proofs.Selection

/-! Three ways to the primary title: a search that asks for the primary language, one that falls back
to it, and one without restriction. The first two have their variant in common. The third has its
query in common with them, unless the book lists another title for its own language. -/
namespace ReleaseSearch

namespace Book

theorem isSome_searchTitle?_iff (b : Book) :
    b.searchTitle?.isSome ↔ ∃ text ∈ b.searchTitle, Text.trim text ≠ "" := by
  rw [searchTitle?]
  cases b.searchTitle with
  | none => simp
  | some text =>
    rw [Option.bind_some, Text.nonBlank]
    split
    · rename_i blank
      simp [blank]
    · rename_i filled
      simp [filled]

/-- The title of a book in its own language is the one of a search without restriction when the book
has a title to search for, or lists no other title for that language than its main one. -/
theorem primaryTitleIn_eq_primarySearchTitle_iff (b : Book) (language : String) :
    b.primaryTitleIn language = b.primarySearchTitle ↔
      (∃ text ∈ b.searchTitle, Text.trim text ≠ "") ∨
        ∀ title ∈ b.titleIn language, title = Text.trim b.title := by
  rw [← isSome_searchTitle?_iff, primaryTitleIn, primarySearchTitle]
  cases b.searchTitle? with
  | some title => simp
  | none =>
    cases b.titleIn language with
    | none => simp
    | some title => simp

end Book

namespace Planner

variable (p : Planner) (b : Book)

/-- The variant of the primary language. -/
def primaryVariant : Variant :=
  Variant.ofTitle (b.primaryTitleIn (p.primaryLanguageOf b)) b.primarySearchAuthor
    (some [p.primaryLanguageOf b])

theorem languageVariants_primary :
    p.languageVariants b [p.primaryLanguageOf b] = [p.primaryVariant b] := by
  have found : ∃ code ∈ [p.primaryLanguageOf b], (p.titleFor? b code).isSome :=
    ⟨_, List.mem_singleton_self _, (p.isSome_titleFor?_iff b _).mpr (Or.inl rfl)⟩
  have own : p.variantFor? b (p.primaryLanguageOf b) = some (p.primaryVariant b) := by
    rw [variantFor?, titleFor?_primary]
    rfl
  rw [p.languageVariants_of_found b found, requestedVariants_eq_foldl, List.filterMap_cons, own]
  rfl

theorem titleVariants_primary :
    (p.derivedPlan b (some [p.primaryLanguageOf b])).titleVariants = [p.primaryVariant b] :=
  p.languageVariants_primary b

/-- Where no language of a search has a title, its plan is that of the primary language, but for the
languages that it lists. -/
theorem derivedPlan_of_missing {codes : List String} (foreign : p.primaryLanguageOf b ∉ codes)
    (missing : ∀ code ∈ codes, b.titleIn code = none) :
    p.derivedPlan b (some codes) =
      { p.derivedPlan b (some [p.primaryLanguageOf b]) with languages := some codes } := by
  have untitled : ∀ code ∈ codes, p.titleFor? b code = none := by
    intro code member
    refine (p.titleFor?_eq_none_iff b code).mpr ⟨?_, missing code member⟩
    rintro rfl
    exact foreign member
  have same : p.languageVariants b codes = p.languageVariants b [p.primaryLanguageOf b] := by
    rw [p.languageVariants_of_missing b untitled, languageVariants_primary]
    rfl
  simp only [derivedPlan, same]

theorem queries_unrestricted_eq_iff :
    (p.derivedPlan b none).titleVariants.map Variant.query =
        (p.derivedPlan b (some [p.primaryLanguageOf b])).titleVariants.map Variant.query ↔
      b.primaryTitleIn (p.primaryLanguageOf b) = b.primarySearchTitle := by
  have free : (p.derivedPlan b none).titleVariants =
      [Variant.ofTitle b.primarySearchTitle b.primarySearchAuthor none] := rfl
  rw [free, titleVariants_primary]
  simp only [List.map_singleton, List.cons.injEq, and_true]
  exact composeQuery_inj.trans eq_comm

/-- A search for the primary language alone resolves to it, since its code is in normal form. -/
theorem plan_explicit_primary (defaults : List String) (primary : String) (b : Book) :
    let p := ofDefaults defaults primary
    let own := p.primaryLanguageOf b
    Text.trim own ≠ "" → own ≠ Language.all →
      p.plan b (.explicit [own]) none = p.derivedPlan b (some [own]) := by
  intro p own named restricted
  have normal : Language.normalize own = own := normalize_primaryLanguageOf defaults primary b
  have filled : own ≠ "" := by
    intro empty
    rw [empty] at named
    exact named rfl
  have canonical : Language.Canonical [own] :=
    ⟨List.forall_mem_singleton.mpr normal, List.forall_mem_singleton.mpr filled,
      fun member => restricted (List.mem_singleton.mp member).symm, List.nodup_singleton own⟩
  rw [p.plan_of_blank b _ (by simp), p.resolve_canonical canonical (List.cons_ne_nil _ _)]

/-- A search that finds no title has the plan of the search for the primary language, but for its
languages. A search without restriction has the same query exactly when the book has a search title
or lists no other title for its own language. -/
theorem plans_of_primary (defaults : List String) (primary : String) (b : Book) :
    let p := ofDefaults defaults primary
    let own := p.primaryLanguageOf b
    let asked := p.plan b (.explicit [own]) none
    let termed := ∃ text ∈ b.searchTitle, Text.trim text ≠ ""
    Text.trim own ≠ "" → own ≠ "all" →
      (∀ selection codes, p.resolve selection = some codes → own ∉ codes →
        (∀ code ∈ codes, b.titleIn code = none) →
        asked.languages = some [own] ∧
          p.plan b selection none = { asked with languages := some codes }) ∧
      ∀ selection, p.resolve selection = none →
        let free := p.plan b selection none
        (termed ∨ b.titleIn own = none →
          free.author = asked.author ∧ free.isbnCandidates = asked.isbnCandidates ∧
            ∃ query title, free.titleVariants = [⟨query, title, none⟩] ∧
              asked.titleVariants = [⟨query, title, some [own]⟩] ∧
              ∀ strategy, free.textQueries strategy = [⟨query, none⟩] ∧
                asked.textQueries strategy = [⟨query, some [own]⟩]) ∧
        (free.titleVariants.map Variant.query = asked.titleVariants.map Variant.query ↔
          termed ∨ ∀ title ∈ b.titleIn own, title = Text.trim b.title) := by
  intro p own asked termed named restricted
  have asked_eq : asked = p.derivedPlan b (some [own]) :=
    plan_explicit_primary defaults primary b named restricted
  refine ⟨fun selection codes resolved foreign missing => ?_, fun selection resolved => ?_⟩
  · rw [p.plan_of_blank b selection (by simp), resolved, asked_eq]
    exact ⟨rfl, p.derivedPlan_of_missing b foreign missing⟩
  · intro free
    have free_eq : free = p.derivedPlan b none := by
      change p.plan b selection none = _
      rw [p.plan_of_blank b selection (by simp), resolved]
    have titles := b.primaryTitleIn_eq_primarySearchTitle_iff own
    rw [free_eq, asked_eq]
    refine ⟨fun known => ?_, (p.queries_unrestricted_eq_iff b).trans titles⟩
    have same : b.primaryTitleIn own = b.primarySearchTitle :=
      titles.mpr (known.imp_right fun missing => by simp [missing])
    have variants : (p.derivedPlan b (some [own])).titleVariants =
        [Variant.ofTitle b.primarySearchTitle b.primarySearchAuthor (some [own])] := by
      rw [← same]
      exact p.titleVariants_primary b
    refine ⟨rfl, rfl, _, _, rfl, variants, fun strategy => ?_⟩
    rw [textQueries_eq_map, textQueries_eq_map, variants]
    exact ⟨rfl, rfl⟩

theorem plans_of_primary_relisted :
    let p := ofDefaults ["hu"] "EN"
    let b : Book :=
      { title := "Dune: Part One"
        searchTitle := some " Dune "
        authors := ["Frank Herbert"]
        titlesByLanguage := Assoc.ofList [("EN", "Dune (Deluxe)"), ("fr", " ")] }
    let own := p.primaryLanguageOf b
    let asked := p.plan b (.explicit [own]) none
    own = "en" ∧ Text.trim own ≠ "" ∧ own ≠ "all" ∧
      p.resolve (.explicit ["fr", "DE "]) = some ["fr", "de"] ∧
      p.plan b (.explicit ["fr", "DE "]) none = { asked with languages := some ["fr", "de"] } ∧
      p.resolve .all = none ∧
      ∃ query title, (p.plan b .all none).titleVariants = [⟨query, title, none⟩] ∧
        asked.titleVariants = [⟨query, title, some [own]⟩] := by
  intro p b own asked
  have named : Text.trim own ≠ "" := by decide +kernel
  have restricted : own ≠ "all" := by decide +kernel
  obtain ⟨fallback, unrestricted⟩ := plans_of_primary ["hu"] "EN" b named restricted
  have resolved : p.resolve (.explicit ["fr", "DE "]) = some ["fr", "de"] := by decide +kernel
  have searched : ∃ text ∈ b.searchTitle, Text.trim text ≠ "" := ⟨" Dune ", rfl, by decide⟩
  obtain ⟨_, _, query, title, free, same, _⟩ := (unrestricted .all rfl).1 (Or.inl searched)
  exact ⟨by decide +kernel, named, restricted, resolved,
    (fallback _ _ resolved (by decide +kernel) (by decide +kernel)).2, rfl, query, title, free, same⟩

end Planner

end ReleaseSearch
