import ReleaseSearch.Proofs.Planner.Plans

/-! Books without a title in any language but their own. Whichever languages a search asks for, it
has one title to look for. -/
namespace ReleaseSearch.Planner

variable (p : Planner) {b : Book}

theorem title_of_untranslated (missing : ∀ language, b.titleIn language = none)
    {languages : Option (List String)} {v : Variant}
    (h : v ∈ (p.derivedPlan b languages).titleVariants) : v.title = b.primarySearchTitle := by
  rcases p.mem_derivedPlan b h with ⟨_, rfl⟩ | ⟨_, language, found⟩
  · rfl
  · obtain ⟨title, known, rfl⟩ := (p.variantFor?_eq_some_iff b language v).mp found
    unfold titleFor? at known
    split at known
    · cases known
      exact Book.primaryTitleIn_of_missing (missing language)
    · rw [missing] at known
      cases known

/-- The plan has one variant, in an unrestricted search, for the primary language, and where the
primary language is not asked for. -/
theorem titleVariants_of_untranslated (missing : ∀ language, b.titleIn language = none)
    (languages : Option (List String)) :
    ∃ tags, (p.derivedPlan b languages).titleVariants =
      [Variant.ofTitle b.primarySearchTitle b.primarySearchAuthor tags] := by
  obtain ⟨v, only⟩ := exists_eq_singleton (p.derivedPlan_ne_nil b languages)
    (p.nodup_titles_derivedPlan b languages) (fun v h => p.title_of_untranslated missing h)
  have member : v ∈ (p.derivedPlan b languages).titleVariants := by
    rw [only]
    exact List.mem_singleton_self v
  have title := p.title_of_untranslated missing member
  have query := p.query_of_mem_derivedPlan b member
  refine ⟨v.languages, only.trans ?_⟩
  rw [Variant.ofTitle, ← title, ← query]

end ReleaseSearch.Planner
