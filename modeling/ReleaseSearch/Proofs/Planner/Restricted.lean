import ReleaseSearch.Proofs.Planner.Plans

/-! Searches restricted to some languages: which variants their plans hold. -/
namespace ReleaseSearch.Planner

theorem composeQuery_author (b : Book) (title : String) :
    composeQuery title b.primarySearchAuthor =
      title ++ (b.primarySearchAuthor.map (" " ++ ·)).getD "" := by
  cases known : b.primarySearchAuthor with
  | none => exact String.append_empty.symm
  | some author =>
    rw [composeQuery_some title (Book.tidy_primarySearchAuthor known).ne_empty,
      String.append_assoc]
    rfl

variable (p : Planner) (b : Book)

theorem titleVariants_of_restricted {selection : Selection} {manualQuery : Option String}
    {codes : List String} (restricted : p.resolve selection = some codes)
    (blank : ∀ query ∈ manualQuery, Text.trim query = "") :
    (p.plan b selection manualQuery).titleVariants = p.languageVariants b codes := by
  rw [p.plan_of_blank b selection blank, restricted]
  rfl

/-- Each title of a requested language stands once, for the first language with it, in the order of
the request; without any such title the primary one stands alone. -/
theorem restricted_titleVariants (selection : Selection) (manualQuery : Option String)
    (codes : List String) (restricted : p.resolve selection = some codes)
    (blank : ∀ query ∈ manualQuery, Text.trim query = "") :
    let primary := ((b.primaryLanguage.map Language.normalize).filter (· ≠ "")).getD
      p.primaryLanguage
    let titleOf := fun code : String =>
      if code = primary then some (b.primaryTitleIn code) else b.titleIn code
    let variant := fun title code : String =>
      Variant.mk (title ++ (b.primarySearchAuthor.map (" " ++ ·)).getD "") title (some [code])
    let variants := (p.plan b selection manualQuery).titleVariants
    ((∃ code ∈ codes, (titleOf code).isSome) →
      variants = (codes.zipIdx.filterMap fun q : String × Nat =>
        ((titleOf q.1).filter fun title =>
          ∀ earlier ∈ codes.take q.2, titleOf earlier ≠ some title).map (variant · q.1)) ∧
      ∀ code ∈ codes, ∀ title, titleOf code = some title →
        ∃ first, codes.find? (fun c => titleOf c = some title) = some first ∧
          variant title first ∈ variants) ∧
    ((∀ code ∈ codes, titleOf code = none) →
      variants = [variant (b.primaryTitleIn primary) primary]) := by
  intro primary titleOf variant variants
  have same : variants = p.languageVariants b codes :=
    p.titleVariants_of_restricted b restricted blank
  have composed : ∀ title code,
      Variant.ofTitle title b.primarySearchAuthor (some [code]) = variant title code := by
    intro title code
    rw [Variant.ofTitle, composeQuery_author]
  refine ⟨fun found => ?_, fun missing => ?_⟩
  · rw [p.languageVariants_of_found b found] at same
    constructor
    · rw [same, requestedVariants_eq_zipIdx]
      simp only [newAt_variantFor?, composed]
      rfl
    · intro code member title known
      cases hit : codes.find? (fun c => titleOf c = some title) with
      | none =>
        have apart := List.find?_eq_none.mp hit code member
        simp [known] at apart
      | some first =>
        refine ⟨first, rfl, ?_⟩
        rw [same, ← composed]
        exact p.mem_requestedVariants_of_find? b hit
  · rw [same, p.languageVariants_of_missing b missing, composed]
    rfl

theorem restricted_titleVariants_shared :
    let p := ofDefaults ["en"] "en"
    let b : Book :=
      { title := "Dune"
        authors := ["Frank Herbert"]
        titlesByLanguage := Assoc.ofList [("FR", "Dune "), ("de", "Der Wüstenplanet")] }
    let codes := ["hu", "fr", "en", "de"]
    p.resolve (.explicit codes) = some codes ∧ (∀ query ∈ some " ", Text.trim query = "") ∧
      (p.plan b (.explicit codes) (some " ")).titleVariants =
        [⟨"Dune Frank Herbert", "Dune", some ["fr"]⟩,
         ⟨"Der Wüstenplanet Frank Herbert", "Der Wüstenplanet", some ["de"]⟩] := by
  have restricted : (ofDefaults ["en"] "en").resolve (.explicit ["hu", "fr", "en", "de"]) =
      some ["hu", "fr", "en", "de"] := by decide +kernel
  have blank : ∀ query ∈ some " ", Text.trim query = "" := by decide
  intro p b codes
  refine ⟨restricted, blank, ?_⟩
  have content := (p.restricted_titleVariants b _ _ codes restricted blank).1
  exact (content ⟨"en", by decide, by decide +kernel⟩).1.trans (by decide +kernel)

end ReleaseSearch.Planner
