import Mathlib.Data.List.Perm.Subperm
import ReleaseSearch.Plan
import ReleaseSearch.Proofs.Language

/-! Groups of variants that share a title. There is one group for each title, where the title comes
first. Its tags are those of the first variant with the title, and behind them the ones that later
variants add; a group whose first variant has no tags has none. -/
namespace ReleaseSearch.Plan

/-- The tags of variants that share a title. The first variant decides whether there are any; of the
tags of the others, each one that it does not have comes once. -/
def sharedTags : List Variant → Option (List String)
  | [] => none
  | first :: later => first.languages.map fun tags =>
    tags ++ ((later.flatMap (·.languages.getD [])).filter fun tag => !tags.contains tag).eraseDups

theorem sharedTags_singleton (v : Variant) : sharedTags [v] = v.languages := by
  rw [sharedTags]
  cases v.languages with
  | none => rfl
  | some tags => exact congrArg some (List.append_nil tags)

theorem mergeLanguages_eq (group variant : Option (List String)) :
    mergeLanguages group variant =
      group.map fun tags => (variant.getD []).foldl (FirstSeen.addNew id) tags := by
  rw [← Language.addCode_eq_addNew]
  cases group with
  | none => rfl
  | some merged =>
    cases variant with
    | none => rfl
    | some more => rfl

/-- What a run of variants adds to the tags of their group. -/
theorem foldl_mergeLanguages (variants : List Variant) (group : Option (List String)) :
    variants.foldl (fun tags v => mergeLanguages tags v.languages) group =
      group.map fun tags =>
        (variants.flatMap (·.languages.getD [])).foldl (FirstSeen.addNew id) tags := by
  induction variants generalizing group with
  | nil => simp
  | cons v rest ih =>
    rw [List.foldl_cons, ih, mergeLanguages_eq, Option.map_map]
    congr 1
    funext tags
    rw [List.flatMap_cons, List.foldl_append]
    rfl

theorem sharedTags_cons (first : Variant) (later : List Variant) :
    later.foldl (fun tags v => mergeLanguages tags v.languages) first.languages =
      sharedTags (first :: later) := by
  simp only [foldl_mergeLanguages, FirstSeen.foldl_id, sharedTags]

/-- The first group takes the variants with its title, and the others pass it. -/
theorem foldl_addToGroups_cons (variants : List Variant) (group : TitleGroup)
    (rest : List TitleGroup) :
    variants.foldl (fun groups v => addToGroups v groups) (group :: rest) =
      ⟨group.title, (variants.filter (·.title = group.title)).foldl
          (fun tags v => mergeLanguages tags v.languages) group.languages⟩ ::
        (variants.filter (·.title ≠ group.title)).foldl (fun groups v => addToGroups v groups)
          rest := by
  induction variants generalizing group rest with
  | nil => rfl
  | cons v variants ih =>
    rw [List.foldl_cons, addToGroups]
    by_cases same : group.title = v.title
    · rw [if_pos same, ih, List.filter_cons_of_pos (by simpa using same.symm),
        List.filter_cons_of_neg (by simpa using same.symm), List.foldl_cons]
    · rw [if_neg same, ih, List.filter_cons_of_neg (by simpa using Ne.symm same),
        List.filter_cons_of_pos (by simpa using Ne.symm same), List.foldl_cons]

theorem groupVariants_cons (v : Variant) (rest : List Variant) :
    groupVariants (v :: rest) =
      ⟨v.title, sharedTags (v :: rest.filter (·.title = v.title))⟩ ::
        groupVariants (rest.filter (·.title ≠ v.title)) := by
  rw [← sharedTags_cons]
  exact foldl_addToGroups_cons rest ⟨v.title, v.languages⟩ []

/-- The group of a title. -/
def groupFor (variants : List Variant) (title : String) : TitleGroup :=
  ⟨title, sharedTags (variants.filter (·.title = title))⟩

theorem groupFor_self (v : Variant) (rest : List Variant) :
    groupFor (v :: rest) v.title =
      ⟨v.title, sharedTags (v :: rest.filter (·.title = v.title))⟩ := by
  rw [groupFor, List.filter_cons_of_pos (by simp)]

/-- The variants of another title are not among those that the first group takes. -/
theorem groupFor_of_ne {v : Variant} {title : String} (other : title ≠ v.title)
    (rest : List Variant) :
    groupFor (v :: rest) title = groupFor (rest.filter (·.title ≠ v.title)) title := by
  have both : ∀ w : Variant, decide (w.title = title) =
      (decide (w.title = title) && decide (w.title ≠ v.title)) := by
    intro w
    by_cases same : w.title = title
    · simp [same, other]
    · simp [same]
  rw [groupFor, groupFor, List.filter_cons_of_neg (by simpa using Ne.symm other),
    List.filter_filter]
  simp only [← both]

theorem eraseDups_titles_cons (v : Variant) (rest : List Variant) :
    ((v :: rest).map Variant.title).eraseDups =
      v.title :: ((rest.filter (·.title ≠ v.title)).map Variant.title).eraseDups := by
  have test : (fun title => !title == v.title) ∘ Variant.title =
      fun w : Variant => decide (w.title ≠ v.title) := by
    funext w
    rw [Bool.eq_iff_iff]
    simp
  rw [List.map_cons, List.eraseDups_cons, List.filter_map, test]

/-- One group for each title, where the title comes first. -/
theorem groupVariants_eq (variants : List Variant) :
    groupVariants variants = (variants.map Variant.title).eraseDups.map (groupFor variants) := by
  cases variants with
  | nil => rfl
  | cons v rest =>
    rw [groupVariants_cons, groupVariants_eq (rest.filter (·.title ≠ v.title)),
      eraseDups_titles_cons, List.map_cons, groupFor_self]
    congr 1
    apply List.map_congr_left
    intro title member
    obtain ⟨w, kept, rfl⟩ := List.mem_map.mp (List.mem_eraseDups.mp member)
    have other : w.title ≠ v.title := by simpa using (List.mem_filter.mp kept).2
    exact (groupFor_of_ne other rest).symm
termination_by variants.length
decreasing_by
  exact Nat.lt_succ_of_le (List.length_filter_le _ _)

/-- Variants with pairwise distinct titles are grouped one by one. -/
theorem groupVariants_of_nodup {variants : List Variant}
    (distinct : (variants.map Variant.title).Nodup) :
    groupVariants variants = variants.map fun v => ⟨v.title, v.languages⟩ := by
  induction variants with
  | nil => rfl
  | cons v rest ih =>
    rw [List.map_cons, List.nodup_cons] at distinct
    have others : ∀ w ∈ rest, w.title ≠ v.title := by
      intro w member same
      exact distinct.1 (same ▸ List.mem_map_of_mem member)
    have alone : rest.filter (·.title = v.title) = [] := by
      rw [List.filter_eq_nil_iff]
      simpa using others
    have passed : rest.filter (·.title ≠ v.title) = rest := by
      rw [List.filter_eq_self]
      simpa using others
    rw [groupVariants_cons, alone, passed, sharedTags_singleton, ih distinct.2, List.map_cons]

/-- A group that has tags has those of all variants with its title. -/
theorem mem_sharedTags {shared : List Variant} {tags : List String}
    (tagged : sharedTags shared = some tags) (language : String) :
    language ∈ tags ↔ ∃ v ∈ shared, ∃ own, v.languages = some own ∧ language ∈ own := by
  cases shared with
  | nil => cases tagged
  | cons first later =>
    obtain ⟨own, first_tagged, rfl⟩ := Option.map_eq_some_iff.mp tagged
    have added : ∀ v : Variant, language ∈ v.languages.getD [] ↔
        ∃ own, v.languages = some own ∧ language ∈ own := by
      intro v
      cases v.languages <;> simp
    simp only [← added, List.mem_cons, exists_eq_or_imp, first_tagged, Option.getD_some]
    rw [List.mem_append, List.mem_eraseDups, List.mem_filter, List.mem_flatMap]
    by_cases known : language ∈ own
    · simp [known]
    · simp [known]

theorem exists_cons_of_mem_titles {variants : List Variant} {title : String}
    (member : title ∈ variants.map Variant.title) :
    ∃ first later, variants.filter (·.title = title) = first :: later := by
  obtain ⟨v, known, rfl⟩ := List.mem_map.mp member
  exact List.exists_cons_of_ne_nil
    (List.ne_nil_of_mem (List.mem_filter.mpr ⟨known, decide_eq_true rfl⟩))

theorem mem_groupVariants_iff (variants : List Variant) (group : TitleGroup) :
    group ∈ groupVariants variants ↔
      group.title ∈ variants.map Variant.title ∧ group = groupFor variants group.title := by
  rw [groupVariants_eq, List.mem_map]
  simp only [List.mem_eraseDups]
  constructor
  · rintro ⟨title, member, rfl⟩
    exact ⟨member, rfl⟩
  · rintro ⟨member, same⟩
    exact ⟨group.title, member, same.symm⟩

theorem titles_groupVariants (variants : List Variant) :
    (groupVariants variants).map TitleGroup.title = (variants.map Variant.title).eraseDups := by
  rw [groupVariants_eq, List.map_map]
  exact List.map_id _

theorem length_groupVariants_le (variants : List Variant) :
    (groupVariants variants).length ≤ variants.length := by
  have contained : ((variants.map Variant.title).eraseDups).Subperm (variants.map Variant.title) :=
    (FirstSeen.nodup_eraseDups _).subperm fun _ member => List.mem_eraseDups.mp member
  have fewer := contained.length_le
  rwa [← titles_groupVariants, List.length_map, List.length_map] at fewer

/-- There is one group for each title, where the title comes first, so never more groups than
variants. The first variant with the title decides whether the group has tags; if it has, they are
those of the first variant as they are, and behind them each tag of a later one that is not there
yet. So no tag of a group is lost that has tags at all, which it has where every variant has some. -/
theorem groupVariants_tags (variants : List Variant) :
    let groups := groupVariants variants
    groups.map TitleGroup.title = (variants.map Variant.title).eraseDups ∧
      groups.length ≤ variants.length ∧
      (∀ group ∈ groups, ∃ first later,
        variants.filter (·.title = group.title) = first :: later ∧
        (first.languages = none → group.languages = none) ∧
        ∀ tags, first.languages = some tags → group.languages = some (tags ++
          ((later.flatMap (·.languages.getD [])).filter fun tag => !tags.contains tag).eraseDups)) ∧
      (∀ group ∈ groups, ∀ tags, group.languages = some tags → ∀ language,
        language ∈ tags ↔ ∃ v ∈ variants, v.title = group.title ∧
          ∃ own, v.languages = some own ∧ language ∈ own) ∧
      ((∀ v ∈ variants, v.languages ≠ none) → ∀ group ∈ groups, group.languages ≠ none) := by
  intro groups
  have found : ∀ group ∈ groups, ∃ first later,
      variants.filter (·.title = group.title) = first :: later ∧
        group.languages = sharedTags (first :: later) := by
    intro group member
    obtain ⟨titled, same⟩ := (mem_groupVariants_iff variants group).mp member
    obtain ⟨first, later, shared⟩ := exists_cons_of_mem_titles titled
    refine ⟨first, later, shared, ?_⟩
    rw [← shared]
    exact congrArg TitleGroup.languages same
  refine ⟨titles_groupVariants variants, length_groupVariants_le variants, ?_, ?_, ?_⟩
  · intro group member
    obtain ⟨first, later, shared, tags_eq⟩ := found group member
    refine ⟨first, later, shared, fun untagged => ?_, fun tags tagged => ?_⟩
    · rw [tags_eq, sharedTags, untagged, Option.map_none]
    · rw [tags_eq, sharedTags, tagged, Option.map_some]
  · intro group member tags tagged language
    obtain ⟨first, later, shared, tags_eq⟩ := found group member
    rw [mem_sharedTags (tags_eq.symm.trans tagged) language, ← shared]
    simp only [List.mem_filter, decide_eq_true_eq, and_assoc]
  · intro every group member untagged
    obtain ⟨first, later, shared, tags_eq⟩ := found group member
    have known : first ∈ variants.filter (·.title = group.title) :=
      shared ▸ List.mem_cons_self ..
    rw [tags_eq, sharedTags, Option.map_eq_none_iff] at untagged
    exact every first (List.mem_filter.mp known).1 untagged

theorem groupVariants_tags_repeated :
    let variants : List Variant :=
      [⟨"Dune Frank Herbert", "Dune", some ["en", "en"]⟩,
        ⟨"Der Wüstenplanet", "Der Wüstenplanet", some ["de"]⟩,
        ⟨"Dune F. Herbert", "Dune", some ["fr", "en", "fr"]⟩]
    let dune : TitleGroup := ⟨"Dune", some ["en", "en", "fr"]⟩
    groupVariants variants = [dune, ⟨"Der Wüstenplanet", some ["de"]⟩] ∧
      dune ∈ groupVariants variants ∧
      (∃ v ∈ variants, v.title = "Dune" ∧ ∃ own, v.languages = some own ∧ "fr" ∈ own) ∧
      (∀ v ∈ variants, v.languages ≠ none) ∧
      ∀ group ∈ groupVariants variants, group.languages ≠ none := by
  intro variants dune
  have grouped : groupVariants variants = [dune, ⟨"Der Wüstenplanet", some ["de"]⟩] := by decide
  have first : dune ∈ groupVariants variants := grouped ▸ List.mem_cons_self ..
  have every : ∀ v ∈ variants, v.languages ≠ none := by decide
  obtain ⟨_, _, _, carried, tagged⟩ := groupVariants_tags variants
  exact ⟨grouped, first, (carried dune first _ rfl "fr").mp (by decide), every, tagged every⟩

/-- Tags behind an untagged variant are dropped with its title. -/
example : groupVariants [⟨"Dune", "Dune", none⟩, ⟨"Dune F. Herbert", "Dune", some ["fr"]⟩] =
    [⟨"Dune", none⟩] := by decide

end ReleaseSearch.Plan
