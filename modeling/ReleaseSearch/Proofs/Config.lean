import ReleaseSearch.Config
import ReleaseSearch.Planner
import ReleaseSearch.Proofs.Book

/-! Configurations that pass the check. The check reads codes as they are written and knows only the
letters of ASCII; all the same it refuses whatever would be refused of their normal forms. -/
namespace ReleaseSearch

namespace Text

/-- The letters of the word `all`. -/
def InAll (d : Char) : Prop := d = 'a' ∨ d = 'l'

/-- No capital outside ASCII has one of these letters as its small form. -/
theorem not_inAll_small : ∀ run ∈ capitalRuns, ∀ n ∈ ['a'.toNat, 'l'.toNat],
    run.small run.last < n ∨ n < run.small run.first := by decide +kernel

theorem lowerChar_of_inAll {c d : Char} (h : d ∈ lowerChar c) (letter : InAll d) :
    lowerChar c = [d] ∧ c.toLower = d := by
  rcases lowerChar_cases c with ⟨plain, eq⟩ | ⟨_, eq⟩ | ⟨run, member, held, eq⟩
  · rw [eq] at h ⊢
    cases List.mem_singleton.mp h
    rcases letter with rfl | rfl <;> exact ⟨rfl, by decide⟩
  · rw [eq] at h
    rcases letter with rfl | rfl <;> simp at h
  · rw [eq] at h ⊢
    cases List.mem_singleton.mp h
    refine ⟨rfl, ?_⟩
    rcases List.mem_cons.mp member with rfl | outside
    · have member := (holds_iff _ _).mp held
      have capital : 0x41 ≤ c.toNat ∧ c.toNat ≤ 0x5A := ⟨member.1, member.2.1⟩
      have lower := toLower_ascii c.toNat (by omega)
      rw [Char.ofNat_toNat, if_pos capital] at lower
      rw [lower]
      rfl
    · have placed := wellPlaced_of_mem run member
      obtain ⟨low, high, _⟩ := small_bounds placed held
      have value := toNat_ofNat_small placed held
      have apart := not_inAll_small run outside (Char.ofNat (run.small c.toNat)).toNat
        (by rcases letter with eq | eq <;> simp [eq])
      omega

theorem formAt_of_inAll {before rest : List Char} {c d : Char} (h : d ∈ formAt before c rest)
    (letter : InAll d) : formAt before c rest = [d] ∧ c.toLower = d := by
  unfold formAt at h ⊢
  by_cases sigma : c = 'Σ'
  · rw [if_pos sigma] at h
    split at h <;> cases List.mem_singleton.mp h <;> rcases letter with letter | letter <;>
      exact absurd letter (by decide)
  · rw [if_neg sigma] at h ⊢
    exact lowerChar_of_inAll h letter

theorem map_toLower_of_lowerAfter (cs before : List Char)
    (h : ∀ d ∈ lowerAfter before cs, InAll d) : cs.map Char.toLower = lowerAfter before cs := by
  induction cs generalizing before with
  | nil => rfl
  | cons c rest ih =>
    rw [lowerAfter_cons] at h ⊢
    obtain ⟨d, hd⟩ := List.exists_mem_of_ne_nil _ (formAt_ne_nil before c rest)
    obtain ⟨here, lower⟩ := formAt_of_inAll hd (h d (List.mem_append_left _ hd))
    rw [here, List.map_cons, lower, List.singleton_append,
      ih (c :: before) (fun e he => h e (List.mem_append_right _ he))]

/-- The word `all` is written in the letters of ASCII only. -/
theorem sameLetters_of_lower {s : String} (h : lower s = "all") : sameLetters s "all" = true := by
  have letters : lowerAfter [] s.toList = ['a', 'l', 'l'] := by
    have eq := congrArg String.toList h
    rwa [lower, String.toList_ofList] at eq
  have same := map_toLower_of_lowerAfter s.toList [] (by rw [letters]; simp [InAll])
  rw [sameLetters, same, letters]
  decide

end Text

namespace Config

/-- What is true of a configuration that passes the check. -/
structure Accepted (c : Config) : Prop where
  defaults_ne_nil : c.search.defaultLanguages ≠ []
  defaults_filled : ∀ code ∈ c.search.defaultLanguages, Language.normalize code ≠ ""
  primary_filled : Language.normalize c.search.primaryLanguage ≠ ""
  primary_ne_all : Language.normalize c.search.primaryLanguage ≠ Language.all
  markers_ne_nil : c.simplifier.seriesMarkers ≠ []

theorem namesNoLanguage_of_normalize {code : String}
    (h : Language.normalize code = "" ∨ Language.normalize code = Language.all) :
    namesNoLanguage code = true := by
  unfold namesNoLanguage
  rcases h with blank | all
  · simp [(Language.normalize_eq_empty_iff code).mp blank]
  · simp [Text.sameLetters_of_lower all]

theorem accepted_of_violation? {c : Config} (passed : c.violation? = none) : c.Accepted := by
  simp only [violation?, ite_eq_iff, reduceCtorEq, and_false, false_or, and_true,
    List.any_eq_true, beq_iff_eq, not_exists, not_and] at passed
  obtain ⟨_, listed, filled, named, _, markers⟩ := passed
  refine ⟨listed, ?_, ?_, ?_, markers⟩
  · intro code member blank
    exact filled code member ((Language.normalize_eq_empty_iff code).mp blank)
  · exact fun blank => named (namesNoLanguage_of_normalize (Or.inl blank))
  · exact fun all => named (namesNoLanguage_of_normalize (Or.inr all))

theorem accepted_of_validate {c : Config} (valid : c.validate = .ok ()) : c.Accepted := by
  unfold validate at valid
  split at valid
  · cases valid
  · rename_i none_found
    exact accepted_of_violation? none_found

/-- The planner that a configuration gives. -/
def planner (c : Config) : Planner :=
  .ofDefaults c.search.defaultLanguages c.search.primaryLanguage

section Accepted

variable {c : Config}

theorem Accepted.exists_simplifier (accepted : c.Accepted) :
    ∃ s, Simplifier.ofRules c.simplifier = .ok s ∧ s.rules = c.simplifier := by
  rw [Simplifier.ofRules, dif_neg accepted.markers_ne_nil]
  exact ⟨_, rfl, rfl⟩

theorem Accepted.defaultLanguages_eq_none_iff (accepted : c.Accepted) :
    c.planner.defaultLanguages = none ↔
      ∃ code ∈ c.search.defaultLanguages, Language.normalize code = Language.all := by
  rw [planner, Planner.ofDefaults, ← Language.normalizeAll_eq_none_iff]
  dsimp only
  cases normal : Language.normalizeAll c.search.defaultLanguages with
  | none => simp
  | some codes =>
    have filled : codes ≠ [] := by
      obtain ⟨code, member⟩ := List.exists_mem_of_ne_nil _ accepted.defaults_ne_nil
      exact List.ne_nil_of_mem
        (Language.mem_of_normalizeAll normal member (accepted.defaults_filled code member))
    simp [filled]

theorem Accepted.primaryLanguageOf (accepted : c.Accepted) (b : Book) :
    let language := c.planner.primaryLanguageOf b
    Language.normalize language = language ∧ language ≠ "" ∧
      (language = Language.all → b.declaredLanguage? = some Language.all) := by
  intro language
  cases declared : b.declaredLanguage? with
  | none =>
    have eq : language = Language.normalize c.search.primaryLanguage := by
      simp only [language, Planner.primaryLanguageOf, declared]
      rfl
    rw [eq]
    exact ⟨Language.normalize_normalize _, accepted.primary_filled,
      fun all => absurd all accepted.primary_ne_all⟩
  | some code =>
    have eq : language = code := by
      simp only [language, Planner.primaryLanguageOf, declared]
      rfl
    obtain ⟨normal, filled⟩ := Book.declaredLanguage?_normal declared
    rw [eq]
    exact ⟨normal, filled, fun all => by rw [all]⟩

end Accepted

end Config

end ReleaseSearch
