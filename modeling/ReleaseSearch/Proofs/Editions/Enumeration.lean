import ReleaseSearch.Proofs.Editions

/-! The titles of a book as a map from languages. A title that is put in is found under every
spelling of its language and under no other language. What a look-up finds does not depend on the
order in which the editions are enumerated, unless a language has several spellings among their codes
and none of these is its normal form. -/
namespace ReleaseSearch

namespace Editions

/-- The title of a language, whatever the order of the editions: the one under its normal form, or
one under another spelling where the normal form is missing. -/
inductive Titled (e : Editions) (language title : String) : Prop where
  | exact : (Language.normalize language, title) ∈ e.entries → Titled e language title
  | respelled {code : String} : Language.normalize language ∉ e.keys → (code, title) ∈ e.entries →
      Language.normalize code = Language.normalize language → Titled e language title

/-- The editions leave no choice of a title: the normal form of the language is among their codes,
or else one spelling of it at most. -/
def Settled (e : Editions) (language : String) : Prop :=
  Language.normalize language ∈ e.keys ∨
    ∀ code ∈ e.keys, ∀ other ∈ e.keys, Language.normalize code = Language.normalize language →
      Language.normalize other = Language.normalize language → code = other

instance (e : Editions) (language : String) : Decidable (e.Settled language) :=
  inferInstanceAs (Decidable (_ ∨ _))

variable {e f : Editions} {language title : String}

theorem mem_keys_of_mem {entry : String × String} (member : entry ∈ e.entries) :
    entry.1 ∈ e.keys := List.mem_map_of_mem member

theorem Titled.exists_key (h : e.Titled language title) :
    ∃ code ∈ e.keys, Language.normalize code = Language.normalize language := by
  cases h with
  | exact member =>
    exact ⟨_, mem_keys_of_mem member, Language.normalize_normalize language⟩
  | respelled _ member same => exact ⟨_, mem_keys_of_mem member, same⟩

theorem titled_of_find? (found : find? e language = some title) : e.Titled language title := by
  unfold find? at found
  dsimp only at found
  cases exact_code : e.get? (Language.normalize language) with
  | some known =>
    rw [exact_code] at found
    cases found
    exact .exact ((Assoc.get?_eq_some_iff ..).mp exact_code)
  | none =>
    rw [exact_code] at found
    obtain ⟨entry, scanned, rfl⟩ := Option.map_eq_some_iff.mp found
    have missing : Language.normalize language ∉ e.keys := by
      rw [Assoc.mem_keys_iff, exact_code]
      exact not_not_intro rfl
    exact .respelled missing (List.mem_of_find?_eq_some scanned)
      (by simpa using List.find?_some scanned)

/-- A look-up fails only where no code is a spelling of the language. -/
theorem find?_eq_none_iff : find? e language = none ↔
    ∀ code ∈ e.keys, Language.normalize code ≠ Language.normalize language := by
  constructor
  · intro failed code member same
    obtain ⟨entry, known, rfl⟩ := List.mem_map.mp member
    unfold find? at failed
    dsimp only at failed
    cases exact_code : e.get? (Language.normalize language) with
    | some title =>
      rw [exact_code] at failed
      cases failed
    | none =>
      rw [exact_code] at failed
      have skipped := List.find?_eq_none.mp (Option.map_eq_none_iff.mp failed) entry known
      exact skipped (by simpa using same)
  · intro apart
    rw [Option.eq_none_iff_forall_ne_some]
    intro title found
    obtain ⟨code, member, same⟩ := (titled_of_find? found).exists_key
    exact apart code member same

theorem Titled.unique {other : String} (settled : e.Settled language)
    (h : e.Titled language title) (h' : e.Titled language other) : title = other := by
  -- under one code there is one title
  have under : ∀ {code first second : String}, (code, first) ∈ e.entries →
      (code, second) ∈ e.entries → first = second := by
    intro code first second member member'
    rw [← Assoc.get?_eq_some_iff] at member member'
    exact Option.some.inj (member.symm.trans member')
  cases h with
  | exact member =>
    cases h' with
    | exact member' => exact under member member'
    | respelled missing => exact absurd (mem_keys_of_mem member) missing
  | @respelled code missing member same =>
    cases h' with
    | exact member' => exact absurd (mem_keys_of_mem member') missing
    | @respelled code' _ member' same' =>
      have codes : code' = code := settled.resolve_left missing code' (mem_keys_of_mem member') code
        (mem_keys_of_mem member) same' same
      exact under member (codes ▸ member')

theorem find?_eq_some_iff (settled : e.Settled language) :
    find? e language = some title ↔ e.Titled language title := by
  refine ⟨titled_of_find?, fun titled => ?_⟩
  cases found : find? e language with
  | none =>
    obtain ⟨code, member, same⟩ := titled.exists_key
    exact absurd same (find?_eq_none_iff.mp found code member)
  | some other => rw [(titled_of_find? found).unique settled titled]

/-- The same editions, enumerated in any order. -/
def Reordered (e f : Editions) : Prop := e.entries.Perm f.entries

theorem Reordered.mem_keys_iff (same : Reordered e f) (code : String) :
    code ∈ e.keys ↔ code ∈ f.keys := (same.map Prod.fst).mem_iff

theorem Reordered.titled_iff (same : Reordered e f) :
    e.Titled language title ↔ f.Titled language title := by
  constructor
  · rintro (member | ⟨missing, member, spelled⟩)
    · exact .exact (same.mem_iff.mp member)
    · exact .respelled (mt (same.mem_keys_iff _).mpr missing) (same.mem_iff.mp member) spelled
  · rintro (member | ⟨missing, member, spelled⟩)
    · exact .exact (same.mem_iff.mpr member)
    · exact .respelled (mt (same.mem_keys_iff _).mp missing) (same.mem_iff.mpr member) spelled

theorem Reordered.settled_iff (same : Reordered e f) : e.Settled language ↔ f.Settled language := by
  simp only [Settled, same.mem_keys_iff]

theorem find?_of_reordered (same : Reordered e f) (settled : f.Settled language) :
    find? e language = find? f language := by
  ext title
  rw [find?_eq_some_iff (same.settled_iff.mpr settled), find?_eq_some_iff settled, same.titled_iff]

/-- Where neither spelling is the normal form, the one that is enumerated first is found. -/
example :
    let e : Editions := ⟨[("HU", "Dűne"), ("Hu", "A Dűne")], by decide⟩
    let f : Editions := ⟨[("Hu", "A Dűne"), ("HU", "Dűne")], by decide⟩
    ¬ e.Settled "hu" ∧ find? e "hu" = some "Dűne" ∧ find? f "hu" = some "A Dűne" := by
  decide +kernel

/-- A title that is put in settles its own language and leaves every other one as it was. -/
theorem settled_insert {code : String}
    (settled : Language.normalize language = Language.normalize code ∨ e.Settled language) :
    Settled (e.insert (Language.normalize code) title) language := by
  have keys : ∀ k, k ∈ Assoc.keys (e.insert (Language.normalize code) title) ↔
      k = Language.normalize code ∨ k ∈ e.keys := Assoc.mem_keys_put _ title e.entries
  by_cases own : Language.normalize language = Language.normalize code
  · exact Or.inl ((keys _).mpr (Or.inl own))
  · rcases settled.resolve_left own with exact_code | single
    · exact Or.inl ((keys _).mpr (Or.inr exact_code))
    · -- the code that is put in is no spelling of the language
      have old : ∀ k, k ∈ Assoc.keys (e.insert (Language.normalize code) title) →
          Language.normalize k = Language.normalize language → k ∈ e.keys := by
        intro k member spelled
        rcases (keys k).mp member with rfl | known
        · rw [Language.normalize_normalize] at spelled
          exact absurd spelled.symm own
        · exact known
      exact Or.inr fun k member other member' spelled spelled' =>
        single k (old k member spelled) other (old other member' spelled') spelled spelled'

end Editions

namespace Book

variable {b c : Book}

theorem primaryTitleIn_spelling (b : Book) {code language : String}
    (same : Language.normalize code = Language.normalize language) :
    b.primaryTitleIn code = b.primaryTitleIn language := by
  rw [primaryTitleIn, primaryTitleIn, b.titleIn_spelling same]

/-- The book itself, but for the order in which its editions are enumerated. -/
structure Reenumerates (c b : Book) : Prop where
  rest : c = { b with titlesByLanguage := c.titlesByLanguage }
  editions : c.titlesByLanguage.Reordered b.titlesByLanguage

theorem Reenumerates.titleIn_eq {language : String} (same : c.Reenumerates b)
    (settled : b.titlesByLanguage.Settled language) : c.titleIn language = b.titleIn language :=
  congrArg (·.bind Text.nonBlank) (Editions.find?_of_reordered same.editions settled)

theorem titleIn_of_titled {language title : String} (settled : b.titlesByLanguage.Settled language)
    (titled : b.titlesByLanguage.Titled language title) :
    b.titleIn language = Text.nonBlank title := by
  rw [titleIn, (Editions.find?_eq_some_iff settled).mpr titled, Option.bind_some]

theorem titleIn_of_unlisted {language : String}
    (unlisted : ∀ code ∈ b.titlesByLanguage.keys,
      Language.normalize code ≠ Language.normalize language) : b.titleIn language = none := by
  rw [titleIn, Editions.find?_eq_none_iff.mpr unlisted, Option.bind_none]

/-- Adds titles one after the other. -/
def withTitlesIn (b : Book) (calls : List (String × String)) : Book :=
  calls.foldl (fun b call => b.withTitleIn call.1 call.2) b

theorem withTitlesIn_append_singleton (b : Book) (calls : List (String × String))
    (call : String × String) :
    b.withTitlesIn (calls ++ [call]) = (b.withTitlesIn calls).withTitleIn call.1 call.2 := by
  rw [withTitlesIn, List.foldl_append]
  rfl

theorem settled_withTitlesIn (calls : List (String × String)) {language : String}
    (settled : b.titlesByLanguage.Settled language) :
    (b.withTitlesIn calls).titlesByLanguage.Settled language := by
  induction calls using List.reverseRecOn with
  | nil => exact settled
  | append_singleton calls call ih =>
    rw [withTitlesIn_append_singleton]
    exact Editions.settled_insert (Or.inr ih)

/-- Of the titles that were added for a language the last counts. -/
theorem titleIn_withTitlesIn (b : Book) (calls : List (String × String)) (language : String) :
    (b.withTitlesIn calls).titleIn language =
      ((calls.filter fun call =>
        Language.normalize call.1 = Language.normalize language).getLast?.map fun call =>
          Text.nonBlank call.2).getD (b.titleIn language) := by
  induction calls using List.reverseRecOn with
  | nil => rfl
  | append_singleton calls call ih =>
    rw [withTitlesIn_append_singleton, titleIn_withTitleIn, ih, List.filter_append]
    by_cases same : Language.normalize call.1 = Language.normalize language
    · rw [if_pos same.symm, List.filter_cons_of_pos (by simpa using same), List.filter_nil,
        List.getLast?_concat, Option.map_some, Option.getD_some]
    · rw [if_neg (Ne.symm same), List.filter_cons_of_neg (by simpa using same), List.filter_nil,
        List.append_nil]

theorem titleIn_new_withTitlesIn (name : String) (calls : List (String × String))
    (language : String) : (withTitlesIn { title := name } calls).titleIn language =
      (calls.filter fun call =>
        Language.normalize call.1 = Language.normalize language).getLast?.bind fun call =>
          Text.nonBlank call.2 := by
  rw [titleIn_withTitlesIn, titleIn_of_unlisted (fun code member => absurd member List.not_mem_nil)]
  cases (calls.filter fun call =>
      Language.normalize call.1 = Language.normalize language).getLast? with
  | none => rfl
  | some call => rfl

/-- The titles of a book obey the laws of a map, up to the spelling of the languages. A look-up does
not see how its language is spelled. A title that is put in is what its language has from then on,
trimmed, and changes no other language. Where the editions leave no choice of a title, it does not
matter how they are enumerated, and for a book to which titles were added one after the other it never
does: the last one for a language counts. -/
theorem titleIn_mapLaws (b : Book) :
    let normal := fun code : String => Text.lower (Text.trim code)
    let trimmed := fun title : String => if Text.trim title = "" then none else some (Text.trim title)
    let e := b.titlesByLanguage
    let settled := fun language => normal language ∈ e.keys ∨
      ∀ code ∈ e.keys, ∀ other ∈ e.keys, normal code = normal language →
        normal other = normal language → code = other
    (∀ code language, normal code = normal language →
      b.titleIn code = b.titleIn language ∧ b.primaryTitleIn code = b.primaryTitleIn language) ∧
    (∀ code title language (c : Book), c.Reenumerates (b.withTitleIn code title) →
      (normal code = normal language → c.titleIn language = trimmed title) ∧
      (normal code ≠ normal language → settled language →
        c.titleIn language = b.titleIn language)) ∧
    (∀ language, settled language →
      (∀ c : Book, c.Reenumerates b → c.titleIn language = b.titleIn language) ∧
      (∀ title, (normal language, title) ∈ e.entries → b.titleIn language = trimmed title) ∧
      (normal language ∉ e.keys → ∀ code title, (code, title) ∈ e.entries →
        normal code = normal language → b.titleIn language = trimmed title) ∧
      ((∀ code ∈ e.keys, normal code ≠ normal language) → b.titleIn language = none)) ∧
    ∀ name calls language (c : Book), c.Reenumerates (withTitlesIn { title := name } calls) →
      c.titleIn language =
        (calls.filter fun call => normal call.1 = normal language).getLast?.bind fun call =>
          trimmed call.2 := by
  intro normal trimmed e settled
  refine ⟨fun code language same => ⟨b.titleIn_spelling same, b.primaryTitleIn_spelling same⟩,
    ?_, ?_, ?_⟩
  · intro code title language c same
    constructor
    · intro spelled
      have own : Language.normalize language = Language.normalize code := spelled.symm
      rw [same.titleIn_eq (Editions.settled_insert (Or.inl own)), titleIn_withTitleIn, if_pos own]
      rfl
    · intro apart known
      have other : Language.normalize language ≠ Language.normalize code := apart.symm
      rw [same.titleIn_eq (Editions.settled_insert (Or.inr known)), titleIn_withTitleIn,
        if_neg other]
  · intro language known
    exact ⟨fun c same => same.titleIn_eq known,
      fun title member => titleIn_of_titled known (.exact member),
      fun missing code title member same => titleIn_of_titled known (.respelled missing member same),
      titleIn_of_unlisted⟩
  · intro name calls language c same
    have new : ({ title := name } : Book).titlesByLanguage.Settled language :=
      Or.inr fun code member => absurd member List.not_mem_nil
    rw [same.titleIn_eq (settled_withTitlesIn calls new)]
    exact titleIn_new_withTitlesIn name calls language

theorem titleIn_mapLaws_mixed_codes :
    let normal := fun code : String => Text.lower (Text.trim code)
    let titles := [("HU ", " A Dűne "), ("hu", ""), (" De", " Der Wüstenplanet")]
    let b : Book := { title := "Dune", titlesByLanguage := ⟨titles, by decide⟩ }
    let c : Book := { title := "Dune", titlesByLanguage := ⟨titles.reverse, by decide⟩ }
    let added : Book :=
      { title := "Dune", titlesByLanguage := ⟨("hu", "Dűne ") :: titles.eraseIdx 1, by decide⟩ }
    let calls := [("FR", "Dune (fr)"), ("hu", "A Dűne"), (" fr", " Dune I ")]
    normal "DE" = normal " de " ∧ b.titleIn "DE" = b.titleIn " de " ∧
      b.primaryTitleIn "DE" = b.primaryTitleIn " de " ∧
      b.titlesByLanguage.Settled "HU" ∧ b.titlesByLanguage.Settled "de" ∧
      c.Reenumerates b ∧ c.titleIn "HU" = none ∧ c.titleIn "de" = some "Der Wüstenplanet" ∧
      added.Reenumerates (b.withTitleIn " Hu" "Dűne ") ∧ added.titleIn "HU" = some "Dűne" ∧
      added.titleIn "de" = some "Der Wüstenplanet" ∧
      (withTitlesIn { title := "Dune" } calls).titleIn "Fr" = some "Dune I" ∧
      (withTitlesIn { title := "Dune" } calls).titleIn "de" = none := by
  intro normal titles b c added calls
  have hungarian : b.titlesByLanguage.Settled "HU" := by decide +kernel
  have german : b.titlesByLanguage.Settled "de" := by decide +kernel
  have reversed : c.Reenumerates b := ⟨rfl, by unfold Editions.Reordered; decide +kernel⟩
  have put : added.Reenumerates (b.withTitleIn " Hu" "Dűne ") :=
    ⟨rfl, by unfold Editions.Reordered; decide +kernel⟩
  have same : normal "DE" = normal " de " := by decide +kernel
  obtain ⟨spelling, insertion, enumeration, run⟩ := b.titleIn_mapLaws
  have every : ∀ language, (withTitlesIn { title := "Dune" } calls).titleIn language = _ :=
    fun language => run "Dune" calls language _ ⟨rfl, List.Perm.refl _⟩
  refine ⟨same, (spelling _ _ same).1, (spelling _ _ same).2, hungarian, german, reversed, ?_, ?_,
    put, ?_, ?_, ?_, ?_⟩
  · rw [(enumeration "HU" hungarian).1 c reversed,
      (enumeration "HU" hungarian).2.1 "" (by decide +kernel)]
    decide
  · rw [(enumeration "de" german).1 c reversed,
      (enumeration "de" german).2.2.1 (by decide +kernel) " De" " Der Wüstenplanet" (by decide)
        (by decide +kernel)]
    decide +kernel
  · rw [(insertion " Hu" "Dűne " "HU" added put).1 (by decide +kernel)]
    decide +kernel
  · rw [(insertion " Hu" "Dűne " "de" added put).2 (by decide +kernel) german]
    decide +kernel
  · rw [every]
    decide +kernel
  · rw [every]
    decide +kernel

end Book

end ReleaseSearch
