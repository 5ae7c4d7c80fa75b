import ReleaseSearch.Proofs.Author.GivenNames
import ReleaseSearch.Proofs.Rules
import ReleaseSearch.Proofs.Simplifier
import ReleaseSearch.Proofs.Text.Ascii

/-! The two ways a name is written, forward and inverted, and the reader of names. A name is read in
forward order exactly when it is written so. What is read in inverted order is written so too; of the
readings with and without an initial the first one counts. -/
namespace ReleaseSearch
open Text

namespace AuthorName

/-- A middle initial: a capital with a period, which blanks set off. -/
inductive Initial : List Char → Prop where
  | mk {gap m} : Gap gap → m.isUpper = true → Initial (gap ++ [m, '.'])

/-- A family name in forward order: one word without a comma. -/
structure FamilyWord (cs : List Char) : Prop where
  ne_nil : cs ≠ []
  plain : ∀ c ∈ cs, isFamilyChar c = true

/-- The end of a name: nothing more, or a suffix, which a comma may announce. -/
inductive Ending (suffixes : List (List Char)) : List Char → Option (List Char) → Prop where
  | nothing : Ending suffixes [] none
  | spaced {gap suffix} : Gap gap → suffix ∈ suffixes →
      Ending suffixes (gap ++ suffix) (some suffix)
  | announced {gap suffix} : Gap gap → suffix ∈ suffixes →
      Ending suffixes (',' :: (gap ++ suffix)) (some suffix)

/-- A name in forward order. -/
inductive Forward (suffixes : List (List Char)) : List Char → AuthorName → Prop where
  | mk {given initial blanks family tail suffix} : Given given → Initial initial →
      (∀ c ∈ blanks, isAsciiBlank c = true) → FamilyWord family → Ending suffixes tail suffix →
      Forward suffixes (given ++ (initial ++ (blanks ++ (family ++ tail)))) ⟨given, family, suffix⟩

/-- A name in inverted order, as it is read. -/
inductive Inverted (suffixes : List (List Char)) : List Char → AuthorName → Prop where
  | mk {family blanks rest given suffix} : family ≠ [] → ',' ∉ family →
      (∀ c ∈ blanks, isAsciiBlank c = true) → Reads (invertedRest? suffixes) rest given suffix →
      Inverted suffixes (family ++ ',' :: (blanks ++ rest)) ⟨given, family, suffix⟩

/-- How a name is read: in forward order if it can be, in inverted order otherwise. -/
def Reading (suffixes : List (List Char)) (cs : List Char) (name : AuthorName) : Prop :=
  Forward suffixes cs name ∨
    (∀ other, ¬ Forward suffixes cs other) ∧ Inverted suffixes cs name

theorem afterBlanks?_eq_some_iff {cs rest : List Char} :
    afterBlanks? cs = some rest ↔ NoBlankAhead rest ∧ ∃ gap, Gap gap ∧ cs = gap ++ rest := by
  constructor
  · intro h
    cases cs with
    | nil => cases h
    | cons c more =>
      rw [afterBlanks?] at h
      split at h
      · rename_i blank
        cases h
        refine ⟨noBlankAhead_dropWhile more, c :: more.takeWhile isAsciiBlank, ⟨by simp, ?_⟩, ?_⟩
        · intro d member
          rcases List.mem_cons.mp member with rfl | member
          · exact blank
          · exact List.mem_takeWhile_imp member
        · rw [List.cons_append, List.takeWhile_append_dropWhile]
      · cases h
  · rintro ⟨clear, gap, blanks, rfl⟩
    obtain ⟨c, more, rfl, blank⟩ := blanks.exists_cons
    rw [List.cons_append, afterBlanks?, if_pos blank, List.dropWhile_append_of_pos, clear.dropWhile_eq]
    exact fun d member => blanks.blank d (List.mem_cons_of_mem c member)

theorem afterInitial?_eq_some_iff {cs rest : List Char} :
    afterInitial? cs = some rest ↔ ∃ initial, Initial initial ∧ cs = initial ++ rest := by
  constructor
  · intro h
    unfold afterInitial? at h
    split at h
    · rename_i m more blanks
      split at h
      · rename_i upper
        cases h
        obtain ⟨_, gap, isGap, rfl⟩ := afterBlanks?_eq_some_iff.mp blanks
        exact ⟨gap ++ [m, '.'], .mk isGap upper, by simp⟩
      · cases h
    · cases h
  · rintro ⟨initial, ⟨isGap, upper⟩, rfl⟩
    rename_i gap m
    have blanks : afterBlanks? (gap ++ [m, '.'] ++ rest) = some (m :: '.' :: rest) := by
      refine afterBlanks?_eq_some_iff.mpr ⟨?_, gap, isGap, by simp⟩
      intro c member
      cases Option.mem_some.mp member
      exact isAsciiBlank_of_not_isBlank (isBlank_of_isUpper upper)
    rw [afterInitial?, blanks]
    exact if_pos upper

theorem afterInitial?_of_given {gap later : List Char} (blanks : Gap gap) (names : Given later)
    (rest : List Char) : afterInitial? (gap ++ (later ++ rest)) = none := by
  have behind : afterBlanks? (gap ++ (later ++ rest)) = some (later ++ rest) :=
    afterBlanks?_eq_some_iff.mpr ⟨names.noBlankAhead_append rest, gap, blanks, rfl⟩
  obtain ⟨c, d, more, rfl, _, second⟩ := names.exists_cons
  rw [afterInitial?, behind]
  split
  · rename_i eq
    cases eq
    exact absurd second (by decide)
  · rfl

theorem Initial.nameEnds_append {initial : List Char} (h : Initial initial) (rest : List Char) :
    NameEnds (initial ++ rest) := by
  obtain ⟨gap, _⟩ := h
  rw [List.append_assoc]
  exact gap.nameEnds_append _

theorem FamilyWord.no_blank {family : List Char} (h : FamilyWord family) :
    ∀ c ∈ family, isAsciiBlank c = false := by
  intro c member
  have plain := h.plain c member
  simp only [isFamilyChar, Bool.and_eq_true, Bool.not_eq_true'] at plain
  exact plain.1

theorem Gap.familyEnds_append {gap : List Char} (h : Gap gap) (rest : List Char) :
    ∀ c ∈ (gap ++ rest).head?, isFamilyChar c = false := by
  obtain ⟨b, more, rfl, blank⟩ := h.exists_cons
  rintro c ⟨⟩
  simp [isFamilyChar, blank]

theorem FamilyWord.noBlankAhead_append {family : List Char} (h : FamilyWord family)
    (rest : List Char) : NoBlankAhead (family ++ rest) := by
  obtain ⟨c, more, rfl⟩ := List.exists_cons_of_ne_nil h.ne_nil
  intro d member
  cases Option.mem_some.mp member
  exact h.no_blank c (List.mem_cons_self ..)

theorem Ending.splits_word {suffixes : List (List Char)} {family tail : List Char}
    {suffix : Option (List Char)} (h : Ending suffixes tail suffix) (word : FamilyWord family) :
    (family ++ tail).takeWhile isFamilyChar = family ∧
      (family ++ tail).dropWhile isFamilyChar = tail := by
  apply split_run word.plain
  cases h with
  | nothing => rintro c ⟨⟩
  | spaced gap _ => exact gap.familyEnds_append _
  | announced _ _ =>
    rintro c ⟨⟩
    rfl

/-- The suffix of an ending is one of the table, and a blank stands before it. -/
theorem Ending.suffix_known {suffixes : List (List Char)} {tail : List Char}
    {suffix : Option (List Char)} (h : Ending suffixes tail suffix) :
    ∀ word ∈ suffix, word ∈ suffixes ∧ ∃ b, isAsciiBlank b = true ∧ b :: word <:+ tail := by
  intro word attached
  cases h with
  | nothing => cases attached
  | spaced gap known =>
    cases Option.mem_some.mp attached
    exact ⟨known, gap.exists_suffix word⟩
  | announced gap known =>
    cases Option.mem_some.mp attached
    obtain ⟨b, blank, ends⟩ := gap.exists_suffix word
    exact ⟨known, b, blank, ends.trans (List.suffix_cons ..)⟩

theorem Forward.suffix_known {suffixes : List (List Char)} {cs : List Char} {name : AuthorName}
    (h : Forward suffixes cs name) :
    ∀ word ∈ name.suffix, word ∈ suffixes ∧ ∃ b, isAsciiBlank b = true ∧ b :: word <:+ cs := by
  intro word attached
  obtain @⟨given, initial, blanks, family, tail, _, _, _, _, _, ends⟩ := h
  obtain ⟨known, b, blank, last⟩ := ends.suffix_known word attached
  exact ⟨known, b, blank, last.trans ⟨given ++ (initial ++ (blanks ++ family)), by simp⟩⟩

/-- A suffix reaches to the end of a text only when it is the text. -/
theorem admits_wholeSuffix_iff {suffix cs found : List Char} :
    Admits (· == ·) wholeSuffix? suffix cs found ↔ suffix = cs ∧ found = cs := by
  rw [Admits, Option.bind_eq_some_iff]
  constructor
  · rintro ⟨rest, behind, taken⟩
    rw [wholeSuffix?] at taken
    split at taken
    · rename_i ends
      rw [afterWord?_exact, List.isEmpty_iff.mp ends, List.append_nil] at behind
      cases taken
      exact ⟨behind.symm, behind.symm⟩
    · cases taken
  · rintro ⟨rfl, rfl⟩
    exact ⟨[], afterWord?_exact.mpr (List.append_nil _).symm, rfl⟩

theorem oneAnswer_wholeSuffix (cs : List Char) : OneAnswer (· == ·) wholeSuffix? cs := by
  intro suffix other found found' first second
  rw [(admits_wholeSuffix_iff.mp first).2, (admits_wholeSuffix_iff.mp second).2]

/-- Of the suffixes only the whole rest is ever taken, whatever stands before it in the table. -/
theorem spacedSuffix?_eq (suffixes : List (List Char)) (cs : List Char) :
    spacedSuffix? suffixes cs = (afterBlanks? cs).filter suffixes.contains := by
  ext suffix
  rw [spacedSuffix?, Option.bind_eq_some_iff, Option.filter_eq_some_iff]
  simp only [firstMatch?_eq_some_iff (oneAnswer_wholeSuffix _), admits_wholeSuffix_iff,
    List.contains_iff_mem]
  constructor
  · rintro ⟨word, behind, _, member, rfl, rfl⟩
    exact ⟨behind, member⟩
  · rintro ⟨behind, member⟩
    exact ⟨suffix, behind, suffix, member, rfl, rfl⟩

theorem ending?_of_gap (suffixes : List (List Char)) {gap : List Char} (blanks : Gap gap)
    (rest : List Char) :
    ending? suffixes (gap ++ rest) = (spacedSuffix? suffixes (gap ++ rest)).map some := by
  obtain ⟨c, more, rfl, blank⟩ := blanks.exists_cons
  rw [List.cons_append]
  unfold ending?
  split
  · rename_i eq
    cases eq
  · rename_i eq
    cases eq
    exact absurd blank (by decide)
  · rfl

/-- Where a given name follows, no end is read unless all the rest is a suffix. -/
theorem invertedRest?_of_given {suffixes : List (List Char)} {gap later rest : List Char}
    (blanks : Gap gap) (names : Given later) (unknown : later ++ rest ∉ suffixes) :
    invertedRest? suffixes (gap ++ (later ++ rest)) = none := by
  have behind : afterBlanks? (gap ++ (later ++ rest)) = some (later ++ rest) :=
    afterBlanks?_eq_some_iff.mpr ⟨names.noBlankAhead_append rest, gap, blanks, rfl⟩
  have suffix : spacedSuffix? suffixes (gap ++ (later ++ rest)) = none := by
    rw [spacedSuffix?_eq, behind, Option.filter_some, if_neg (by simpa using unknown)]
  rw [invertedRest?, afterInitial?_of_given blanks names, Option.bind_none, Option.none_or,
    ending?_of_gap suffixes blanks, suffix]
  rfl

section Readers

/-! No suffix begins with a blank. -/

variable {suffixes : List (List Char)} (clear : ∀ suffix ∈ suffixes, NoBlankAhead suffix)
include clear

theorem spacedSuffix?_eq_some_iff {cs suffix : List Char} :
    spacedSuffix? suffixes cs = some suffix ↔
      suffix ∈ suffixes ∧ ∃ gap, Gap gap ∧ cs = gap ++ suffix := by
  rw [spacedSuffix?_eq, Option.filter_eq_some_iff, afterBlanks?_eq_some_iff, List.contains_iff_mem]
  constructor
  · rintro ⟨⟨_, written⟩, known⟩
    exact ⟨known, written⟩
  · rintro ⟨known, written⟩
    exact ⟨⟨clear suffix known, written⟩, known⟩

theorem ending?_eq_some_iff {cs : List Char} {suffix : Option (List Char)} :
    ending? suffixes cs = some suffix ↔ Ending suffixes cs suffix := by
  have spaced : ∀ {cs : List Char}, (spacedSuffix? suffixes cs).map some = some suffix →
      ∃ word gap, suffix = some word ∧ word ∈ suffixes ∧ Gap gap ∧ cs = gap ++ word := by
    intro cs h
    obtain ⟨word, found, rfl⟩ := Option.map_eq_some_iff.mp h
    obtain ⟨known, gap, blanks, eq⟩ := (spacedSuffix?_eq_some_iff clear).mp found
    exact ⟨word, gap, rfl, known, blanks, eq⟩
  constructor
  · intro h
    unfold ending? at h
    split at h
    · cases h
      exact .nothing
    · obtain ⟨word, gap, rfl, known, blanks, rfl⟩ := spaced h
      exact .announced blanks known
    · obtain ⟨word, gap, rfl, known, blanks, rfl⟩ := spaced h
      exact .spaced blanks known
  · intro h
    cases h with
    | nothing => rfl
    | @spaced gap word blanks known =>
      have found := (spacedSuffix?_eq_some_iff clear).mpr ⟨known, gap, blanks, rfl⟩
      rw [ending?_of_gap suffixes blanks, found]
      rfl
    | @announced gap word blanks known =>
      have found := (spacedSuffix?_eq_some_iff clear).mpr ⟨known, gap, blanks, rfl⟩
      rw [ending?, found]
      rfl

theorem forwardRest?_eq_some_iff {cs family : List Char} {suffix : Option (List Char)} :
    forwardRest? suffixes cs = some (family, suffix) ↔
      ∃ initial blanks tail, Initial initial ∧ (∀ c ∈ blanks, isAsciiBlank c = true) ∧
        FamilyWord family ∧ Ending suffixes tail suffix ∧
        cs = initial ++ (blanks ++ (family ++ tail)) := by
  constructor
  · intro h
    simp only [forwardRest?, Option.bind_eq_bind, Option.bind_eq_some_iff] at h
    obtain ⟨behind, found, h⟩ := h
    obtain ⟨initial, capital, rfl⟩ := afterInitial?_eq_some_iff.mp found
    split at h
    · cases h
    · rename_i filled
      obtain ⟨ending, ends, eq⟩ := Option.bind_eq_some_iff.mp h
      cases eq
      refine ⟨initial, behind.takeWhile isAsciiBlank, _, capital,
        fun c member => List.mem_takeWhile_imp member, ⟨by simpa using filled, ?_⟩,
        (ending?_eq_some_iff clear).mp ends, ?_⟩
      · exact fun c member => List.mem_takeWhile_imp member
      · rw [List.takeWhile_append_dropWhile, List.takeWhile_append_dropWhile]
  · rintro ⟨initial, blanks, tail, capital, blank, word, ends, rfl⟩
    have found : afterInitial? (initial ++ (blanks ++ (family ++ tail))) =
        some (blanks ++ (family ++ tail)) := afterInitial?_eq_some_iff.mpr ⟨initial, capital, rfl⟩
    have front : (family ++ tail).dropWhile isAsciiBlank = family ++ tail :=
      NoBlankAhead.dropWhile_eq (word.noBlankAhead_append tail)
    obtain ⟨taken, left⟩ := ends.splits_word word
    rw [forwardRest?, found]
    dsimp only [Option.bind_eq_bind, Option.bind_some]
    rw [List.dropWhile_append_of_pos blank, front, taken, left, if_neg (by simpa using word.ne_nil),
      (ending?_eq_some_iff clear).mpr ends]
    rfl

theorem exists_of_invertedRest? {cs : List Char} {suffix : Option (List Char)}
    (h : invertedRest? suffixes cs = some suffix) :
    ∃ initial tail, (initial = [] ∨ Initial initial) ∧ Ending suffixes tail suffix ∧
      cs = initial ++ tail := by
  rcases Option.or_eq_some_iff.mp h with behind | ⟨_, plain⟩
  · obtain ⟨tail, found, ends⟩ := Option.bind_eq_some_iff.mp behind
    obtain ⟨initial, capital, rfl⟩ := afterInitial?_eq_some_iff.mp found
    exact ⟨initial, tail, Or.inr capital, (ending?_eq_some_iff clear).mp ends, rfl⟩
  · exact ⟨[], cs, Or.inl rfl, (ending?_eq_some_iff clear).mp plain, rfl⟩

theorem invertedRest?_of_initial {initial tail : List Char} {suffix : Option (List Char)}
    (capital : Initial initial) (ends : Ending suffixes tail suffix) :
    invertedRest? suffixes (initial ++ tail) = some suffix := by
  have found : afterInitial? (initial ++ tail) = some tail :=
    afterInitial?_eq_some_iff.mpr ⟨initial, capital, rfl⟩
  rw [invertedRest?, found, Option.bind_some, (ending?_eq_some_iff clear).mpr ends, Option.some_or]

/-- Where no ending follows an initial, the text may still be an ending as a whole. -/
theorem invertedRest?_of_ending {tail : List Char} {suffix : Option (List Char)}
    (ends : Ending suffixes tail suffix)
    (whole : (afterInitial? tail).bind (ending? suffixes) = none) :
    invertedRest? suffixes tail = some suffix := by
  rw [invertedRest?, whole, Option.none_or, (ending?_eq_some_iff clear).mpr ends]

theorem Inverted.suffix_known {cs : List Char} {name : AuthorName}
    (h : Inverted suffixes cs name) :
    ∀ word ∈ name.suffix, word ∈ suffixes ∧ ∃ b, isAsciiBlank b = true ∧ b :: word <:+ cs := by
  intro word attached
  obtain @⟨family, blanks, _, given, _, _, _, _, reading⟩ := h
  obtain ⟨rest, rfl, _, accepted⟩ := reading.exists_rest
  obtain ⟨initial, tail, _, ends, rfl⟩ := exists_of_invertedRest? clear accepted
  obtain ⟨known, b, blank, last⟩ := ends.suffix_known word attached
  exact ⟨known, b, blank, last.trans ⟨family ++ ',' :: (blanks ++ (given ++ initial)), by simp⟩⟩

theorem Reading.suffix_known {cs : List Char} {name : AuthorName} (h : Reading suffixes cs name) :
    ∀ word ∈ name.suffix, word ∈ suffixes ∧ ∃ b, isAsciiBlank b = true ∧ b :: word <:+ cs := by
  rcases h with forward | ⟨_, inverted⟩
  · exact forward.suffix_known
  · exact inverted.suffix_known clear

/-- A text in forward order is read in forward order, and no other one is. -/
theorem ofForward?_eq_some_iff {cs : List Char} {name : AuthorName} (ahead : NoBlankAhead cs) :
    ofForward? suffixes cs = some name ↔ Forward suffixes cs name := by
  constructor
  · intro h
    obtain ⟨⟨given, family, suffix⟩, found, rfl⟩ := Option.map_eq_some_iff.mp h
    obtain ⟨rest, rfl, names, accepted⟩ := (reads_of_givenThen? ahead found).exists_rest
    obtain ⟨initial, blanks, tail, capital, blank, word, ends, rfl⟩ :=
      (forwardRest?_eq_some_iff clear).mp accepted
    exact .mk names capital blank word ends
  · rintro ⟨names, capital, blank, word, ends⟩
    rename_i given initial blanks family tail suffix
    have accepted : forwardRest? suffixes (initial ++ (blanks ++ (family ++ tail))) =
        some (family, suffix) :=
      (forwardRest?_eq_some_iff clear).mpr ⟨_, _, _, capital, blank, word, ends, rfl⟩
    -- a further given name is no initial, so the reading goes on to the last of them
    have refused : ∀ front gap later, given = front ++ (gap ++ later) → Gap gap → Given later →
        forwardRest? suffixes
          (gap ++ (later ++ (initial ++ (blanks ++ (family ++ tail))))) = none := by
      intro front gap later _ isGap isGiven
      rw [forwardRest?, afterInitial?_of_given isGap isGiven]
      rfl
    rw [ofForward?, (names.reads (capital.nameEnds_append _) accepted refused).givenThen?_eq]
    rfl

end Readers

theorem exists_comma_of_dropWhile {cs rest : List Char} {c : Char}
    (h : cs.dropWhile (· != ',') = c :: rest) :
    ',' ∉ cs.takeWhile (· != ',') ∧ cs = cs.takeWhile (· != ',') ++ ',' :: rest := by
  constructor
  · intro member
    simpa using List.mem_takeWhile_imp member
  · have comma := List.head?_dropWhile_not (· != ',') cs
    rw [h] at comma
    have eq : c = ',' := by simpa using comma
    rw [← eq, ← h, eq, List.takeWhile_append_dropWhile]

theorem split_comma {family : List Char} (free : ',' ∉ family) (rest : List Char) :
    (family ++ ',' :: rest).takeWhile (· != ',') = family ∧
      (family ++ ',' :: rest).dropWhile (· != ',') = ',' :: rest := by
  apply split_run
  · intro c member
    rw [bne_iff_ne]
    rintro rfl
    exact free member
  · rintro c ⟨⟩
    rfl

theorem ofInverted?_eq_some_iff {suffixes : List (List Char)} {cs : List Char} {name : AuthorName} :
    ofInverted? suffixes cs = some name ↔ Inverted suffixes cs name := by
  constructor
  · intro h
    unfold ofInverted? at h
    dsimp only at h
    split at h
    · cases h
    · rename_i c rest behind
      obtain ⟨free, split⟩ := exists_comma_of_dropWhile behind
      generalize cs.takeWhile (· != ',') = family at h free split
      subst split
      split at h
      · cases h
      · rename_i filled
        obtain ⟨⟨given, suffix⟩, found, rfl⟩ := Option.map_eq_some_iff.mp h
        have written := Inverted.mk (by simpa using filled) free
          (fun d (member : d ∈ rest.takeWhile isAsciiBlank) => List.mem_takeWhile_imp member)
          (reads_of_givenThen? (noBlankAhead_dropWhile rest) found)
        rwa [List.takeWhile_append_dropWhile] at written
  · rintro ⟨filled, free, blank, reading⟩
    rename_i family blanks rest given suffix
    have front : rest.dropWhile isAsciiBlank = rest := by
      obtain ⟨later, rfl, names, _⟩ := reading.exists_rest
      exact (names.noBlankAhead_append later).dropWhile_eq
    obtain ⟨taken, left⟩ := split_comma free (blanks ++ rest)
    unfold ofInverted?
    rw [taken, left]
    dsimp only
    rw [if_neg (by simpa using filled), List.dropWhile_append_of_pos blank, front,
      reading.givenThen?_eq]
    rfl

theorem noBlankAhead_of_trimmed {text : String} (h : Trimmed text) : NoBlankAhead text.toList :=
  fun c member => isAsciiBlank_of_not_isBlank (h.1 c member)

theorem exists_of_mem_suffixesOf {rules : Rules} {suffix : List Char}
    (h : suffix ∈ suffixesOf rules) :
    ∃ entry ∈ vocabulary rules.nameSuffixes, entry.toList = suffix ∧ Tidy entry := by
  obtain ⟨entry, member, rfl⟩ := List.mem_map.mp h
  obtain ⟨raw, _, rfl, filled⟩ := mem_vocabulary_iff.mp member
  exact ⟨_, member, rfl, tidy_trim filled⟩

theorem noBlankAhead_suffixesOf (rules : Rules) :
    ∀ suffix ∈ suffixesOf rules, NoBlankAhead suffix := by
  intro suffix member
  obtain ⟨entry, _, rfl, tidy⟩ := exists_of_mem_suffixesOf member
  exact noBlankAhead_of_trimmed tidy.trimmed

theorem ofText?_eq_some_iff {rules : Rules} {author : String} (clear : Trimmed author)
    {name : AuthorName} :
    ofText? rules author = some name ↔ Reading (suffixesOf rules) author.toList name := by
  have forward : ∀ {name}, ofForward? (suffixesOf rules) author.toList = some name ↔
      Forward (suffixesOf rules) author.toList name :=
    ofForward?_eq_some_iff (noBlankAhead_suffixesOf rules) (noBlankAhead_of_trimmed clear)
  rw [ofText?, Option.or_eq_some_iff, forward, ofInverted?_eq_some_iff,
    Option.eq_none_iff_forall_ne_some]
  simp only [Ne, forward, Reading]

end AuthorName

theorem Simplifier.simplifyAuthor_eq_simplified_iff {s : Simplifier} {author text : String} :
    s.simplifyAuthor author = .simplified text ↔
      ∃ name, AuthorName.ofText? s.rules (trim author) = some name ∧ trim name.display = text ∧
        text ≠ "" ∧ text ≠ trim author := by
  unfold simplifyAuthor
  dsimp only
  cases AuthorName.ofText? s.rules (trim author) with
  | none => simp
  | some name =>
    dsimp only
    rw [Outcome.ofCandidate_eq_simplified_iff, trim_trim]
    simp

end ReleaseSearch
