import ReleaseSearch.Proofs.Author.Grammar

/-! The two orders of a name. Whether a name is written forward with its initial or inverted, the
simplified name is the same: given names, family name, suffix. -/
namespace ReleaseSearch
open Text AuthorName

/-- The suffixes of the table are single words, and none of them looks like an initial. -/
structure Rules.PlainSuffixes (rules : Rules) : Prop where
  oneWord : ∀ entry ∈ vocabulary rules.nameSuffixes, ∀ c ∈ entry.toList, isAsciiBlank c = false
  noInitial : ∀ entry ∈ vocabulary rules.nameSuffixes, ∀ m : Char, m.isUpper = true →
    entry.toList ≠ [m, '.']

/-- The parts a name is written from. -/
structure NameParts where
  given : List String
  family : String
  initial : Option Char
  suffix : Option String

namespace NameParts

def initialText (p : NameParts) : String :=
  match p.initial with
  | some m => " " ++ String.ofList [m, '.']
  | none => ""

/-- The suffix behind the name, which a comma may announce. -/
def suffixText (p : NameParts) (comma : Bool) : String :=
  match p.suffix with
  | some suffix => (if comma then "," else "") ++ " " ++ suffix
  | none => ""

def givenText (p : NameParts) : String := " ".intercalate p.given

def restText (p : NameParts) (comma : Bool) : String := p.initialText ++ p.suffixText comma

/-- `King, Martin L., Jr.` -/
def inverted (p : NameParts) (comma : Bool) : String :=
  p.family ++ "," ++ " " ++ p.givenText ++ p.restText comma

/-- `Martin L. King, Jr.` -/
def forward (p : NameParts) (comma : Bool) : String :=
  p.givenText ++ p.initialText ++ " " ++ p.family ++ p.suffixText comma

/-- `Martin King Jr.` -/
def plain (p : NameParts) : String :=
  p.givenText ++ " " ++ p.family ++ p.suffixText false

/-- The parts can be told apart in the written name. -/
structure WellWritten (p : NameParts) (rules : Rules) : Prop where
  named : p.given ≠ []
  given : ∀ name ∈ p.given, 2 ≤ name.length ∧
    ∀ c ∈ name.toList, isBlank c = false ∧ c ≠ '.' ∧ c ≠ ','
  family : p.family ≠ "" ∧ trim p.family = p.family ∧ ',' ∉ p.family.toList ∧ '.' ∉ p.family.toList
  initial : ∀ m ∈ p.initial, m.isUpper = true
  suffix : ∀ entry ∈ p.suffix, entry ∈ vocabulary rules.nameSuffixes

/-- With neither initial nor suffix, the last of several given names is an entry of the table. -/
structure EndsInSuffix (p : NameParts) (rules : Rules) : Prop where
  initial : p.initial = none
  suffix : p.suffix = none
  several : 2 ≤ p.given.length
  known : ∃ last ∈ p.given.getLast?, last ∈ vocabulary rules.nameSuffixes

def lastAsSuffix (p : NameParts) : NameParts :=
  { p with given := p.given.dropLast, suffix := p.given.getLast? }

end NameParts

namespace AuthorName

theorem given_intercalate {names : List String} (named : names ≠ [])
    (plain : ∀ name ∈ names, GivenName name.toList) : Given (" ".intercalate names).toList := by
  induction names with
  | nil => exact absurd rfl named
  | cons name rest ih =>
    cases rest with
    | nil =>
      rw [String.intercalate_singleton]
      exact .single (plain name (List.mem_cons_self ..))
    | cons next rest =>
      rw [String.intercalate_cons_cons, String.toList_append, String.toList_append,
        List.append_assoc]
      refine .more (plain name (List.mem_cons_self ..)) gap_space (ih (by simp) ?_)
      exact fun other member => plain other (List.mem_cons_of_mem name member)

theorem Ending.eq_nil_or_exists_blank {suffixes : List (List Char)} {tail : List Char}
    {suffix : Option (List Char)} (h : Ending suffixes tail suffix) :
    tail = [] ∨ ∃ c ∈ tail, isAsciiBlank c = true := by
  cases h with
  | nothing => exact Or.inl rfl
  | spaced gap _ =>
    obtain ⟨c, more, rfl, blank⟩ := gap.exists_cons
    exact Or.inr ⟨c, by simp, blank⟩
  | announced gap _ =>
    obtain ⟨c, more, rfl, blank⟩ := gap.exists_cons
    exact Or.inr ⟨c, by simp, blank⟩

/-- A suffix of one word has no initial in front of another ending, unless it is an initial. -/
theorem Ending.no_initial {suffixes : List (List Char)}
    (clear : ∀ suffix ∈ suffixes, NoBlankAhead suffix) {tail : List Char}
    {suffix : Option (List Char)} (h : Ending suffixes tail suffix)
    (oneWord : ∀ word ∈ suffix, ∀ c ∈ word, isAsciiBlank c = false)
    (noInitial : ∀ word ∈ suffix, ∀ m : Char, m.isUpper = true → word ≠ [m, '.']) :
    (afterInitial? tail).bind (ending? suffixes) = none := by
  cases h with
  | nothing => rfl
  | announced _ _ => rfl
  | @spaced gap word blanks known =>
    rw [Option.bind_eq_none_iff]
    intro behind found
    obtain ⟨initial, ⟨blanks', upper⟩, split⟩ := afterInitial?_eq_some_iff.mp found
    rename_i gap' m
    -- both readings of the text begin behind its first blanks
    have first := afterBlanks?_eq_some_iff.mpr ⟨clear word known, gap, blanks, rfl⟩
    have second : afterBlanks? (gap ++ word) = some (m :: '.' :: behind) := by
      refine afterBlanks?_eq_some_iff.mpr ⟨?_, gap', blanks', by simpa using split⟩
      intro c member
      cases Option.mem_some.mp member
      exact isAsciiBlank_of_not_isBlank (isBlank_of_isUpper upper)
    rw [first, Option.some_inj] at second
    subst second
    rw [Option.eq_none_iff_forall_ne_some]
    intro ending ends
    rcases ((ending?_eq_some_iff clear).mp ends).eq_nil_or_exists_blank with rfl | ⟨c, member, blank⟩
    · exact noInitial _ rfl m upper rfl
    · rw [oneWord _ rfl c (by simp [member])] at blank
      cases blank

/-- The first period or comma of a name in forward order is the period of its initial. -/
theorem Forward.find?_isStop {suffixes : List (List Char)} {cs : List Char} {name : AuthorName}
    (h : Forward suffixes cs name) : cs.find? isStop = some '.' := by
  obtain ⟨names, ⟨gap, upper⟩, _, _, _⟩ := h
  rename_i m
  have capital : ¬ isStop m = true := by
    rw [isStop_iff]
    rintro (rfl | rfl) <;> exact absurd upper (by decide)
  rw [List.find?_append, names.find?_isStop, Option.none_or, List.append_assoc, List.find?_append,
    gap.find?_isStop, Option.none_or, List.cons_append, List.find?_cons_of_neg capital]
  rfl

theorem not_forward_of_comma {family : List Char} (period : '.' ∉ family) (comma : ',' ∉ family)
    (suffixes : List (List Char)) (rest : List Char) (name : AuthorName) :
    ¬ Forward suffixes (family ++ ',' :: rest) name := by
  intro forward
  have stop := forward.find?_isStop
  rw [List.find?_append, (find?_isStop_eq_none_iff family).mpr ⟨period, comma⟩, Option.none_or,
    List.find?_cons_of_pos (by decide)] at stop
  exact absurd stop (by decide)

end AuthorName

namespace Text

theorem Tidy.append_comma {s : String} (h : Tidy s) : Tidy (s ++ ",") := by
  refine ⟨⟨?_, ?_⟩, ?_⟩
  · intro c member
    rw [String.toList_append, List.head?_append_of_ne_nil _ h.toList_ne_nil] at member
    exact h.trimmed.1 c member
  · intro c member
    rw [String.toList_append, List.getLast?_append_of_ne_nil _ (by simp)] at member
    cases Option.mem_some.mp member
    decide
  · obtain ⟨c, member, clear⟩ := h.filled
    exact ⟨c, by rw [String.toList_append]; exact List.mem_append_left _ member, clear⟩

theorem tidy_intercalate {names : List String} (named : names ≠ [])
    (tidy : ∀ name ∈ names, Tidy name) : Tidy (" ".intercalate names) := by
  induction names with
  | nil => exact absurd rfl named
  | cons name rest ih =>
    cases rest with
    | nil =>
      rw [String.intercalate_singleton]
      exact tidy name (List.mem_cons_self ..)
    | cons next rest =>
      rw [String.intercalate_cons_cons]
      refine (tidy name (List.mem_cons_self ..)).append_space (ih (by simp) ?_)
      exact fun other member => tidy other (List.mem_cons_of_mem name member)

theorem tidy_of_no_blank {s : String} (filled : s.toList ≠ [])
    (clear : ∀ c ∈ s.toList, isBlank c = false) : Tidy s := by
  refine ⟨⟨?_, ?_⟩, ?_⟩
  · exact fun c member => clear c (List.mem_of_mem_head? member)
  · exact fun c member => clear c (List.mem_of_mem_getLast? member)
  · obtain ⟨c, member⟩ := List.exists_mem_of_ne_nil _ filled
    exact ⟨c, member, clear c member⟩

end Text

namespace NameParts

variable {p : NameParts} {rules : Rules}

/-- What stands behind the given names is nothing, or a blank or comma begins it and it holds a
blank. -/
theorem restText_cases (p : NameParts) (comma : Bool) :
    (p.initial = none ∧ p.suffix = none ∧ (p.restText comma).toList = []) ∨
      ∃ c more, (p.restText comma).toList = c :: more ∧ isGivenChar c = false ∧ ' ' ∈ c :: more := by
  obtain ⟨given, family, _ | m, _ | suffix⟩ := p
  · exact Or.inl ⟨rfl, rfl, rfl⟩
  · right
    cases comma with
    | false =>
      exact ⟨' ', suffix.toList, by simp [restText, initialText, suffixText], by decide, by simp⟩
    | true =>
      refine ⟨',', ' ' :: suffix.toList, ?_, by decide, by simp⟩
      simp [restText, initialText, suffixText]
  · exact Or.inr ⟨' ', [m, '.'], by simp [restText, initialText, suffixText], by decide, by simp⟩
  · exact Or.inr ⟨' ', _, by simp [restText, initialText]; rfl, by decide, by simp⟩

theorem nameEnds_restText (p : NameParts) (comma : Bool) : NameEnds (p.restText comma).toList := by
  rcases p.restText_cases comma with ⟨_, _, nothing⟩ | ⟨c, more, split, ends, _⟩
  · rw [nothing]
    intro c member
    cases member
  · rw [split]
    intro d member
    cases Option.mem_some.mp member
    exact ends

namespace WellWritten

variable (h : p.WellWritten rules)
include h

theorem givenName {name : String} (member : name ∈ p.given) : GivenName name.toList := by
  obtain ⟨long, plain⟩ := h.given name member
  refine ⟨by rwa [String.length_toList], ?_⟩
  intro c hc
  obtain ⟨clear, period, comma⟩ := plain c hc
  simp [isGivenChar, isAsciiBlank_of_not_isBlank clear, period, comma]

theorem given_givenText : Given p.givenText.toList :=
  given_intercalate h.named fun _ member => h.givenName member

theorem tidy_givenText : Tidy p.givenText := by
  apply tidy_intercalate h.named
  intro name member
  obtain ⟨c, d, rest, split, _⟩ := (h.givenName member).exists_cons
  exact tidy_of_no_blank (by rw [split]; simp) fun c hc => ((h.given name member).2 c hc).1

theorem tidy_family : Tidy p.family := by
  have filled : trim p.family ≠ "" := by
    rw [h.family.2.1]
    exact h.family.1
  rw [← h.family.2.1]
  exact tidy_trim filled

theorem tidy_suffix {suffix : String} (attached : p.suffix = some suffix) : Tidy suffix := by
  obtain ⟨raw, _, rfl, filled⟩ := mem_vocabulary_iff.mp (h.suffix suffix attached)
  exact tidy_trim filled

theorem tidy_initialText {text : String} (tidy : Tidy text) : Tidy (text ++ p.initialText) := by
  rw [initialText]
  cases capital : p.initial with
  | none => rwa [String.append_empty]
  | some m =>
    dsimp only
    rw [← String.append_assoc]
    refine tidy.append_space (tidy_of_no_blank (by simp) ?_)
    rw [String.toList_ofList]
    intro c member
    rcases List.mem_cons.mp member with rfl | member
    · exact isBlank_of_isUpper (h.initial c capital)
    · cases List.mem_singleton.mp member
      decide

theorem tidy_suffixText {text : String} (tidy : Tidy text) (comma : Bool) :
    Tidy (text ++ p.suffixText comma) := by
  rw [suffixText]
  cases attached : p.suffix with
  | none => rwa [String.append_empty]
  | some suffix =>
    dsimp only
    rw [← String.append_assoc, ← String.append_assoc]
    refine Tidy.append_space ?_ (h.tidy_suffix attached)
    cases comma with
    | false => rwa [if_neg (by decide), String.append_empty]
    | true => exact tidy.append_comma

theorem tidy_inverted (comma : Bool) : Tidy (p.inverted comma) := by
  rw [inverted, restText, ← String.append_assoc]
  refine h.tidy_suffixText (h.tidy_initialText ?_) comma
  exact h.tidy_family.append_comma.append_space h.tidy_givenText

theorem tidy_forward (comma : Bool) : Tidy (p.forward comma) :=
  h.tidy_suffixText ((h.tidy_initialText h.tidy_givenText).append_space h.tidy_family) comma

theorem tidy_plain : Tidy p.plain :=
  h.tidy_suffixText (h.tidy_givenText.append_space h.tidy_family) false

theorem display_eq : display ⟨p.givenText.toList, p.family.toList, p.suffix.map String.toList⟩ =
    p.plain := by
  rw [display, plain, suffixText, String.ofList_toList, String.ofList_toList,
    trim_of_trimmed h.tidy_givenText.trimmed, trim_of_trimmed h.tidy_family.trimmed]
  cases p.suffix with
  | none => rfl
  | some suffix => simp

theorem ending_suffixText (comma : Bool) :
    Ending (suffixesOf rules) (p.suffixText comma).toList (p.suffix.map String.toList) := by
  rw [suffixText]
  cases attached : p.suffix with
  | none => exact .nothing
  | some suffix =>
    have known : suffix.toList ∈ suffixesOf rules := List.mem_map_of_mem (h.suffix suffix attached)
    cases comma with
    | false => simpa using Ending.spaced gap_space known
    | true => simpa using Ending.announced gap_space known

end WellWritten

namespace WellWritten

variable (h : p.WellWritten rules) (table : rules.PlainSuffixes)
include h table

theorem invertedRest?_restText (comma : Bool) :
    invertedRest? (suffixesOf rules) (p.restText comma).toList =
      some (p.suffix.map String.toList) := by
  have clear := noBlankAhead_suffixesOf rules
  have ends := h.ending_suffixText comma
  rw [restText, String.toList_append, initialText]
  cases capital : p.initial with
  | some m =>
    have initial : Initial (" " ++ String.ofList [m, '.']).toList := by
      simpa using Initial.mk gap_space (h.initial m capital)
    exact invertedRest?_of_initial clear initial ends
  | none =>
    refine invertedRest?_of_ending clear ends (ends.no_initial clear ?_ ?_)
    · intro word attached
      obtain ⟨suffix, named, rfl⟩ := Option.map_eq_some_iff.mp attached
      exact table.oneWord suffix (h.suffix suffix named)
    · intro word attached
      obtain ⟨suffix, named, rfl⟩ := Option.map_eq_some_iff.mp attached
      exact table.noInitial suffix (h.suffix suffix named)

omit table in
theorem last_of_givenText {front gap later : List Char} (blanks : Gap gap)
    (word : ∀ c ∈ later, isAsciiBlank c = false)
    (split : p.givenText.toList = front ++ (gap ++ later)) :
    2 ≤ p.given.length ∧ ∃ last ∈ p.given.getLast?, last.toList = later := by
  obtain ⟨init, last, given⟩ := (List.eq_nil_or_concat p.given).resolve_left h.named
  rw [List.concat_eq_append] at given
  have plain : ∀ c ∈ last.toList, isAsciiBlank c = false := fun c member =>
    isAsciiBlank_of_not_isBlank ((h.given last (by simp [given])).2 c member).1
  obtain ⟨b, blank, ends⟩ := blanks.exists_suffix later
  have behind : b :: later <:+ p.givenText.toList := by
    rw [split]
    exact List.suffix_append_of_suffix ends
  rw [givenText, given] at behind
  by_cases single : init = []
  · rw [single, List.nil_append, String.intercalate_singleton] at behind
    rw [plain b (behind.mem (List.mem_cons_self ..))] at blank
    cases blank
  · rw [String.intercalate_append_of_ne_nil single (by simp), String.intercalate_singleton,
      String.toList_append, String.toList_append, List.append_assoc] at behind
    refine ⟨?_, last, by simp [given], eq_of_last (by decide) blank plain word
      (List.suffix_append _ _) behind⟩
    rw [given, List.length_append, List.length_singleton]
    have filled := List.length_pos_iff.mpr single
    omega

/-- No later given names make up a suffix of the table with all that follows them. -/
theorem unknown_of_givenText (whole : ¬ p.EndsInSuffix rules) (comma : Bool)
    {front gap later : List Char} (blanks : Gap gap)
    (split : p.givenText.toList = front ++ (gap ++ later)) :
    later ++ (p.restText comma).toList ∉ suffixesOf rules := by
  intro known
  obtain ⟨entry, member, eq, _⟩ := exists_of_mem_suffixesOf known
  have word := table.oneWord entry member
  rw [eq] at word
  rcases p.restText_cases comma with ⟨initial, suffix, nothing⟩ | ⟨c, more, rest, _, blank⟩
  · rw [nothing, List.append_nil] at word eq
    obtain ⟨several, last, isLast, same⟩ := h.last_of_givenText blanks word split
    rw [← same] at eq
    exact whole ⟨initial, suffix, several, last, isLast, String.toList_inj.mp eq ▸ member⟩
  · rw [rest] at word
    exact absurd (word ' ' (List.mem_append_right _ blank)) (by decide)

theorem inverted_reading (whole : ¬ p.EndsInSuffix rules) (comma : Bool) :
    Inverted (suffixesOf rules) (p.inverted comma).toList
      ⟨p.givenText.toList, p.family.toList, p.suffix.map String.toList⟩ := by
  have reading := h.given_givenText.reads (p.nameEnds_restText comma)
    (h.invertedRest?_restText table comma) fun front gap later split blanks names =>
      invertedRest?_of_given blanks names (h.unknown_of_givenText table whole comma blanks split)
  have written := Inverted.mk h.tidy_family.toList_ne_nil h.family.2.2.1 gap_space.blank reading
  simpa [inverted] using written

omit table in
theorem forward_reading {m : Char} (capital : p.initial = some m)
    (word : ∀ c ∈ p.family.toList, isAsciiBlank c = false) (comma : Bool) :
    Forward (suffixesOf rules) (p.forward comma).toList
      ⟨p.givenText.toList, p.family.toList, p.suffix.map String.toList⟩ := by
  have familyWord : FamilyWord p.family.toList := by
    refine ⟨h.tidy_family.toList_ne_nil, fun c member => ?_⟩
    have plain : c ≠ ',' := by
      rintro rfl
      exact h.family.2.2.1 member
    simp [isFamilyChar, word c member, plain]
  have written := Forward.mk h.given_givenText (.mk gap_space (h.initial m capital)) gap_space.blank
    familyWord (h.ending_suffixText comma)
  simpa [forward, initialText, capital] using written

end WellWritten

end NameParts

namespace NameParts

variable {p : NameParts} {rules : Rules}

theorem length_suffixText_le (p : NameParts) (comma : Bool) :
    (p.suffixText false).length ≤ (p.suffixText comma).length := by
  rw [suffixText, suffixText]
  cases p.suffix with
  | none => exact Nat.le_refl _
  | some suffix =>
    simp only [String.length_append]
    cases comma with
    | false => exact Nat.le_refl _
    | true => exact Nat.add_le_add_right (by decide) _

theorem length_plain_lt_inverted (p : NameParts) (comma : Bool) :
    p.plain.length < (p.inverted comma).length := by
  have tail := p.length_suffixText_le comma
  have sign : ",".length = 1 := rfl
  simp only [plain, inverted, restText, String.length_append]
  omega

theorem length_plain_lt_forward (p : NameParts) {m : Char} (capital : p.initial = some m)
    (comma : Bool) : p.plain.length < (p.forward comma).length := by
  have tail := p.length_suffixText_le comma
  simp only [plain, forward, initialText, capital, String.length_append, String.length_ofList,
    List.length_cons]
  omega

theorem inverted_lastAsSuffix (h : p.WellWritten rules) (ends : p.EndsInSuffix rules)
    (comma : Bool) : p.inverted comma = p.lastAsSuffix.inverted false := by
  obtain ⟨init, last, given⟩ := (List.eq_nil_or_concat p.given).resolve_left h.named
  rw [List.concat_eq_append] at given
  have several : init ≠ [] := by
    rintro rfl
    have long := ends.several
    simp [given] at long
  simp [inverted, restText, initialText, suffixText, givenText, lastAsSuffix, ends.initial,
    ends.suffix, given, String.intercalate_append_of_ne_nil several, String.append_assoc]

theorem WellWritten.lastAsSuffix (h : p.WellWritten rules) (ends : p.EndsInSuffix rules) :
    p.lastAsSuffix.WellWritten rules where
  named := by
    have several := ends.several
    rw [← List.length_pos_iff, NameParts.lastAsSuffix, List.length_dropLast]
    omega
  given := fun name member => h.given name ((List.dropLast_sublist _).subset member)
  family := h.family
  initial := h.initial
  suffix := by
    intro entry attached
    obtain ⟨last, isLast, known⟩ := ends.known
    cases Option.mem_unique attached isLast
    exact known

end NameParts

namespace Simplifier

open NameParts

theorem simplifyAuthor_of_written {s : Simplifier} {p : NameParts}
    (written : p.WellWritten s.rules) {author : String} (tidy : Tidy author)
    (longer : p.plain.length < author.length)
    (reading : ofText? s.rules author =
      some ⟨p.givenText.toList, p.family.toList, p.suffix.map String.toList⟩) :
    s.simplifyAuthor author = .simplified p.plain := by
  rw [simplifyAuthor_eq_simplified_iff, trim_of_trimmed tidy.trimmed]
  refine ⟨_, reading, ?_, written.tidy_plain.ne_empty, ?_⟩
  · rw [written.display_eq, trim_of_trimmed written.tidy_plain.trimmed]
  · intro same
    rw [same] at longer
    exact absurd longer (by omega)

theorem simplifyAuthor_inverted {s : Simplifier} (table : s.rules.PlainSuffixes) {p : NameParts}
    (written : p.WellWritten s.rules) (whole : ¬ p.EndsInSuffix s.rules) (comma : Bool) :
    s.simplifyAuthor (p.inverted comma) = .simplified p.plain := by
  have tidy := written.tidy_inverted comma
  refine simplifyAuthor_of_written written tidy (p.length_plain_lt_inverted comma) ?_
  refine (ofText?_eq_some_iff tidy.trimmed).mpr (Or.inr ⟨?_, ?_⟩)
  · have split : (p.inverted comma).toList = p.family.toList ++
        ',' :: (' ' :: (p.givenText ++ p.restText comma).toList) := by simp [inverted]
    rw [split]
    exact not_forward_of_comma written.family.2.2.2 written.family.2.2.1 _ _
  · exact written.inverted_reading table whole comma

/-- Both orders of a name are simplified to the same name. The suffix may follow a blank or a comma
with a blank. Without initial and suffix, the last of several given names is taken for the suffix if
the table lists it. -/
theorem simplifyAuthor_both_orders (s : Simplifier) (table : s.rules.PlainSuffixes) {p : NameParts}
    (written : p.WellWritten s.rules) (comma : Bool) :
    (¬ p.EndsInSuffix s.rules → s.simplifyAuthor (p.inverted comma) = .simplified p.plain) ∧
    (p.EndsInSuffix s.rules →
      s.simplifyAuthor (p.inverted comma) = .simplified p.lastAsSuffix.plain) ∧
    (p.initial ≠ none → (∀ c ∈ p.family.toList, isAsciiBlank c = false) →
      s.simplifyAuthor (p.forward comma) = .simplified p.plain) := by
  refine ⟨fun whole => simplifyAuthor_inverted table written whole comma, ?_, ?_⟩
  · intro ends
    rw [inverted_lastAsSuffix written ends comma]
    have settled : ¬ p.lastAsSuffix.EndsInSuffix s.rules := by
      intro again
      obtain ⟨last, isLast, _⟩ := ends.known
      have none_left : p.given.getLast? = none := again.suffix
      rw [none_left] at isLast
      cases isLast
    exact simplifyAuthor_inverted table (written.lastAsSuffix ends) settled false
  · intro named word
    obtain ⟨m, capital⟩ := Option.ne_none_iff_exists'.mp named
    have tidy := written.tidy_forward comma
    refine simplifyAuthor_of_written written tidy (p.length_plain_lt_forward capital comma) ?_
    exact (ofText?_eq_some_iff tidy.trimmed).mpr
      (Or.inl (written.forward_reading capital word comma))

theorem simplifyAuthor_both_orders_king :
    let p : NameParts := ⟨["Martin", "Luther"], "King", some 'X', some "Jr."⟩
    let q : NameParts := ⟨["Martin", "Jr"], "Le Guin", none, none⟩
    standard.rules.PlainSuffixes ∧ p.WellWritten standard.rules ∧ q.WellWritten standard.rules ∧
      q.EndsInSuffix standard.rules ∧
      p.inverted true = "King, Martin Luther X., Jr." ∧
      standard.simplifyAuthor "King, Martin Luther X., Jr." = .simplified "Martin Luther King Jr." ∧
      p.forward false = "Martin Luther X. King Jr." ∧
      standard.simplifyAuthor "Martin Luther X. King Jr." = .simplified "Martin Luther King Jr." ∧
      q.inverted false = "Le Guin, Martin Jr" ∧
      standard.simplifyAuthor "Le Guin, Martin Jr" = .simplified "Martin Le Guin Jr" := by
  intro p q
  have entries : vocabulary standard.rules.nameSuffixes =
      ["Jr.", "Jr", "Sr.", "Sr", "II", "III", "IV"] := by decide +kernel
  have table : standard.rules.PlainSuffixes := by
    constructor
    · rw [entries]
      simp [isAsciiBlank]
    · rw [entries]
      intro entry member m _ same
      have short : ∀ entry ∈ ["Jr.", "Jr", "Sr.", "Sr", "II", "III", "IV"],
          entry.toList.length = 2 → entry.toList.getLast? ≠ some '.' := by decide
      exact short entry member (by simp [same]) (by simp [same])
  have first : p.WellWritten standard.rules :=
    ⟨by decide, by simp [p, isBlank]; decide, by decide, by simp [p], by rw [entries]; decide⟩
  have second : q.WellWritten standard.rules :=
    ⟨by decide, by simp [q, isBlank]; decide, by decide, by simp [q], by rw [entries]; decide⟩
  have ends : q.EndsInSuffix standard.rules :=
    ⟨rfl, rfl, by decide, "Jr", rfl, by rw [entries]; decide⟩
  have whole : ¬ p.EndsInSuffix standard.rules := fun ends => by cases ends.initial
  have word : ∀ c ∈ p.family.toList, isAsciiBlank c = false := by simp [p, isAsciiBlank]
  exact ⟨table, first, second, ends, by decide,
    (simplifyAuthor_both_orders standard table first true).1 whole, by decide,
    (simplifyAuthor_both_orders standard table first false).2.2 (by decide) word, by decide,
    (simplifyAuthor_both_orders standard table second false).2.1 ends⟩

end Simplifier

end ReleaseSearch
