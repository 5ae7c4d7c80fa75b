import ReleaseSearch.Proofs.Author.Grammar
import ReleaseSearch.Proofs.Simplifier
import ReleaseSearch.Proofs.Text.Padding

/-! The parts of a name. Simplifying it moves its parts and drops a middle initial; but for blanks and
commas nothing else goes, and nothing comes. -/
namespace ReleaseSearch
open Text

/-- The text without blanks and commas. -/
def Text.bare (cs : List Char) : List Char := cs.filter fun c => !isBlank c && c != ','

namespace Text

@[simp]
theorem bare_append (cs ds : List Char) : bare (cs ++ ds) = bare cs ++ bare ds :=
  List.filter_append ..

theorem bare_of_blank {cs : List Char} (h : ∀ c ∈ cs, isBlank c = true) : bare cs = [] := by
  rw [bare, List.filter_eq_nil_iff]
  intro c member
  simp [h c member]

theorem bare_of_asciiBlank {cs : List Char} (h : ∀ c ∈ cs, isAsciiBlank c = true) : bare cs = [] :=
  bare_of_blank fun c member => isBlank_of_isAsciiBlank (h c member)

@[simp]
theorem bare_comma (cs : List Char) : bare (',' :: cs) = bare cs := rfl

@[simp]
theorem bare_trim (s : String) : bare (trim s).toList = bare s.toList := by
  obtain ⟨front, back, before, behind, split⟩ := padded_trim s
  rw [split, bare_append, bare_append, bare_of_blank before, bare_of_blank behind, List.nil_append,
    List.append_nil]

end Text

namespace AuthorName

theorem Initial.exists_bare {initial : List Char} (h : Initial initial) :
    ∃ m : Char, m.isUpper = true ∧ bare initial = [m, '.'] := by
  obtain ⟨gap, upper⟩ := h
  rename_i blanks m
  have plain : m ≠ ',' := by
    rintro rfl
    exact absurd upper (by decide)
  have period : bare ['.'] = ['.'] := by decide
  refine ⟨m, upper, ?_⟩
  rw [bare_append, bare_of_asciiBlank gap.blank, List.nil_append]
  simpa [bare, isBlank_of_isUpper upper, plain] using period

theorem Ending.bare_eq {suffixes : List (List Char)} {tail : List Char}
    {suffix : Option (List Char)} (h : Ending suffixes tail suffix) :
    bare tail = bare (suffix.getD []) := by
  cases h with
  | nothing => rfl
  | spaced gap _ => rw [bare_append, bare_of_asciiBlank gap.blank, List.nil_append, Option.getD_some]
  | announced gap _ =>
    rw [bare_comma, bare_append, bare_of_asciiBlank gap.blank, List.nil_append, Option.getD_some]

theorem bare_display (name : AuthorName) :
    bare name.display.toList = bare name.given ++ bare name.family ++ bare (name.suffix.getD []) := by
  have space : bare " ".toList = [] := by decide
  have given := bare_trim (String.ofList name.given)
  have family := bare_trim (String.ofList name.family)
  rw [String.toList_ofList] at given family
  rw [display]
  cases name.suffix with
  | none =>
    rw [String.append_empty, String.toList_append, String.toList_append, bare_append, bare_append,
      space, given, family, Option.getD_none, List.append_nil]
    exact (List.append_nil _).symm
  | some suffix =>
    simp only [String.toList_append, bare_append, space, given, family, String.toList_ofList,
      List.append_nil, List.nil_append, Option.getD_some]

theorem Forward.bare_eq {suffixes : List (List Char)} {cs : List Char} {name : AuthorName}
    (h : Forward suffixes cs name) : ∃ m : Char, m.isUpper = true ∧
      bare cs = bare name.given ++ [m, '.'] ++ bare name.family ++ bare (name.suffix.getD []) := by
  obtain ⟨_, capital, blank, _, ends⟩ := h
  obtain ⟨m, upper, initial⟩ := capital.exists_bare
  refine ⟨m, upper, ?_⟩
  simp only [bare_append, initial, bare_of_asciiBlank blank, ends.bare_eq, List.nil_append,
    List.append_assoc]

theorem Inverted.bare_eq {suffixes : List (List Char)} {cs : List Char} {name : AuthorName}
    (clear : ∀ suffix ∈ suffixes, NoBlankAhead suffix) (h : Inverted suffixes cs name) :
    ∃ initial : List Char, (initial = [] ∨ ∃ m : Char, m.isUpper = true ∧ initial = [m, '.']) ∧
      bare cs = bare name.family ++ bare name.given ++ initial ++ bare (name.suffix.getD []) := by
  obtain ⟨_, _, blank, reading⟩ := h
  obtain ⟨rest, rfl, _, accepted⟩ := reading.exists_rest
  obtain ⟨initial, tail, capital, ends, rfl⟩ := exists_of_invertedRest? clear accepted
  refine ⟨bare initial, ?_, ?_⟩
  · rcases capital with rfl | capital
    · exact Or.inl rfl
    · exact Or.inr capital.exists_bare
  · simp only [bare_append, bare_comma, bare_of_asciiBlank blank, ends.bare_eq, List.nil_append,
      List.append_assoc]

end AuthorName

open AuthorName

/-- A simplified name has the parts of the name it was made from: first names, last name and suffix
stay, in the order of the answer, and at most one initial goes. The suffix is none or one of the
table. -/
theorem Simplifier.simplifyAuthor_keeps_parts (s : Simplifier) {author text : String}
    (h : s.simplifyAuthor author = .simplified text) :
    text ≠ "" ∧ Trimmed text ∧ text ≠ trim author ∧
      ∃ first last suffix initial : List Char,
        (initial = [] ∨ ∃ m : Char, m.isUpper = true ∧ initial = [m, '.']) ∧
        (suffix = [] ∨ ∃ entry ∈ vocabulary s.rules.nameSuffixes, suffix = bare entry.toList) ∧
        bare text.toList = first ++ last ++ suffix ∧
        (bare author.toList = first ++ initial ++ last ++ suffix ∨
          bare author.toList = last ++ first ++ initial ++ suffix) := by
  obtain ⟨name, reading, rfl, filled, other⟩ := simplifyAuthor_eq_simplified_iff.mp h
  refine ⟨filled, trimmed_trim _, other, bare name.given, bare name.family,
    bare (name.suffix.getD []), ?_⟩
  have ahead := noBlankAhead_suffixesOf s.rules
  have read : Reading (suffixesOf s.rules) (trim author).toList name :=
    (ofText?_eq_some_iff (trimmed_trim author)).mp reading
  have known : bare (name.suffix.getD []) = [] ∨ ∃ entry ∈ vocabulary s.rules.nameSuffixes,
      bare (name.suffix.getD []) = bare entry.toList := by
    cases attached : name.suffix with
    | none => exact Or.inl rfl
    | some suffix =>
      obtain ⟨entry, member, rfl, _⟩ :=
        exists_of_mem_suffixesOf (read.suffix_known ahead suffix attached).1
      exact Or.inr ⟨entry, member, rfl⟩
  rw [bare_trim, bare_display, ← bare_trim author]
  rcases read with forward | ⟨_, inverted⟩
  · obtain ⟨m, upper, parts⟩ := forward.bare_eq
    exact ⟨[m, '.'], Or.inr ⟨m, upper, rfl⟩, known, rfl, Or.inl parts⟩
  · obtain ⟨initial, capital, parts⟩ := inverted.bare_eq ahead
    exact ⟨initial, capital, known, rfl, Or.inr parts⟩

theorem Simplifier.simplifyAuthor_keeps_parts_inverted :
    standard.simplifyAuthor " King,\tMartin L., Jr." = .simplified "Martin King Jr." ∧
      ∃ first last suffix initial : List Char,
        (initial = [] ∨ ∃ m : Char, m.isUpper = true ∧ initial = [m, '.']) ∧
        (suffix = [] ∨ ∃ entry ∈ vocabulary standard.rules.nameSuffixes, suffix = bare entry.toList) ∧
        bare "Martin King Jr.".toList = first ++ last ++ suffix ∧
        (bare " King,\tMartin L., Jr.".toList = first ++ initial ++ last ++ suffix ∨
          bare " King,\tMartin L., Jr.".toList = last ++ first ++ initial ++ suffix) := by
  have answer : standard.simplifyAuthor " King,\tMartin L., Jr." = .simplified "Martin King Jr." := by
    decide +kernel
  exact ⟨answer, (simplifyAuthor_keeps_parts standard answer).2.2.2⟩

end ReleaseSearch
