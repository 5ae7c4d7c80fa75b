import ReleaseSearch.Proofs.Author.Grammar
import ReleaseSearch.Proofs.Text.Padding

/-! Names without a comma. Such a name is simplified exactly when it can be cut into given names, an
initial, a family name and perhaps a suffix, and there is one way to cut it. -/
namespace ReleaseSearch
open Text

namespace AuthorName

/-- The pieces of a name in forward order, in the order of the text. -/
structure Pieces where
  first : List Char
  /-- Further given names, each with the blanks in front of it. -/
  others : List (List Char × List Char)
  gap : List Char
  initial : Char
  blanks : List Char
  family : List Char
  /-- The suffix, with the blanks in front of it. -/
  suffix : Option (List Char × List Char)

def joined (names : List (List Char × List Char)) : List Char :=
  names.flatMap fun name => name.1 ++ name.2

@[simp]
theorem joined_nil : joined [] = [] := rfl

theorem joined_cons (name : List Char × List Char) (rest : List (List Char × List Char)) :
    joined (name :: rest) = name.1 ++ name.2 ++ joined rest := List.flatMap_cons ..

namespace Pieces

def given (p : Pieces) : List Char := p.first ++ joined p.others

def tail (p : Pieces) : List Char :=
  match p.suffix with
  | some (gap, suffix) => gap ++ suffix
  | none => []

def text (p : Pieces) : List Char :=
  p.first ++ (joined p.others ++ (p.gap ++ p.initial :: '.' :: (p.blanks ++ (p.family ++ p.tail))))

/-- The given names as they stand, the family name and the suffix. -/
def answer (p : Pieces) : String :=
  trim (trim (String.ofList p.given) ++ " " ++ trim (String.ofList p.family) ++
    match p.suffix with
    | some (_, suffix) => " " ++ trim (String.ofList suffix)
    | none => "")

def name (p : Pieces) : AuthorName := ⟨p.given, p.family, p.suffix.map Prod.snd⟩

/-- The pieces make up the text, and each of them is what it stands for. -/
structure Spell (p : Pieces) (suffixes : List (List Char)) (text : List Char) : Prop where
  first : GivenName p.first
  others : ∀ name ∈ p.others, Gap name.1 ∧ GivenName name.2
  gap : Gap p.gap
  initial : p.initial.isUpper = true
  blanks : ∀ c ∈ p.blanks, isAsciiBlank c = true
  family : FamilyWord p.family
  suffix : ∀ ending ∈ p.suffix, Gap ending.1 ∧ ending.2 ∈ suffixes
  text : p.text = text

end Pieces

theorem given_joined {first : List Char} {others : List (List Char × List Char)}
    (isName : GivenName first) (names : ∀ name ∈ others, Gap name.1 ∧ GivenName name.2) :
    Given (first ++ joined others) := by
  induction others generalizing first with
  | nil =>
    rw [joined_nil, List.append_nil]
    exact .single isName
  | cons next rest ih =>
    obtain ⟨isGap, isNext⟩ := names next (List.mem_cons_self ..)
    have later := ih isNext fun name member => names name (List.mem_cons_of_mem next member)
    rw [joined_cons, List.append_assoc]
    exact .more isName isGap later

theorem Given.exists_joined {given : List Char} (h : Given given) :
    ∃ first others, GivenName first ∧ (∀ name ∈ others, Gap name.1 ∧ GivenName name.2) ∧
      given = first ++ joined others := by
  induction h with
  | @single name isName => exact ⟨name, [], isName, by simp, by simp⟩
  | @more name gap rest isName isGap _ ih =>
    obtain ⟨first, others, isFirst, names, rfl⟩ := ih
    refine ⟨name, (gap, first) :: others, isName, ?_, ?_⟩
    · intro other member
      rcases List.mem_cons.mp member with rfl | member
      · exact ⟨isGap, isFirst⟩
      · exact names other member
    · rw [joined_cons]
      simp

section Unique

/-! A text is cut in one way: each piece is a longest run of a class of characters. -/

variable {others others' : List (List Char × List Char)} {gap gap' rest rest' : List Char}

theorem nameEnds_joined (names : ∀ name ∈ others, Gap name.1 ∧ GivenName name.2) (isGap : Gap gap)
    (rest : List Char) : NameEnds (joined others ++ (gap ++ rest)) := by
  cases others with
  | nil => exact isGap.nameEnds_append rest
  | cons next more =>
    rw [joined_cons, List.append_assoc, List.append_assoc]
    exact (names next (List.mem_cons_self ..)).1.nameEnds_append _

theorem noBlankAhead_capital {m : Char} (upper : m.isUpper = true) (rest : List Char) :
    NoBlankAhead (m :: rest) := by
  rintro c ⟨⟩
  exact isAsciiBlank_of_not_isBlank (isBlank_of_isUpper upper)

theorem GivenName.noBlankAhead_append {name : List Char} (h : GivenName name) (rest : List Char) :
    NoBlankAhead (name ++ rest) := (Given.single h).noBlankAhead_append rest

theorem initial_ne_joined {m : Char} {blanks name : List Char} (isGap : Gap gap)
    (upper : m.isUpper = true) (isGap' : Gap blanks) (isName : GivenName name)
    (rest more : List Char) : gap ++ m :: '.' :: rest ≠ blanks ++ (name ++ more) := by
  intro same
  have behind := (eq_of_run isGap.blank (noBlankAhead_capital upper _) isGap'.blank
    (isName.noBlankAhead_append _) same).2
  obtain ⟨c, d, front, rfl, _, second⟩ := isName.exists_cons
  cases behind
  exact absurd second (by decide)

theorem eq_of_joined {m m' : Char} (names : ∀ name ∈ others, Gap name.1 ∧ GivenName name.2)
    (names' : ∀ name ∈ others', Gap name.1 ∧ GivenName name.2) (isGap : Gap gap) (isGap' : Gap gap')
    (upper : m.isUpper = true) (upper' : m'.isUpper = true)
    (same : joined others ++ (gap ++ m :: '.' :: rest) =
      joined others' ++ (gap' ++ m' :: '.' :: rest')) :
    others = others' ∧ gap = gap' ∧ m = m' ∧ rest = rest' := by
  -- on the names in front of the initial: both texts have as many, for a further name is no initial
  induction others generalizing others' with
  | nil =>
    cases others' with
    | nil =>
      obtain ⟨rfl, left⟩ := eq_of_run isGap.blank (noBlankAhead_capital upper _) isGap'.blank
        (noBlankAhead_capital upper' _) same
      cases left
      exact ⟨rfl, rfl, rfl, rfl⟩
    | cons next more =>
      obtain ⟨blanks, isName⟩ := names' next (List.mem_cons_self ..)
      simp only [joined_cons, joined_nil, List.nil_append, List.append_assoc] at same
      exact absurd same (initial_ne_joined isGap upper blanks isName _ _)
  | cons next more ih =>
    obtain ⟨blanks, isName⟩ := names next (List.mem_cons_self ..)
    cases others' with
    | nil =>
      simp only [joined_cons, joined_nil, List.nil_append, List.append_assoc] at same
      exact absurd same.symm (initial_ne_joined isGap' upper' blanks isName _ _)
    | cons next' more' =>
      obtain ⟨blanks', isName'⟩ := names' next' (List.mem_cons_self ..)
      have later := fun name member => names name (List.mem_cons_of_mem next member)
      have later' := fun name member => names' name (List.mem_cons_of_mem next' member)
      simp only [joined_cons, List.append_assoc] at same
      obtain ⟨sameGap, left⟩ := eq_of_run blanks.blank (isName.noBlankAhead_append _) blanks'.blank
        (isName'.noBlankAhead_append _) same
      obtain ⟨sameName, left⟩ := eq_of_run isName.plain (nameEnds_joined later isGap _) isName'.plain
        (nameEnds_joined later' isGap' _) left
      obtain ⟨rfl, found⟩ := ih later later' left
      exact ⟨by rw [Prod.ext sameGap sameName], found⟩

end Unique

namespace Pieces

variable {suffixes : List (List Char)} {cs : List Char} {p q : Pieces}

theorem Spell.familyEnds_tail (h : p.Spell suffixes cs) :
    ∀ c ∈ p.tail.head?, isFamilyChar c = false := by
  unfold tail
  split
  · rename_i gap suffix eq
    exact (h.suffix _ eq).1.familyEnds_append suffix
  · rintro c ⟨⟩

theorem suffix_eq_of_tail (ahead : ∀ suffix ∈ suffixes, NoBlankAhead suffix)
    (hp : p.Spell suffixes cs) (hq : q.Spell suffixes cs) (same : p.tail = q.tail) :
    p.suffix = q.suffix := by
  unfold tail at same
  split at same
  · rename_i gap suffix eq
    obtain ⟨isGap, known⟩ := hp.suffix _ eq
    split at same
    · rename_i gap' suffix' eq'
      obtain ⟨isGap', known'⟩ := hq.suffix _ eq'
      obtain ⟨rfl, rfl⟩ := eq_of_run isGap.blank (ahead suffix known) isGap'.blank
        (ahead suffix' known') same
      rw [eq, eq']
    · exact absurd (List.append_eq_nil_iff.mp same).1 isGap.ne_nil
  · rename_i eq
    split at same
    · rename_i gap' suffix' eq'
      exact absurd (List.append_eq_nil_iff.mp same.symm).1 (hq.suffix _ eq').1.ne_nil
    · rename_i eq'
      rw [eq, eq']

theorem Spell.unique (ahead : ∀ suffix ∈ suffixes, NoBlankAhead suffix)
    (hp : p.Spell suffixes cs) (hq : q.Spell suffixes cs) : p = q := by
  have same : p.text = q.text := hp.text.trans hq.text.symm
  obtain ⟨first, left⟩ := eq_of_run hp.first.plain (nameEnds_joined hp.others hp.gap _)
    hq.first.plain (nameEnds_joined hq.others hq.gap _) same
  obtain ⟨others, gap, initial, left⟩ :=
    eq_of_joined hp.others hq.others hp.gap hq.gap hp.initial hq.initial left
  obtain ⟨blanks, left⟩ := eq_of_run hp.blanks (hp.family.noBlankAhead_append _) hq.blanks
    (hq.family.noBlankAhead_append _) left
  obtain ⟨family, left⟩ := eq_of_run hp.family.plain hp.familyEnds_tail hq.family.plain
    hq.familyEnds_tail left
  have suffix := suffix_eq_of_tail ahead hp hq left
  cases p
  cases q
  simp_all only

theorem Spell.forward (h : p.Spell suffixes cs) : Forward suffixes cs p.name := by
  have ends : Ending suffixes p.tail (p.suffix.map Prod.snd) := by
    unfold tail
    split
    · rename_i gap suffix eq
      obtain ⟨isGap, known⟩ := h.suffix _ eq
      rw [eq]
      exact .spaced isGap known
    · rename_i eq
      rw [eq]
      exact .nothing
  have written := Forward.mk (given_joined h.first h.others) (.mk h.gap h.initial) h.blanks h.family
    ends
  have same : p.first ++ joined p.others ++
      (p.gap ++ [p.initial, '.'] ++ (p.blanks ++ (p.family ++ p.tail))) = cs := by
    rw [← h.text]
    simp only [Pieces.text, List.append_assoc, List.cons_append, List.nil_append]
  rwa [same] at written

theorem exists_of_forward {name : AuthorName} (free : ',' ∉ cs) (h : Forward suffixes cs name) :
    ∃ p : Pieces, p.Spell suffixes cs := by
  obtain @⟨given, initial, blanks, family, tail, suffix, names, capital, blank, word, ends⟩ := h
  obtain ⟨first, others, isFirst, isOthers, rfl⟩ := names.exists_joined
  obtain @⟨gap, m, isGap, upper⟩ := capital
  cases ends with
  | nothing =>
    refine ⟨⟨first, others, gap, m, blanks, family, none⟩, isFirst, isOthers, isGap, upper, blank,
      word, by rintro _ ⟨⟩, ?_⟩
    simp [text, tail]
  | @spaced gap' suffix isGap' known =>
    refine ⟨⟨first, others, gap, m, blanks, family, some (gap', suffix)⟩, isFirst, isOthers, isGap,
      upper, blank, word, ?_, ?_⟩
    · rintro _ ⟨⟩
      exact ⟨isGap', known⟩
    · simp [text, tail]
  | announced _ _ =>
    -- a suffix can only be announced by a comma
    exact absurd (by simp) free

theorem Spell.answer_eq {rules : Rules} (h : p.Spell (suffixesOf rules) cs) :
    p.answer = trim p.name.display := by
  rw [answer, display, name]
  cases eq : p.suffix with
  | none => rfl
  | some ending =>
    obtain ⟨entry, _, same, tidy⟩ := exists_of_mem_suffixesOf (h.suffix ending eq).2
    dsimp only [Option.map_some]
    rw [← same, String.ofList_toList, trim_of_trimmed tidy.trimmed]

theorem Spell.length_answer_lt (h : p.Spell suffixes cs) : p.answer.length < cs.length := by
  have shorter : ∀ cs : List Char, (trim (String.ofList cs)).length ≤ cs.length := by
    intro cs
    have sublist := (trim_sublist (String.ofList cs)).length_le
    rwa [String.toList_ofList] at sublist
  have given := shorter p.given
  have family := shorter p.family
  -- the initial and the blanks in front of it are more than the space that takes their place
  have gap := List.length_pos_iff.mpr h.gap.ne_nil
  have space : " ".length = 1 := rfl
  rw [← h.text, answer]
  refine Nat.lt_of_le_of_lt (trim_sublist _).length_le ?_
  rw [Pieces.given, List.length_append] at given
  simp only [Pieces.text, tail]
  cases eq : p.suffix with
  | none =>
    simp only [String.length_toList, String.length_append, List.length_append, List.length_cons,
      List.length_nil, Pieces.given, String.length_empty]
    omega
  | some ending =>
    have suffix := shorter ending.2
    have blanks := List.length_pos_iff.mpr (h.suffix ending eq).1.ne_nil
    simp only [String.length_toList, String.length_append, List.length_append, List.length_cons,
      Pieces.given]
    omega

theorem Spell.answer_ne_empty {author : String} (clear : Trimmed author)
    (h : p.Spell suffixes author.toList) : p.answer ≠ "" := by
  obtain ⟨c, d, more, begins, _⟩ := h.first.exists_cons
  have split : author.toList = p.given ++
      (p.gap ++ p.initial :: '.' :: (p.blanks ++ (p.family ++ p.tail))) := by
    rw [← h.text, Pieces.text, given, List.append_assoc]
  have filled := trim_ne_empty_of_front clear (by rw [given, begins]; simp) split
  rw [answer, Ne, trim_append_eq_empty_iff, trim_append_eq_empty_iff, trim_append_eq_empty_iff,
    trim_trim]
  exact fun blank => filled blank.1.1.1

end Pieces

theorem Inverted.comma_mem {suffixes : List (List Char)} {cs : List Char} {name : AuthorName}
    (h : Inverted suffixes cs name) : ',' ∈ cs := by
  obtain ⟨_, _, _, _⟩ := h
  simp

end AuthorName

namespace Simplifier

open AuthorName

/-- A name without a comma is simplified if it can be cut into the pieces of a name in forward order,
and stays as it is if it cannot. There is at most one way to cut it. -/
theorem simplifyAuthor_without_comma (s : Simplifier) {author : String}
    (free : ',' ∉ (trim author).toList) :
    (∀ p q : Pieces, p.Spell (suffixesOf s.rules) (trim author).toList →
      q.Spell (suffixesOf s.rules) (trim author).toList → p = q) ∧
    (∀ p : Pieces, p.Spell (suffixesOf s.rules) (trim author).toList →
      s.simplifyAuthor author = .simplified p.answer) ∧
    ((∀ p : Pieces, ¬ p.Spell (suffixesOf s.rules) (trim author).toList) →
      s.simplifyAuthor author = .unchanged) := by
  have clear := trimmed_trim author
  refine ⟨fun p q hp hq => hp.unique (noBlankAhead_suffixesOf s.rules) hq, ?_, ?_⟩
  · intro p h
    rw [simplifyAuthor_eq_simplified_iff]
    refine ⟨p.name, (ofText?_eq_some_iff clear).mpr (Or.inl h.forward), h.answer_eq.symm,
      h.answer_ne_empty clear, ?_⟩
    intro same
    have shorter := h.length_answer_lt
    rw [same, String.length_toList] at shorter
    exact absurd shorter (Nat.lt_irrefl _)
  · intro none_there
    have unread : ofText? s.rules (trim author) = none := by
      rw [Option.eq_none_iff_forall_ne_some]
      intro name found
      rcases (ofText?_eq_some_iff clear).mp found with forward | ⟨_, inverted⟩
      · obtain ⟨p, spelled⟩ := Pieces.exists_of_forward free forward
        exact none_there p spelled
      · exact free inverted.comma_mem
    rw [simplifyAuthor, unread]

theorem simplifyAuthor_without_comma_shaffer :
    let s : Simplifier := ⟨{ nameSuffixes := [" PhD", "Ph D."] }, by decide⟩
    let author := "\u00a0Mary  Ann\tB.Shaffer Ph D. "
    let p : Pieces := ⟨"Mary".toList, [("  ".toList, "Ann".toList)], ['\t'], 'B', [],
      "Shaffer".toList, some ([' '], "Ph D.".toList)⟩
    ',' ∉ (trim author).toList ∧ p.Spell (suffixesOf s.rules) (trim author).toList ∧
      (∀ q : Pieces, q.Spell (suffixesOf s.rules) (trim author).toList → p = q) ∧
      s.simplifyAuthor author = .simplified "Mary  Ann Shaffer Ph D." ∧
      ',' ∉ (trim "Frank Herbert").toList ∧
      (∀ q : Pieces, ¬ q.Spell (suffixesOf s.rules) (trim "Frank Herbert").toList) ∧
      s.simplifyAuthor "Frank Herbert" = .unchanged := by
  intro s author p
  have free : ',' ∉ (trim author).toList ∧ ',' ∉ (trim "Frank Herbert").toList := by
    decide +kernel
  have isName : ∀ cs : List Char, 2 ≤ cs.length → cs.all isGivenChar = true → GivenName cs :=
    fun _ long plain => ⟨long, List.all_eq_true.mp plain⟩
  have isGap : ∀ cs : List Char, cs ≠ [] → cs.all isAsciiBlank = true → Gap cs :=
    fun _ filled blank => ⟨filled, List.all_eq_true.mp blank⟩
  have spelled : p.Spell (suffixesOf s.rules) (trim author).toList := by
    refine ⟨isName _ (by decide) (by decide), ?_, isGap _ (by decide) (by decide), by decide,
      by simp [p], ⟨by decide, List.all_eq_true.mp (by decide)⟩, ?_, by decide +kernel⟩
    · rintro _ member
      cases List.mem_singleton.mp member
      exact ⟨isGap _ (by decide) (by decide), isName _ (by decide) (by decide)⟩
    · rintro _ ⟨⟩
      exact ⟨isGap _ (by decide) (by decide), by decide +kernel⟩
  have answer : p.answer = "Mary  Ann Shaffer Ph D." := by decide +kernel
  have unspelled : ∀ q : Pieces, ¬ q.Spell (suffixesOf s.rules) (trim "Frank Herbert").toList := by
    intro q h
    have period : '.' ∈ (trim "Frank Herbert").toList := by
      rw [← h.text]
      simp [Pieces.text]
    exact absurd period (by decide +kernel)
  have given := simplifyAuthor_without_comma s free.1
  exact ⟨free.1, spelled, fun q h => given.1 p q spelled h, answer ▸ given.2.1 p spelled, free.2,
    unspelled, (simplifyAuthor_without_comma s free.2).2.2 unspelled⟩

end Simplifier

end ReleaseSearch
