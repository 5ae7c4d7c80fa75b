import Mathlib.Data.List.Forall2
import ReleaseSearch.Proofs.Text.Trim
import ReleaseSearch.Text.Ascii

/-! The classes of the name, marker and annotation grammars. Their blanks are blanks of running text
too, and a capital is none of them. -/
namespace ReleaseSearch.Text

theorem isAsciiBlank_iff (c : Char) :
    isAsciiBlank c = true ↔ c.toNat = 0x20 ∨ 9 ≤ c.toNat ∧ c.toNat ≤ 13 := by
  have space : c = ' ' ↔ c.toNat = 0x20 := by
    constructor
    · rintro rfl
      rfl
    · intro code
      rw [← Char.ofNat_toNat c, code]
  simp only [isAsciiBlank, Bool.or_eq_true, beq_iff_eq, Bool.and_eq_true, decide_eq_true_eq, space]

theorem isBlank_of_isAsciiBlank {c : Char} (h : isAsciiBlank c = true) : isBlank c = true := by
  rcases (isAsciiBlank_iff c).mp h with space | ⟨low, high⟩
  · simp [isBlank, space]
  · simp [isBlank, low, high]

theorem isAsciiBlank_of_not_isBlank {c : Char} (h : isBlank c = false) :
    isAsciiBlank c = false := by
  cases blank : isAsciiBlank c with
  | false => rfl
  | true => rw [isBlank_of_isAsciiBlank blank] at h; cases h

theorem toLower_of_not_ascii {c : Char} (h : 0x80 ≤ c.toNat) : c.toLower = c := by
  unfold Char.toLower
  rw [dif_neg]
  rintro ⟨_, capital⟩
  have small : c.toNat ≤ 'Z'.toNat := UInt32.le_iff_toNat_le.mp capital
  have letter : 'Z'.toNat = 0x5A := rfl
  omega

theorem toUpper_of_not_ascii {c : Char} (h : 0x80 ≤ c.toNat) : c.toUpper = c := by
  unfold Char.toUpper
  rw [dif_neg]
  rintro ⟨_, upper⟩
  have small : c.toNat ≤ 'z'.toNat := UInt32.le_iff_toNat_le.mp upper
  have letter : 'z'.toNat = 0x7A := rfl
  omega

/-- What holds within ASCII, and of a character that has no other case, holds of every character. -/
theorem forall_of_ascii {p : Char → Prop} (ascii : ∀ n < 0x80, p (Char.ofNat n))
    (caseless : ∀ c : Char, c.toLower = c → c.toUpper = c → p c) (c : Char) : p c := by
  by_cases small : c.toNat < 0x80
  · have held := ascii c.toNat small
    rwa [Char.ofNat_toNat] at held
  · apply caseless
    · exact toLower_of_not_ascii (by omega)
    · exact toUpper_of_not_ascii (by omega)

theorem map_toLower_map_toUpper (cs : List Char) :
    (cs.map Char.toUpper).map Char.toLower = cs.map Char.toLower := by
  rw [List.map_map]
  apply List.map_congr_left
  intro c _
  exact forall_of_ascii (p := fun c => c.toUpper.toLower = c.toLower) (by decide)
    (fun c _ upper => by rw [upper]) c

theorem map_toUpper_map_toLower (cs : List Char) :
    (cs.map Char.toLower).map Char.toUpper = cs.map Char.toUpper := by
  rw [List.map_map]
  apply List.map_congr_left
  intro c _
  exact forall_of_ascii (p := fun c => c.toLower.toUpper = c.toUpper) (by decide)
    (fun c lower _ => by rw [lower]) c

/-- A class within ASCII is known by what it says of ASCII. -/
theorem mem_of_ascii_class {test : Char → Bool} {members : List Char}
    (within : members.all (fun d => decide (d.toNat < 0x80)) = true)
    (outside : ∀ c, 0x80 ≤ c.toNat → test c = false)
    (agree : ∀ n < 0x80, test (Char.ofNat n) = members.contains (Char.ofNat n)) (c : Char) :
    test c = true ↔ c ∈ members := by
  by_cases ascii : c.toNat < 0x80
  · have same := agree c.toNat ascii
    rw [Char.ofNat_toNat] at same
    rw [same, List.contains_iff_mem]
  · constructor
    · intro held
      rw [outside c (by omega)] at held
      cases held
    · intro member
      exact absurd (of_decide_eq_true (List.all_eq_true.mp within c member)) ascii

theorem afterWord?_eq_some_iff {same : Char → Char → Bool} {word text rest : List Char} :
    afterWord? same word text = some rest ↔
      ∃ front, List.Forall₂ (fun w c => same w c = true) word front ∧ text = front ++ rest := by
  induction word generalizing text with
  | nil => simp [afterWord?]
  | cons w word ih =>
    cases text with
    | nil => simp [afterWord?, List.forall₂_cons_left_iff]
    | cons c text =>
      rw [afterWord?]
      split
      · rename_i letter
        rw [ih]
        constructor
        · rintro ⟨front, spelled, rfl⟩
          exact ⟨c :: front, .cons letter spelled, rfl⟩
        · rintro ⟨_, whole, split⟩
          obtain ⟨d, front, _, spelled, rfl⟩ := List.forall₂_cons_left_iff.mp whole
          obtain ⟨rfl, rfl⟩ := List.cons.inj split
          exact ⟨front, spelled, rfl⟩
      · rename_i other
        constructor
        · intro impossible
          cases impossible
        · rintro ⟨_, whole, split⟩
          obtain ⟨d, front, letter, _, rfl⟩ := List.forall₂_cons_left_iff.mp whole
          obtain ⟨rfl, _⟩ := List.cons.inj split
          exact absurd letter other

/-- To the letter. -/
theorem afterWord?_exact {word text rest : List Char} :
    afterWord? (· == ·) word text = some rest ↔ text = word ++ rest := by
  simp [afterWord?_eq_some_iff]

/-- The case of ASCII letters aside. -/
theorem afterWord?_sameLetter {word text rest : List Char} :
    afterWord? sameLetter word text = some rest ↔
      ∃ front, front.map Char.toLower = word.map Char.toLower ∧ text = front ++ rest := by
  have spelled : ∀ front, List.Forall₂ (fun w c => sameLetter w c = true) word front ↔
      front.map Char.toLower = word.map Char.toLower := by
    intro front
    rw [eq_comm, ← List.forall₂_eq_eq_eq, List.forall₂_map_left_iff, List.forall₂_map_right_iff]
    simp only [sameLetter, beq_iff_eq]
  simp only [afterWord?_eq_some_iff, spelled]

theorem toNat_of_isUpper {m : Char} (h : m.isUpper = true) : 65 ≤ m.toNat ∧ m.toNat ≤ 90 := by
  have range : m.val ≥ 65 ∧ m.val ≤ 90 := of_decide_eq_true h
  exact ⟨UInt32.le_iff_toNat_le.mp range.1, UInt32.le_iff_toNat_le.mp range.2⟩

theorem isBlank_of_isUpper {m : Char} (h : m.isUpper = true) : isBlank m = false := by
  have bounds := toNat_of_isUpper h
  simp only [isBlank, Bool.or_eq_false_iff, Bool.and_eq_false_iff, decide_eq_false_iff_not,
    beq_eq_false_iff_ne]
  omega

/-- Where a text in two parts ends in a word behind one character: within the second part, or in all
of it and in an end of the first. -/
theorem cons_suffix_append_iff {b : Char} {word front back : List Char} :
    b :: word <:+ front ++ back ↔
      b :: word <:+ back ∨ ∃ begun, word = begun ++ back ∧ b :: begun <:+ front := by
  constructor
  · rintro ⟨before, eq⟩
    rcases List.append_eq_append_iff.mp eq with ⟨more, rfl, split⟩ | ⟨more, rfl, split⟩
    · cases more with
      | nil => exact Or.inl (by rw [split]; exact List.suffix_rfl)
      | cons c begun =>
        obtain ⟨rfl, rfl⟩ := List.cons.inj split
        exact Or.inr ⟨begun, rfl, List.suffix_append _ _⟩
    · exact Or.inl ⟨more, split.symm⟩
  · rintro (within | ⟨begun, rfl, before, rfl⟩)
    · exact List.suffix_append_of_suffix within
    · exact ⟨before, by simp⟩

/-- A word that begins behind one of the class and not with one does not begin within a run of the
class. -/
theorem eq_nil_of_run {p : Char → Bool} {run begun rest : List Char} {b : Char}
    (inside : ∀ c ∈ run, p c = true) (ends : b :: begun <:+ run)
    (starts : ∀ c ∈ (begun ++ rest).head?, p c = false) : begun = [] := by
  cases begun with
  | nil => rfl
  | cons c more =>
    have held := inside c (ends.mem (by simp))
    rw [starts c rfl] at held
    cases held

section Last

/-! What stands behind the last character of a class. -/

variable {p : Char → Bool} {cs word other : List Char} {b b' : Char}

/-- A text that ends in a word behind one character, and in another word behind one of the class:
where the first word is free of the class, it is the other one or the end of it. -/
theorem suffix_of_last (held' : p b' = true) (clear : ∀ c ∈ word, p c = false)
    (ends : b :: word <:+ cs) (ends' : b' :: other <:+ cs) :
    b :: word = b' :: other ∨ b :: word <:+ other := by
  rcases List.suffix_or_suffix_of_suffix ends ends' with inside | around
  · exact List.suffix_cons_iff.mp inside
  · rcases List.suffix_cons_iff.mp around with same | inside
    · exact Or.inl same.symm
    · rw [clear b' (inside.mem (List.mem_cons_self ..))] at held'
      cases held'

/-- What stands behind the last character of a class is determined by the text. -/
theorem eq_of_last (held : p b = true) (held' : p b' = true) (clear : ∀ c ∈ word, p c = false)
    (clear' : ∀ c ∈ other, p c = false) (ends : b :: word <:+ cs) (ends' : b' :: other <:+ cs) :
    word = other := by
  rcases suffix_of_last held' clear ends ends' with same | inside
  · exact (List.cons.inj same).2
  · rw [clear' b (inside.mem (List.mem_cons_self ..))] at held
    cases held

end Last

end ReleaseSearch.Text
