import ReleaseSearch.Proofs.Text.Padding

/-! The words of a text. A blank parts the words before it from those behind it, so blanks at the
ends part nothing. There is one way only to read a text as words with blanks around them. -/
namespace ReleaseSearch.Text

variable {blank : Char → Bool}

theorem closeWord_append (word : List Char) (read later : List (List Char)) :
    closeWord word (read ++ later) = closeWord word read ++ later := by
  unfold closeWord
  split
  · rfl
  · rw [List.cons_append]

/-- Words that were read before stay behind those that are read after them. -/
theorem foldr_wordStep (cs : List Char) (later : List (List Char)) :
    cs.foldr (wordStep blank) ([], later) =
      ((cs.foldr (wordStep blank) ([], [])).1,
        (cs.foldr (wordStep blank) ([], [])).2 ++ later) := by
  induction cs with
  | nil => rfl
  | cons c rest ih =>
    rw [List.foldr_cons, List.foldr_cons, ih]
    unfold wordStep
    split
    · rw [closeWord_append]
    · rfl

theorem wordsBy_append_blank {b : Char} (h : blank b = true) (before behind : List Char) :
    wordsBy blank (before ++ b :: behind) = wordsBy blank before ++ wordsBy blank behind := by
  have start : (b :: behind).foldr (wordStep blank) ([], []) = ([], wordsBy blank behind) := by
    rw [List.foldr_cons, wordStep, if_pos h, wordsBy]
  simp only [wordsBy] at start ⊢
  rw [List.foldr_append, start, foldr_wordStep, closeWord_append]

theorem closeWord_eq_nil_iff (word : List Char) (rest : List (List Char)) :
    closeWord word rest = [] ↔ word = [] ∧ rest = [] := by
  unfold closeWord
  split
  · rename_i empty
    simp [List.isEmpty_iff.mp empty]
  · rename_i filled
    simp [List.isEmpty_iff.not.mp filled]

theorem wordsBy_eq_nil_iff (cs : List Char) :
    wordsBy blank cs = [] ↔ ∀ c ∈ cs, blank c = true := by
  rw [wordsBy, closeWord_eq_nil_iff]
  induction cs with
  | nil => simp
  | cons c rest ih =>
    rw [List.foldr_cons, wordStep, List.forall_mem_cons]
    split
    · rename_i here
      rw [closeWord_eq_nil_iff, ih]
      simp [here]
    · rename_i here
      simp [here]

theorem wordsBy_of_blank {cs : List Char} (h : ∀ c ∈ cs, blank c = true) :
    wordsBy blank cs = [] := (wordsBy_eq_nil_iff cs).mpr h

theorem words_eq_nil_iff (s : String) : words s = [] ↔ trim s = "" := by
  rw [words, wordsBy_eq_nil_iff, trim_eq_empty_iff]

theorem words_append_space (s t : String) : words (s ++ " " ++ t) = words s ++ words t := by
  have split : (s ++ " " ++ t).toList = s.toList ++ ' ' :: t.toList := by simp
  rw [words, split, wordsBy_append_blank (by decide), words, words]

theorem wordsBy_pad {front back : List Char} (before : ∀ c ∈ front, blank c = true)
    (behind : ∀ c ∈ back, blank c = true) (core : List Char) :
    wordsBy blank (front ++ core ++ back) = wordsBy blank core := by
  have ahead : ∀ cs, wordsBy blank (front ++ cs) = wordsBy blank cs := by
    intro cs
    induction front with
    | nil => rfl
    | cons c rest ih =>
      have here := wordsBy_append_blank (before c (List.mem_cons_self ..)) [] (rest ++ cs)
      rw [List.cons_append]
      exact here.trans (ih fun d member => before d (List.mem_cons_of_mem c member))
  rw [List.append_assoc, ahead]
  cases back with
  | nil => rw [List.append_nil]
  | cons c rest =>
    rw [wordsBy_append_blank (behind c (List.mem_cons_self ..)),
      wordsBy_of_blank fun d member => behind d (List.mem_cons_of_mem c member), List.append_nil]

/-- Blanks at the ends of a text belong to no word. -/
@[simp]
theorem words_trim (s : String) : words (trim s) = words s := by
  obtain ⟨front, back, before, behind, split⟩ := padded_trim s
  rw [words, words, split, wordsBy_pad before behind]

theorem foldr_wordStep_of_clear {word : List Char}
    (clear : ∀ c ∈ word, blank c = false) (state : List Char × List (List Char)) :
    word.foldr (wordStep blank) state = (word ++ state.1, state.2) := by
  induction word with
  | nil => rfl
  | cons c word ih =>
    obtain ⟨here, later⟩ := List.forall_mem_cons.mp clear
    rw [List.foldr_cons, ih later, wordStep, here, if_neg Bool.false_ne_true, List.cons_append]

theorem wordsBy_word_append {word rest : List Char} (filled : word ≠ [])
    (clear : ∀ c ∈ word, blank c = false) (stops : ∀ c ∈ rest.head?, blank c = true) :
    wordsBy blank (word ++ rest) = word :: wordsBy blank rest := by
  have closed : (rest.foldr (wordStep blank) ([], [])).1 = [] := by
    cases rest with
    | nil => rfl
    | cons c rest => rw [List.foldr_cons, wordStep, if_pos (stops c rfl)]
  rw [wordsBy, wordsBy, List.foldr_append, foldr_wordStep_of_clear clear]
  dsimp only
  rw [closed, List.append_nil]
  simp [closeWord, filled]

/-- A text and its words: blanks, a word with none in it, and behind the word a blank or the end. -/
inductive Worded (blank : Char → Bool) : List Char → List (List Char) → Prop where
  | done {gap} : (∀ c ∈ gap, blank c = true) → Worded blank gap []
  | next {gap word rest words} : (∀ c ∈ gap, blank c = true) → word ≠ [] →
      (∀ c ∈ word, blank c = false) → (∀ c ∈ rest.head?, blank c = true) →
      Worded blank rest words → Worded blank (gap ++ (word ++ rest)) (word :: words)

namespace Worded

variable {cs word rest : List Char} {words : List (List Char)}

theorem cons_blank {b : Char} (h : blank b = true) (worded : Worded blank cs words) :
    Worded blank (b :: cs) words := by
  cases worded with
  | done gap => exact .done (List.forall_mem_cons.mpr ⟨h, gap⟩)
  | next gap filled clear stops rest =>
    exact .next (List.forall_mem_cons.mpr ⟨h, gap⟩) filled clear stops rest

theorem close (clear : ∀ c ∈ word, blank c = false) (stops : ∀ c ∈ rest.head?, blank c = true)
    (worded : Worded blank rest words) : Worded blank (word ++ rest) (closeWord word words) := by
  unfold closeWord
  split
  · rename_i empty
    rw [List.isEmpty_iff.mp empty]
    exact worded
  · rename_i filled
    have touching : ∀ c ∈ ([] : List Char), blank c = true := by simp
    exact .next touching (List.isEmpty_iff.not.mp filled) clear stops worded

/-- What is read from the right: a word that may still grow, and the words behind it. -/
theorem exists_rest (blank : Char → Bool) (cs : List Char) :
    ∃ rest, cs = (cs.foldr (wordStep blank) ([], [])).1 ++ rest ∧
      (∀ c ∈ (cs.foldr (wordStep blank) ([], [])).1, blank c = false) ∧
      (∀ c ∈ rest.head?, blank c = true) ∧
      Worded blank rest (cs.foldr (wordStep blank) ([], [])).2 := by
  induction cs with
  | nil => exact ⟨[], rfl, by simp, by simp, .done (by simp)⟩
  | cons c cs ih =>
    obtain ⟨rest, split, clear, stops, worded⟩ := ih
    rw [List.foldr_cons]
    generalize cs.foldr (wordStep blank) ([], []) = state at split clear worded ⊢
    unfold wordStep
    split
    · rename_i here
      -- the word that was growing ends at this blank
      refine ⟨c :: cs, rfl, by simp, by simpa using here, ?_⟩
      rw [split]
      exact (worded.close clear stops).cons_blank here
    · rename_i here
      refine ⟨rest, congrArg (c :: ·) split, ?_, stops, worded⟩
      exact List.forall_mem_cons.mpr ⟨by simpa using here, clear⟩

theorem wordsBy_eq (worded : Worded blank cs words) : wordsBy blank cs = words := by
  induction worded with
  | done gap => exact wordsBy_of_blank gap
  | @next gap word rest words before filled clear stops _ ih =>
    have behind : ∀ c ∈ ([] : List Char), blank c = true := by simp
    rw [← List.append_nil (gap ++ (word ++ rest)), wordsBy_pad before behind,
      wordsBy_word_append filled clear stops, ih]

end Worded

theorem worded_iff {cs : List Char} {words : List (List Char)} :
    Worded blank cs words ↔ wordsBy blank cs = words := by
  constructor
  · exact Worded.wordsBy_eq
  · rintro rfl
    obtain ⟨rest, split, clear, stops, worded⟩ := Worded.exists_rest blank cs
    have closed := worded.close clear stops
    rw [← split] at closed
    exact closed

end ReleaseSearch.Text
