import ReleaseSearch.Json.Reader
import ReleaseSearch.Json

/-! Reading what was written. -/
namespace ReleaseSearch.Json

mutual

/-- What a reader finds in the text of a value. -/
def toData : Json → Data
  | .null => .null
  | .bool value => .bool value
  | .number n => .number (some n)
  | .text s => .text (some s)
  | .list items => .list (itemsData items) true
  | .object members => .table (membersData members) true

def itemsData : List Json → List Data
  | [] => []
  | item :: items => item.toData :: itemsData items

def membersData : List (String × Json) → List (Option String × Data)
  | [] => []
  | (name, value) :: members => (some name, value.toData) :: membersData members

end

/-- No number stands in the value. -/
inductive Numberless : Json → Prop where
  | null : Numberless .null
  | bool (value : Bool) : Numberless (.bool value)
  | text (value : String) : Numberless (.text value)
  | list {items : List Json} (h : ∀ item ∈ items, Numberless item) : Numberless (.list items)
  | object {members : List (String × Json)} (h : ∀ m ∈ members, Numberless m.2) :
    Numberless (.object members)

theorem isWhole_toData (v : Json) : v.toData.isWhole = true := by
  cases v <;> rfl

/-! Texts. -/

/-- What is read for a character of a text: a control character is written as its code unit. -/
def pieceOf (c : Char) : Piece :=
  if c ≠ '"' ∧ c ≠ '\\' ∧ c.toNat < 0x20 then .unit c.toNat else .char c

theorem hex4?_control : ∀ n < 0x20,
    hex4? '0' '0' (hexDigit (n / 16)) (hexDigit (n % 16)) = some n := by decide

theorem pieces?_plain {c : Char} (quote : c ≠ '"') (slash : c ≠ '\\') (plain : ¬ c.toNat < 0x20)
    (rest : List Char) :
    pieces? (c :: rest) = (pieces? rest).map fun found => (.char c :: found.1, found.2) := by
  rw [pieces?]
  · rw [if_neg (by simp [slash, plain])]
    cases pieces? rest <;> rfl
  · exact quote
  · intro _ _ _ _ _ h _
    exact slash h
  · intro _ _ h _
    exact slash h

theorem pieces?_escapeChar (c : Char) (rest : List Char) :
    pieces? (escapeChar c ++ rest) =
      (pieces? rest).map fun found => (pieceOf c :: found.1, found.2) := by
  by_cases quote : c = '"'
  · subst quote
    cases h : pieces? rest <;> simp [escapeChar, pieces?, escaped?, pieceOf, h]
  by_cases slash : c = '\\'
  · subst slash
    cases h : pieces? rest <;> simp [escapeChar, pieces?, escaped?, pieceOf, h]
  by_cases control : c.toNat < 0x20
  · have unit := hex4?_control c.toNat control
    cases h : pieces? rest <;> simp [escapeChar, pieces?, pieceOf, quote, slash, control, unit, h]
  · rw [escapeChar, if_neg quote, if_neg slash, if_neg control, List.singleton_append,
      pieces?_plain quote slash control, pieceOf, if_neg (by simp [control])]

theorem pieces?_quote (cs rest : List Char) :
    pieces? (cs.flatMap escapeChar ++ '"' :: rest) = some (cs.map pieceOf, rest) := by
  induction cs with
  | nil => rfl
  | cons c cs ih =>
    rw [List.flatMap_cons, List.append_assoc, pieces?_escapeChar, ih]
    rfl

/-- A code unit that is no half of a surrogate pair stands for itself, whatever follows it. -/
theorem assemble?_unit {n : Nat} (high : isHighSurrogate n = false) (low : isLowSurrogate n = false)
    (rest : List Piece) :
    assemble? (.unit n :: rest) = (assemble? rest).map (Char.ofNat n :: ·) := by
  match rest with
  | [] => simp [assemble?, high, low]
  | .char c :: rest => simp [assemble?, high, low]
  | .unit m :: rest => simp [assemble?, high, low]

theorem assemble?_pieceOf (c : Char) (rest : List Piece) :
    assemble? (pieceOf c :: rest) = (assemble? rest).map (c :: ·) := by
  unfold pieceOf
  split
  · rename_i control
    have high : isHighSurrogate c.toNat = false := by
      simp only [isHighSurrogate, Bool.and_eq_false_iff, decide_eq_false_iff_not]
      omega
    have low : isLowSurrogate c.toNat = false := by
      simp only [isLowSurrogate, Bool.and_eq_false_iff, decide_eq_false_iff_not]
      omega
    rw [assemble?_unit high low, Char.ofNat_toNat]
  · rw [assemble?]

theorem assemble?_map_pieceOf (cs : List Char) : assemble? (cs.map pieceOf) = some cs := by
  induction cs with
  | nil => rfl
  | cons c cs ih => rw [List.map_cons, assemble?_pieceOf, ih, Option.map_some]

theorem quoted?_quote (s : String) (rest : List Char) :
    quoted? (s.toList.flatMap escapeChar ++ '"' :: rest) = some (some s, rest) := by
  rw [quoted?, pieces?_quote, Option.map_some, assemble?_map_pieceOf, Option.map_some,
    String.ofList_toList]

/-! Values. -/

theorem quote_append (s : String) (rest : List Char) :
    quote s ++ rest = '"' :: (s.toList.flatMap escapeChar ++ '"' :: rest) := by
  simp [quote]

/-- The first character of a value is no blank, and does not end a list. -/
theorem renderChars_head {v : Json} (h : Numberless v) :
    ∃ c cs, v.renderChars = c :: cs ∧ isSpace c = false ∧ c ≠ ']' := by
  cases h with
  | null => exact ⟨'n', _, by rw [renderChars]; rfl, by decide, by decide⟩
  | bool value =>
    cases value with
    | true => exact ⟨'t', _, by rw [renderChars]; rfl, by decide, by decide⟩
    | false => exact ⟨'f', _, by rw [renderChars]; rfl, by decide, by decide⟩
  | text s => exact ⟨'"', _, by rw [renderChars, quote]; rfl, by decide, by decide⟩
  | @list items _ =>
    cases items with
    | nil => exact ⟨'[', _, by rw [renderChars], by decide, by decide⟩
    | cons item items => exact ⟨'[', _, by rw [renderChars]; rfl, by decide, by decide⟩
  | @object members _ =>
    cases members with
    | nil => exact ⟨'\x7b', _, by rw [renderChars], by decide, by decide⟩
    | cons m members => exact ⟨'\x7b', _, by rw [renderChars]; rfl, by decide, by decide⟩

theorem skipSpace_cons {c : Char} (h : isSpace c = false) (cs : List Char) :
    skipSpace (c :: cs) = c :: cs := by
  rw [skipSpace, List.dropWhile_cons_of_neg (by simp [h])]

theorem skipSpace_renderChars {v : Json} (h : Numberless v) (rest : List Char) :
    skipSpace (v.renderChars ++ rest) = v.renderChars ++ rest := by
  obtain ⟨c, cs, eq, clear, _⟩ := renderChars_head h
  rw [eq, List.cons_append, skipSpace_cons clear]

/-- What reading a value takes: in so many steps its text is read as the value, up to its end. -/
def ReadsBack (v : Json) : Prop :=
  ∀ steps rest, 2 * v.renderChars.length ≤ steps →
    value steps (v.renderChars ++ rest) = (v.toData, rest)

section Items

variable {v : Json} {steps : Nat}

theorem items_last (plain : Numberless v) (read : ReadsBack v)
    (enough : 2 * v.renderChars.length ≤ steps) (rest : List Char) :
    Json.items (steps + 1) (v.renderChars ++ ']' :: rest) = ([v.toData], true, rest) := by
  rw [Json.items, skipSpace_renderChars plain, read steps _ enough]
  simp only [isWhole_toData, if_true, skipSpace_cons (show isSpace ']' = false by decide)]

theorem items_next (plain : Numberless v) (read : ReadsBack v)
    (enough : 2 * v.renderChars.length ≤ steps) {tail rest : List Char} {more : List Data}
    {closed : Bool} (behind : Json.items steps tail = (more, closed, rest)) :
    Json.items (steps + 1) (v.renderChars ++ ',' :: tail) = (v.toData :: more, closed, rest) := by
  rw [Json.items, skipSpace_renderChars plain, read steps _ enough]
  simp only [isWhole_toData, if_true, skipSpace_cons (show isSpace ',' = false by decide), behind]

theorem items_renderItems (items : List Json) (item : Json)
    (plain : ∀ v ∈ item :: items, Numberless v) (read : ∀ v ∈ item :: items, ReadsBack v)
    (steps : Nat) (rest : List Char)
    (enough : 2 * (item.renderChars ++ renderItems items).length ≤ steps) :
    Json.items steps (item.renderChars ++ renderItems items ++ rest) =
      (itemsData (item :: items), true, rest) := by
  have plain_item := plain item (List.mem_cons_self ..)
  have read_item := read item (List.mem_cons_self ..)
  induction items generalizing item steps with
  | nil =>
    rw [renderItems, List.length_append, List.length_singleton] at enough
    obtain ⟨steps, rfl⟩ : ∃ n, steps = n + 1 := ⟨steps - 1, by omega⟩
    rw [renderItems, List.append_assoc, List.singleton_append,
      items_last plain_item read_item (by omega)]
    rfl
  | cons next items ih =>
    rw [renderItems, List.cons_append, List.length_append, List.length_cons] at enough
    obtain ⟨steps, rfl⟩ : ∃ n, steps = n + 1 := ⟨steps - 1, by omega⟩
    have behind := ih next (fun v h => plain v (List.mem_cons_of_mem item h))
      (fun v h => read v (List.mem_cons_of_mem item h)) steps (by omega)
      (plain next (by simp)) (read next (by simp))
    rw [renderItems, List.append_assoc, List.cons_append, List.cons_append,
      items_next plain_item read_item (by omega) behind]
    rfl

end Items

section Members

variable {v : Json} {steps : Nat}

theorem members_last (name : String) (plain : Numberless v) (read : ReadsBack v)
    (enough : 2 * v.renderChars.length ≤ steps) (rest : List Char) :
    Json.members (steps + 1) (quote name ++ ':' :: (v.renderChars ++ '\x7d' :: rest)) =
      ([(some name, v.toData)], true, rest) := by
  rw [quote_append, Json.members, skipSpace_cons (by decide)]
  simp only [quoted?_quote, skipSpace_cons (show isSpace ':' = false by decide),
    skipSpace_renderChars plain, read steps _ enough, isWhole_toData, if_true,
    skipSpace_cons (show isSpace '\x7d' = false by decide)]

theorem members_next (name : String) (plain : Numberless v) (read : ReadsBack v)
    (enough : 2 * v.renderChars.length ≤ steps) {tail rest : List Char}
    {more : List (Option String × Data)} {closed : Bool}
    (behind : Json.members steps tail = (more, closed, rest)) :
    Json.members (steps + 1) (quote name ++ ':' :: (v.renderChars ++ ',' :: tail)) =
      ((some name, v.toData) :: more, closed, rest) := by
  rw [quote_append, Json.members, skipSpace_cons (by decide)]
  simp only [quoted?_quote, skipSpace_cons (show isSpace ':' = false by decide),
    skipSpace_renderChars plain, read steps _ enough, isWhole_toData, if_true,
    skipSpace_cons (show isSpace ',' = false by decide), behind]

/-- The text of one member and of those behind it, without the mark in front. -/
def renderMember (m : String × Json) (members : List (String × Json)) : List Char :=
  quote m.1 ++ ':' :: (m.2.renderChars ++ renderMembers members)

theorem renderMembers_cons (m : String × Json) (members : List (String × Json)) :
    renderMembers (m :: members) = ',' :: renderMember m members := by
  rw [renderMembers, renderMember, List.cons_append, List.cons_append, List.append_assoc,
    List.cons_append]

theorem members_renderMember (members : List (String × Json)) (m : String × Json)
    (plain : ∀ e ∈ m :: members, Numberless e.2) (read : ∀ e ∈ m :: members, ReadsBack e.2)
    (steps : Nat) (rest : List Char) (enough : 2 * (renderMember m members).length ≤ steps) :
    Json.members steps (renderMember m members ++ rest) =
      (membersData (m :: members), true, rest) := by
  have plain_member := plain m (List.mem_cons_self ..)
  have read_member := read m (List.mem_cons_self ..)
  simp only [renderMember, List.length_append, List.length_cons] at enough
  induction members generalizing m steps with
  | nil =>
    obtain ⟨steps, rfl⟩ : ∃ n, steps = n + 1 := ⟨steps - 1, by omega⟩
    rw [renderMember, renderMembers, List.append_assoc, List.cons_append, List.append_assoc,
      List.singleton_append, members_last m.1 plain_member read_member (by omega)]
    rfl
  | cons next members ih =>
    rw [renderMembers_cons, renderMember, List.length_cons, List.length_append, List.length_cons,
      List.length_append] at enough
    obtain ⟨steps, rfl⟩ : ∃ n, steps = n + 1 := ⟨steps - 1, by omega⟩
    have behind := ih next (fun e h => plain e (List.mem_cons_of_mem m h))
      (fun e h => read e (List.mem_cons_of_mem m h)) steps 
      (plain next (by simp)) (read next (by simp)) (by omega)
    rw [renderMember, renderMembers_cons, List.append_assoc, List.cons_append, List.append_assoc,
      List.cons_append, members_next m.1 plain_member read_member (by omega) behind]
    rfl

end Members

theorem exists_steps {v : Json} (plain : Numberless v) {steps : Nat}
    (enough : 2 * v.renderChars.length ≤ steps) : ∃ n, steps = n + 1 := by
  obtain ⟨c, cs, eq, _⟩ := renderChars_head plain
  rw [eq, List.length_cons] at enough
  exact ⟨steps - 1, by omega⟩

theorem value_scalar {c : Char} (list : c ≠ '[') (object : c ≠ '\x7b') (steps : Nat)
    (cs : List Char) : value (steps + 1) (c :: cs) = scalar (c :: cs) := by
  rw [value]
  · intro _ h
    exact list (List.cons.inj h).1
  · intro _ h
    exact object (List.cons.inj h).1

section Inside

variable {c : Char} {steps : Nat} {cs rest : List Char} {closed : Bool}

theorem value_list (clear : isSpace c = false) (filled : c ≠ ']') {items : List Data}
    (inside : Json.items steps (c :: cs) = (items, closed, rest)) :
    value (steps + 1) ('[' :: c :: cs) = (.list items closed, rest) := by
  rw [value, skipSpace_cons clear]
  split
  · rename_i h
    exact absurd (List.cons.inj h).1 filled
  · rw [inside]

theorem value_object (clear : isSpace c = false) (filled : c ≠ '\x7d')
    {members : List (Option String × Data)}
    (inside : Json.members steps (c :: cs) = (members, closed, rest)) :
    value (steps + 1) ('\x7b' :: c :: cs) = (.table members closed, rest) := by
  rw [value, skipSpace_cons clear]
  split
  · rename_i h
    exact absurd (List.cons.inj h).1 filled
  · rw [inside]

end Inside

theorem readsBack_list {items : List Json} (plain : ∀ v ∈ items, Numberless v)
    (read : ∀ v ∈ items, ReadsBack v) : ReadsBack (.list items) := by
  intro steps rest enough
  obtain ⟨steps, rfl⟩ := exists_steps (.list plain) enough
  cases items with
  | nil =>
    rw [renderChars, List.cons_append, List.singleton_append, value, skipSpace_cons (by decide)]
    rfl
  | cons item items =>
    rw [renderChars, List.cons_append, List.length_cons] at enough
    have inside := items_renderItems items item plain read steps rest (by omega)
    obtain ⟨c, cs, eq, clear, filled⟩ := renderChars_head (plain item (List.mem_cons_self ..))
    rw [eq, List.cons_append, List.cons_append] at inside
    rw [renderChars, eq, List.cons_append, List.cons_append, List.cons_append, List.cons_append,
      value_list clear filled inside]
    rfl

theorem readsBack_object {members : List (String × Json)}
    (plain : ∀ m ∈ members, Numberless m.2) (read : ∀ m ∈ members, ReadsBack m.2) :
    ReadsBack (.object members) := by
  intro steps rest enough
  obtain ⟨steps, rfl⟩ := exists_steps (.object plain) enough
  cases members with
  | nil =>
    rw [renderChars, List.cons_append, List.singleton_append, value, skipSpace_cons (by decide)]
    rfl
  | cons m members =>
    have front : (Json.object (m :: members)).renderChars = '\x7b' :: renderMember m members := by
      rw [renderChars, renderMember, List.cons_append, List.cons_append, List.append_assoc,
        List.cons_append]
    rw [front, List.length_cons] at enough
    have inside := members_renderMember members m plain read steps rest (by omega)
    rw [renderMember, List.append_assoc, quote_append] at inside
    rw [front, List.cons_append, renderMember, List.append_assoc, quote_append,
      value_object (by decide) (by decide) inside]
    rfl

/-- Reading the text of a value takes up that text and nothing of what follows it. -/
theorem readsBack {v : Json} (plain : Numberless v) : ReadsBack v := by
  induction plain with
  | list plain ih => exact readsBack_list plain ih
  | object plain ih => exact readsBack_object plain ih
  | null =>
    intro steps rest enough
    obtain ⟨steps, rfl⟩ := exists_steps .null enough
    rw [renderChars]
    exact value_scalar (by decide) (by decide) steps _
  | bool value =>
    intro steps rest enough
    obtain ⟨steps, rfl⟩ := exists_steps (.bool value) enough
    cases value with
    | true =>
      rw [renderChars]
      exact value_scalar (by decide) (by decide) steps _
    | false =>
      rw [renderChars]
      exact value_scalar (by decide) (by decide) steps _
  | text s =>
    intro steps rest enough
    obtain ⟨steps, rfl⟩ := exists_steps (.text s) enough
    rw [renderChars, quote_append, value_scalar (by decide) (by decide), scalar, quoted?_quote]
    rfl

theorem valueOf_render {v : Json} (plain : Numberless v) : valueOf v.render = (v.toData, []) := by
  have clear := skipSpace_renderChars plain []
  have whole := readsBack plain (2 * v.renderChars.length + 2) [] (by omega)
  rw [List.append_nil] at clear whole
  simp only [valueOf, render, String.toList_ofList, clear, whole]

/-- The text of a value is read as the value is. -/
theorem readText_render {α : Type} (read : Data → Except Fault α) {v : Json}
    (plain : Numberless v) : readText read v.render = read v.toData := by
  rw [readText, valueOf_render plain]
  change (read v.toData >>= fun result =>
    if (skipSpace []).isEmpty then .ok result else .error .malformed) = _
  cases read v.toData <;> rfl

end ReleaseSearch.Json
