/-! Lists that grow by what is new: an element goes behind the others, unless one with its key is
there already. A step lemma for each fact says what one element does, a run lemma what a list does. -/
namespace ReleaseSearch.FirstSeen

variable {α β γ : Type} [DecidableEq β]

/-- Puts an element behind the others, unless one with its key is there already. -/
def addNew (key : α → β) (kept : List α) (x : α) : List α :=
  if kept.any (key · == key x) then kept else kept ++ [x]

theorem any_key_iff (key : α → β) (kept : List α) (x : α) :
    kept.any (key · == key x) = true ↔ key x ∈ kept.map key := by
  simp only [List.any_eq_true, beq_iff_eq, List.mem_map]

theorem addNew_of_mem {key : α → β} {kept : List α} {x : α} (h : key x ∈ kept.map key) :
    addNew key kept x = kept := by
  rw [addNew, if_pos ((any_key_iff key kept x).mpr h)]

theorem addNew_of_not_mem {key : α → β} {kept : List α} {x : α} (h : key x ∉ kept.map key) :
    addNew key kept x = kept ++ [x] := by
  rw [addNew, if_neg (fun found => h ((any_key_iff key kept x).mp found))]

theorem mem_keys_addNew (key : α → β) (kept : List α) (x : α) (k : β) :
    k ∈ (addNew key kept x).map key ↔ k ∈ kept.map key ∨ k = key x := by
  by_cases known : key x ∈ kept.map key
  · rw [addNew_of_mem known]
    constructor
    · exact Or.inl
    · rintro (h | rfl)
      · exact h
      · exact known
  · rw [addNew_of_not_mem known, List.map_append, List.mem_append, List.map_singleton,
      List.mem_singleton]

/-- The keys after a run are those of before with those of the list. -/
theorem mem_keys_foldl (key : α → β) (xs kept : List α) (k : β) :
    k ∈ (xs.foldl (addNew key) kept).map key ↔ k ∈ kept.map key ∨ k ∈ xs.map key := by
  induction xs generalizing kept with
  | nil => simp
  | cons x rest ih =>
    rw [List.foldl_cons, ih, mem_keys_addNew, List.map_cons, List.mem_cons, or_assoc]

theorem nodup_addNew (key : α → β) {kept : List α} (x : α) (h : (kept.map key).Nodup) :
    ((addNew key kept x).map key).Nodup := by
  by_cases known : key x ∈ kept.map key
  · rw [addNew_of_mem known]
    exact h
  · rw [addNew_of_not_mem known, List.map_append, List.nodup_append]
    refine ⟨h, by simp, ?_⟩
    intro a ha b hb eq
    cases List.mem_singleton.mp hb
    exact known (eq ▸ ha)

/-- No key repeats after a run. -/
theorem nodup_foldl (key : α → β) (xs : List α) {kept : List α} (h : (kept.map key).Nodup) :
    ((xs.foldl (addNew key) kept).map key).Nodup := by
  induction xs generalizing kept with
  | nil => exact h
  | cons x rest ih => exact ih (nodup_addNew key x h)

theorem mem_of_mem_addNew {key : α → β} {kept : List α} {x y : α} (h : y ∈ addNew key kept x) :
    y ∈ kept ∨ y = x := by
  unfold addNew at h
  split at h
  · exact Or.inl h
  · rcases List.mem_append.mp h with h | h
    · exact Or.inl h
    · exact Or.inr (List.mem_singleton.mp h)

/-- A run makes nothing up. -/
theorem mem_of_mem_foldl {key : α → β} {xs kept : List α} {y : α}
    (h : y ∈ xs.foldl (addNew key) kept) : y ∈ kept ∨ y ∈ xs := by
  induction xs generalizing kept with
  | nil => exact Or.inl h
  | cons x rest ih =>
    rcases ih h with h | h
    · rcases mem_of_mem_addNew h with h | rfl
      · exact Or.inl h
      · exact Or.inr (List.mem_cons_self ..)
    · exact Or.inr (List.mem_cons_of_mem x h)

theorem prefix_addNew (key : α → β) (kept : List α) (x : α) : kept <+: addNew key kept x := by
  unfold addNew
  split
  · exact List.prefix_refl kept
  · exact List.prefix_append kept [x]

/-- A run only puts elements behind those that were there. -/
theorem prefix_foldl (key : α → β) (xs kept : List α) : kept <+: xs.foldl (addNew key) kept := by
  induction xs generalizing kept with
  | nil => exact List.prefix_refl kept
  | cons x rest ih => exact (prefix_addNew key kept x).trans (ih (addNew key kept x))

/-- Where no key repeats, nothing is left out. -/
theorem foldl_of_nodup (key : α → β) (xs kept : List α) (h : ((kept ++ xs).map key).Nodup) :
    xs.foldl (addNew key) kept = kept ++ xs := by
  induction xs generalizing kept with
  | nil => simp
  | cons x rest ih =>
    have new : key x ∉ kept.map key := by
      rw [List.map_append, List.nodup_append] at h
      intro known
      exact h.2.2 (key x) known (key x) (List.mem_cons_self ..) rfl
    rw [List.foldl_cons, addNew_of_not_mem new, ih, List.append_assoc, List.singleton_append]
    rw [List.append_assoc, List.singleton_append]
    exact h

/-- The element that stands for a member, if its key stands for no earlier member of the list. -/
def newAt (key : α → β) (f : γ → Option α) (cs : List γ) (c : γ) (i : Nat) : Option α :=
  (f c).filter fun x => ∀ e ∈ cs.take i, (f e).map key ≠ some (key x)

/-- The keys kept so far are those that stand for the members before. -/
def KeysOf (key : α → β) (f : γ → Option α) (before : List γ) (kept : List α) : Prop :=
  ∀ k, k ∈ kept.map key ↔ ∃ e ∈ before, (f e).map key = some k

/-- What one member does to the kept elements. -/
def addFor (key : α → β) (f : γ → Option α) (kept : List α) (c : γ) : List α :=
  (f c).elim kept (addNew key kept)

theorem keysOf_addFor {key : α → β} {f : γ → Option α} {before : List γ} {kept : List α}
    (h : KeysOf key f before kept) (c : γ) :
    KeysOf key f (before ++ [c]) (addFor key f kept c) := by
  intro k
  simp only [List.mem_append, List.mem_singleton, or_and_right, exists_or, exists_eq_left]
  rw [← h k, addFor]
  cases f c with
  | none => simp
  | some x => simp only [Option.elim_some, mem_keys_addNew, Option.map_some, Option.some.injEq,
      eq_comm]

theorem addFor_eq {key : α → β} {f : γ → Option α} {before : List γ} {kept : List α}
    (h : KeysOf key f before kept) (c : γ) (rest : List γ) :
    addFor key f kept c =
      kept ++ (newAt key f (before ++ c :: rest) c before.length).toList := by
  have here : (before ++ c :: rest).take before.length = before := by simp
  rw [addFor, newAt, here]
  cases f c with
  | none => simp
  | some x =>
    rw [Option.elim_some, Option.filter_some]
    have new : (∀ e ∈ before, (f e).map key ≠ some (key x)) ↔ key x ∉ kept.map key := by
      rw [h]; simp
    by_cases known : key x ∈ kept.map key
    · rw [addNew_of_mem known, if_neg (by rw [decide_eq_true_eq, new]; exact fun h => h known)]
      simp
    · rw [addNew_of_not_mem known, if_pos (by rw [decide_eq_true_eq, new]; exact known)]
      rfl

/-- A run over the elements that stand for members of a list keeps each that is new at its place. -/
theorem foldl_filterMap (key : α → β) (f : γ → Option α) (cs before : List γ) (kept : List α)
    (h : KeysOf key f before kept) :
    (cs.filterMap f).foldl (addNew key) kept =
      kept ++ (cs.zipIdx before.length).filterMap fun p => newAt key f (before ++ cs) p.1 p.2 := by
  induction cs generalizing before kept with
  | nil => simp
  | cons c rest ih =>
    have next := ih (before ++ [c]) (addFor key f kept c) (keysOf_addFor h c)
    rw [List.length_append, List.length_singleton, List.append_assoc, List.singleton_append] at next
    calc ((c :: rest).filterMap f).foldl (addNew key) kept
        = (rest.filterMap f).foldl (addNew key) (addFor key f kept c) := by
          rw [List.filterMap_cons, addFor]
          cases f c <;> rfl
      _ = _ := next
      _ = _ := by
          rw [addFor_eq h c rest, List.append_assoc, List.zipIdx_cons, List.filterMap_cons]
          cases newAt key f (before ++ c :: rest) c before.length <;> rfl

/-- Where an element is its own key, a run drops what repeats. -/
theorem foldl_id (xs kept : List β) :
    xs.foldl (addNew id) kept = kept ++ (xs.filter fun x => !kept.contains x).eraseDups := by
  induction xs generalizing kept with
  | nil => simp
  | cons x rest ih =>
    rw [List.foldl_cons, ih]
    by_cases known : x ∈ kept
    · have known' : id x ∈ kept.map id := by simpa using known
      rw [addNew_of_mem known', List.filter_cons_of_neg (by simpa using known)]
    · have new : id x ∉ kept.map id := by simpa using known
      rw [addNew_of_not_mem new, List.filter_cons_of_pos (by simpa using known),
        List.eraseDups_cons, List.filter_filter, List.append_assoc, List.singleton_append]
      congr 3
      apply List.filter_congr
      intro y _
      rw [Bool.eq_iff_iff]
      simp [and_comm]

theorem foldl_id_nil (xs : List β) : xs.foldl (addNew id) [] = xs.eraseDups := by
  have whole : xs.filter (fun x => !([] : List β).contains x) = xs := by simp
  rw [foldl_id, whole, List.nil_append]

theorem nodup_eraseDups (xs : List β) : xs.eraseDups.Nodup := by
  have distinct : ((xs.foldl (addNew id) []).map id).Nodup := nodup_foldl id xs List.nodup_nil
  rwa [foldl_id_nil, List.map_id] at distinct

end ReleaseSearch.FirstSeen
