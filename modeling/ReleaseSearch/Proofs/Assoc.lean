import Mathlib.Data.Finset.Card
import ReleaseSearch.Assoc

/-! Maps after any number of writes: which keys they have, and how many. A list of entries that
repeats no key is kept as it is. -/
namespace ReleaseSearch.Assoc

variable {α : Type}

theorem ext_entries {m n : Assoc α} (h : m.entries = n.entries) : m = n := by
  cases m
  cases n
  cases h
  rfl

theorem put_of_not_mem {key : String} {value : α} {entries : List (String × α)}
    (new : key ∉ entries.map Prod.fst) : put key value entries = entries ++ [(key, value)] := by
  induction entries with
  | nil => rfl
  | cons entry rest ih =>
    rw [List.map_cons, List.mem_cons, not_or] at new
    rw [put, if_neg (fun same => new.1 same.symm), ih new.2, List.cons_append]

theorem entries_foldl_insert (entries : List (String × α)) (m : Assoc α)
    (distinct : ((m.entries ++ entries).map Prod.fst).Nodup) :
    (entries.foldl (fun m entry => m.insert entry.1 entry.2) m).entries = m.entries ++ entries := by
  induction entries generalizing m with
  | nil => simp
  | cons entry rest ih =>
    have new : entry.1 ∉ m.entries.map Prod.fst := by
      rw [List.map_append, List.nodup_append] at distinct
      intro known
      exact distinct.2.2 entry.1 known entry.1 (List.mem_cons_self ..) rfl
    have here : (m.insert entry.1 entry.2).entries = m.entries ++ [entry] := put_of_not_mem new
    rw [List.foldl_cons, ih, here, List.append_assoc, List.singleton_append]
    rw [here, List.append_assoc, List.singleton_append]
    exact distinct

/-- A list of entries with different keys is kept as it is. -/
theorem entries_ofList {entries : List (String × α)} (distinct : (entries.map Prod.fst).Nodup) :
    (ofList entries).entries = entries :=
  entries_foldl_insert entries empty distinct

theorem ofList_entries (m : Assoc α) : ofList m.entries = m :=
  ext_entries (entries_ofList m.nodup)

def keys (m : Assoc α) : List String := m.entries.map Prod.fst

theorem mem_keys_foldl_insert (entries : List (String × α)) (m : Assoc α) (k : String) :
    k ∈ (entries.foldl (fun m entry => m.insert entry.1 entry.2) m).keys ↔
      k ∈ m.keys ∨ k ∈ entries.map Prod.fst := by
  induction entries generalizing m with
  | nil => simp
  | cons entry rest ih =>
    have here : k ∈ (m.insert entry.1 entry.2).keys ↔ k = entry.1 ∨ k ∈ m.keys :=
      mem_keys_put entry.1 entry.2 m.entries k
    rw [List.foldl_cons, ih, here, List.map_cons, List.mem_cons, or_assoc, or_left_comm]

theorem mem_keys_ofList (entries : List (String × α)) (k : String) :
    k ∈ (ofList entries).keys ↔ k ∈ entries.map Prod.fst := by
  rw [ofList, mem_keys_foldl_insert]
  simp [keys, empty]

theorem size_ofList (entries : List (String × α)) :
    (ofList entries).size = (entries.map Prod.fst).toFinset.card := by
  have same : (ofList entries).keys.toFinset = (entries.map Prod.fst).toFinset := by
    ext k
    rw [List.mem_toFinset, List.mem_toFinset, mem_keys_ofList]
  have distinct : (ofList entries).keys.Nodup := (ofList entries).nodup
  rw [← same, List.toFinset_card_of_nodup distinct, keys, List.length_map, size]

theorem isEmpty_eq (m : Assoc α) : m.isEmpty = decide (m.size = 0) := by
  rw [Bool.eq_iff_iff, isEmpty, size, List.isEmpty_iff, decide_eq_true_eq, List.length_eq_zero_iff]

theorem get?_eq_some_iff (m : Assoc α) (k : String) (value : α) :
    m.get? k = some value ↔ (k, value) ∈ m.entries := by
  constructor
  · intro found
    obtain ⟨before, after, split, _⟩ := List.lookup_eq_some_iff.mp found
    rw [split]
    exact List.mem_append_right before (List.mem_cons_self ..)
  · intro member
    obtain ⟨before, after, split⟩ := List.append_of_mem member
    refine List.lookup_eq_some_iff.mpr ⟨before, after, split, fun entry h => ?_⟩
    have distinct := m.nodup
    rw [split, List.map_append, List.nodup_append] at distinct
    have apart := distinct.2.2 entry.1 (List.mem_map_of_mem h) k (List.mem_cons_self ..)
    simpa using Ne.symm apart

theorem mem_keys_iff (m : Assoc α) (k : String) : k ∈ m.keys ↔ m.get? k ≠ none := by
  rw [keys, List.mem_map, Ne, Option.eq_none_iff_forall_ne_some, not_forall]
  constructor
  · rintro ⟨entry, member, rfl⟩
    exact ⟨entry.2, not_not_intro ((get?_eq_some_iff ..).mpr member)⟩
  · rintro ⟨value, known⟩
    exact ⟨_, (get?_eq_some_iff ..).mp (not_not.mp known), rfl⟩

/-- A write under one key leaves the entries of the other keys as they were. -/
theorem filter_put {p : String → Bool} {key : String} (apart : p key = false) (value : α)
    (entries : List (String × α)) :
    (put key value entries).filter (fun entry => p entry.1) =
      entries.filter fun entry => p entry.1 := by
  induction entries with
  | nil => simp [put, apart]
  | cons entry rest ih =>
    by_cases same : entry.1 = key
    · rw [put, if_pos same, List.filter_cons_of_neg (by simp [apart]),
        List.filter_cons_of_neg (by simp [same, apart])]
    · rw [put, if_neg same, List.filter_cons, List.filter_cons, ih]

/-- Scanning the entries for a key is scanning the keys, and looking up the one that is found. -/
theorem map_find?_entries (m : Assoc α) (p : String → Bool) :
    (m.entries.find? fun entry => p entry.1).map Prod.snd = (m.keys.find? p).bind m.get? := by
  have scan : (fun entry : String × α => p entry.1) = p ∘ Prod.fst := rfl
  rw [scan, keys, List.find?_map]
  cases found : m.entries.find? (p ∘ Prod.fst) with
  | none => rfl
  | some entry => exact ((get?_eq_some_iff ..).mpr (List.mem_of_find?_eq_some found)).symm

end ReleaseSearch.Assoc
