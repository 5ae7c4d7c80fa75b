/-! Finite maps that keep the order in which their keys first came. -/
namespace ReleaseSearch

structure Assoc (α : Type) where
  entries : List (String × α)
  nodup : (entries.map Prod.fst).Nodup
deriving DecidableEq

namespace Assoc

variable {α : Type}

/-- Replaces the value under a key that is there, or puts a new entry behind the others. -/
def put (key : String) (value : α) : List (String × α) → List (String × α)
  | [] => [(key, value)]
  | entry :: rest =>
    if entry.1 = key then (key, value) :: rest else entry :: put key value rest

theorem mem_keys_put (key : String) (value : α) (entries : List (String × α)) (k : String) :
    k ∈ (put key value entries).map Prod.fst ↔ k = key ∨ k ∈ entries.map Prod.fst := by
  induction entries with
  | nil => simp [put]
  | cons entry rest ih =>
    by_cases h : entry.1 = key
    · simp [put, h]
    · simp only [put, h, if_false, List.map_cons, List.mem_cons, ih]
      constructor
      · rintro (h | h | h) <;> simp [h]
      · rintro (h | h | h) <;> simp [h]

theorem nodup_put (key : String) (value : α) (entries : List (String × α))
    (h : (entries.map Prod.fst).Nodup) : ((put key value entries).map Prod.fst).Nodup := by
  induction entries with
  | nil => simp [put]
  | cons entry rest ih =>
    simp only [List.map_cons, List.nodup_cons] at h
    by_cases same : entry.1 = key
    · simp only [put, same, if_true, List.map_cons, List.nodup_cons]
      exact ⟨same ▸ h.1, h.2⟩
    · simp only [put, same, if_false, List.map_cons, List.nodup_cons]
      refine ⟨fun mem => ?_, ih h.2⟩
      rcases (mem_keys_put key value rest entry.1).mp mem with eq | mem
      · exact same eq
      · exact h.1 mem

theorem lookup_put (key : String) (value : α) (entries : List (String × α)) (k : String) :
    (put key value entries).lookup k = if k = key then some value else entries.lookup k := by
  induction entries with
  | nil =>
    by_cases h : k = key
    · simp [put, h]
    · simp [put, List.lookup_cons, h, beq_false_of_ne h]
  | cons entry rest ih =>
    obtain ⟨first, old⟩ := entry
    by_cases same : first = key
    · subst same
      by_cases h : k = first
      · simp [put, h]
      · simp [put, List.lookup_cons, h, beq_false_of_ne h]
    · by_cases h : k = first
      · simp [put, same, h]
      · simp [put, same, List.lookup_cons, beq_false_of_ne h, ih]

def empty : Assoc α := ⟨[], by simp⟩

def insert (m : Assoc α) (key : String) (value : α) : Assoc α :=
  ⟨put key value m.entries, nodup_put key value m.entries m.nodup⟩

/-- Of the values given for one key the last counts. -/
def ofList (entries : List (String × α)) : Assoc α :=
  entries.foldl (fun m entry => m.insert entry.1 entry.2) empty

def get? (m : Assoc α) (key : String) : Option α := m.entries.lookup key

/-- After a write the new value is under its key, and every other key has what it had. -/
theorem get?_insert (m : Assoc α) (key : String) (value : α) (k : String) :
    (m.insert key value).get? k = if k = key then some value else m.get? k :=
  lookup_put key value m.entries k

def size (m : Assoc α) : Nat := m.entries.length

def isEmpty (m : Assoc α) : Bool := m.entries.isEmpty

end Assoc

end ReleaseSearch
