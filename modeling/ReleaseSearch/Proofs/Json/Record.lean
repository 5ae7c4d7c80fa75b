import ReleaseSearch.Proofs.Data
import ReleaseSearch.Proofs.Json.Rendered

/-! Reading what is written as an object. The members are read one after the other, so that it is
enough to say what each does to the state. -/
namespace ReleaseSearch

namespace Json

theorem names_member? {α : Type} (name : String) (write : α → Json) (value : Option α) :
    ((member? name write value).map Prod.fst).Sublist [name] := by
  cases value with
  | none => exact List.nil_sublist _
  | some a => exact List.Sublist.refl _

theorem numberless_map {α : Type} {write : α → Json} (plain : ∀ a, Numberless (write a))
    (values : List α) : Numberless (list (values.map write)) := by
  refine .list fun item h => ?_
  obtain ⟨a, _, rfl⟩ := List.mem_map.mp h
  exact plain a

theorem numberless_texts (values : List String) : Numberless (texts values) :=
  numberless_map .text values

theorem numberless_member? {α : Type} {name : String} {write : α → Json} {value : Option α}
    (plain : ∀ a, Numberless (write a)) : ∀ m ∈ member? name write value, Numberless m.2 := by
  intro m h
  cases value with
  | none => cases h
  | some a =>
    cases List.mem_singleton.mp h
    exact plain a

theorem read_of_readText {α : Type} {read : Data → Except Fault α} {text : String} {a : α}
    (h : readText read text = .ok a) : read (valueOf text).1 = .ok a := by
  unfold readText at h
  generalize valueOf text = found at h ⊢
  obtain ⟨b, got, whole⟩ := Data.bind_eq_ok_iff.mp h
  split at whole
  · cases whole
    exact got
  · cases whole

end Json

namespace Data
open Json

/-- A list that was written is read item by item, whatever an item is read as. -/
theorem readList_map_toData {α β : Type} {read : Data → Except Fault β} {write : α → Json}
    {image : α → β} (law : ∀ a, read (write a).toData = .ok (image a)) (values : List α) :
    readList read (Json.list (values.map write)).toData = .ok (values.map image) := by
  have each : (itemsData (values.map write)).mapM read = .ok (values.map image) := by
    induction values with
    | nil => rfl
    | cons a values ih =>
      rw [List.map_cons, itemsData, List.mapM_cons, law, ih]
      rfl
  rw [toData, readList, each]
  rfl

theorem readList_toData {α : Type} {read : Data → Except Fault α} {write : α → Json}
    (inverse : ∀ a, read (write a).toData = .ok a) (values : List α) :
    readList read (Json.list (values.map write)).toData = .ok values := by
  have back := readList_map_toData inverse values
  rwa [List.map_id'] at back

theorem readTexts_toData (values : List String) : readTexts (texts values).toData = .ok values :=
  readList_toData (fun _ => rfl) values

theorem readOption_of_ok {α : Type} {read : Data → Except Fault α} {d : Data} {a : α}
    (filled : d ≠ .null) (h : read d = .ok a) : readOption read d = .ok (some a) := by
  unfold readOption
  split
  · exact absurd rfl filled
  · rw [h]
    rfl

theorem readTextTable_toData (entries : List (String × String)) :
    readTextTable (Json.object (entries.map fun e => (e.1, .text e.2))).toData = .ok entries := by
  have each : (membersData (entries.map fun e => (e.1, .text e.2))).mapM readEntry =
      .ok entries := by
    induction entries with
    | nil => rfl
    | cons e entries ih =>
      rw [List.map_cons, membersData, List.mapM_cons, ih]
      rfl
  rw [toData, readTextTable, each]
  rfl

variable {σ : Type} {fields : List (RecordField σ)}

/-- Reads one member into the state; a member that is no field is skipped. -/
def readMember (fields : List (RecordField σ)) (state : σ) (m : String × Json) :
    Except Fault σ :=
  match fields.find? (·.name == m.1) with
  | some field => field.read state m.2.toData
  | none => .ok state

/-- Members that take the state from `s` to `t`. -/
def Reads (fields : List (RecordField σ)) (members : List (String × Json)) (s t : σ) : Prop :=
  members.foldlM (readMember fields) s = .ok t

theorem Reads.append {front back : List (String × Json)} {s t u : σ}
    (first : Reads fields front s t) (second : Reads fields back t u) :
    Reads fields (front ++ back) s u := by
  rw [Reads, List.foldlM_append, first]
  exact second

theorem Reads.member (name : String) {v : Json} {field : RecordField σ} {s t : σ}
    (found : fields.find? (·.name == name) = some field) (read : field.read s v.toData = .ok t) :
    Reads fields [(name, v)] s t := by
  rw [Reads, List.foldlM_cons, readMember, found]
  simp only [read]
  rfl

theorem Reads.optional {α : Type} (name : String) (write : α → Json) (set : σ → Option α → σ)
    {field : RecordField σ} {s : σ} (found : fields.find? (·.name == name) = some field)
    (absent : set s none = s)
    (present : ∀ a, field.read s (write a).toData = .ok (set s (some a))) (value : Option α) :
    Reads fields (member? name write value) s (set s value) := by
  cases value with
  | none =>
    rw [absent]
    rfl
  | some a => exact .member name found (present a)

theorem find?_name_ne_none {f : RecordField σ} (h : f ∈ fields) :
    fields.find? (·.name == f.name) ≠ none := by
  intro missing
  simpa using List.find?_eq_none.mp missing f h

/-- Every field that has come is among the names that were seen. -/
theorem readMembers_of_reads {members : List (String × Json)} {seen : List String} {s t : σ}
    (distinct : (members.map Prod.fst).Nodup) (fresh : ∀ m ∈ members, m.1 ∉ seen)
    (read : Reads fields members s t) :
    ∃ after, readMembers fields seen s (membersData members) = .ok (t, after) ∧
      ∀ f ∈ fields, f.name ∈ seen ∨ f.name ∈ members.map Prod.fst → f.name ∈ after := by
  induction members generalizing seen s with
  | nil =>
    cases read
    exact ⟨seen, rfl, fun f _ h => by simpa using h⟩
  | cons m members ih =>
    obtain ⟨name, v⟩ := m
    rw [List.map_cons, List.nodup_cons] at distinct
    have new : name ∉ seen := fresh (name, v) (List.mem_cons_self ..)
    have fresh_rest : ∀ e ∈ members, e.1 ∉ seen :=
      fun e h => fresh e (List.mem_cons_of_mem _ h)
    rw [Reads, List.foldlM_cons, readMember] at read
    rw [membersData, readMembers]
    dsimp only at read ⊢
    cases found : fields.find? (·.name == name) with
    | none =>
      rw [found] at read
      obtain ⟨after, eq, kept⟩ := ih distinct.2 fresh_rest read
      refine ⟨after, by simp only [isWhole_toData, if_true, eq], ?_⟩
      intro f hf h
      refine kept f hf ?_
      rw [List.map_cons, List.mem_cons] at h
      rcases h with h | rfl | h
      · exact Or.inl h
      · exact absurd found (find?_name_ne_none hf)
      · exact Or.inr h
    | some field =>
      rw [found] at read
      obtain ⟨u, here, rest⟩ := bind_eq_ok_iff.mp read
      have fresh_here : ∀ e ∈ members, e.1 ∉ name :: seen := by
        intro e h known
        rcases List.mem_cons.mp known with same | known
        · exact distinct.1 (List.mem_map.mpr ⟨e, h, same⟩)
        · exact fresh_rest e h known
      obtain ⟨after, eq, kept⟩ := ih distinct.2 fresh_here rest
      refine ⟨after, ?_, ?_⟩
      · simp only [List.contains_iff_mem, new, if_false, here]
        exact eq
      · intro f hf h
        refine kept f hf ?_
        rw [List.map_cons, List.mem_cons] at h
        rcases h with h | h | h
        · exact Or.inl (List.mem_cons_of_mem name h)
        · exact Or.inl (List.mem_cons.mpr (Or.inl h))
        · exact Or.inr h

/-- A record is read from an object whose members have different names and hold what is required. -/
theorem readRecord_object {members : List (String × Json)} {start result : σ}
    (distinct : (members.map Prod.fst).Nodup)
    (required : ∀ f ∈ fields, f.presence = .required → f.name ∈ members.map Prod.fst)
    (read : Reads fields members start result) (ignoreSurplus : Bool) :
    readRecord fields ignoreSurplus start (Json.object members).toData = .ok result := by
  have fresh : ∀ m ∈ members, m.1 ∉ ([] : List String) := by simp
  obtain ⟨after, eq, kept⟩ := readMembers_of_reads distinct fresh read
  have complete :
      fields.all (fun f => f.presence != .required || after.contains f.name) = true := by
    rw [List.all_eq_true]
    intro f hf
    by_cases must : f.presence = .required
    · have come := kept f hf (Or.inr (required f hf must))
      simp [come]
    · simp [must]
  rw [toData, readRecord, eq]
  change (if fields.all (fun f => f.presence != .required || after.contains f.name) then
    Except.ok result else Except.error Fault.mismatch) = _
  rw [if_pos complete]

theorem readRecord_object_of_head {members : List (String × Json)} {start result : σ}
    (name : String) (first : (members.map Prod.fst).head? = some name)
    (distinct : (members.map Prod.fst).Nodup)
    (required : ∀ f ∈ fields, f.presence = .required → f.name = name)
    (read : Reads fields members start result) (ignoreSurplus : Bool) :
    readRecord fields ignoreSurplus start (Json.object members).toData = .ok result := by
  refine readRecord_object distinct ?_ read ignoreSurplus
  intro f member must
  rw [required f member must]
  exact List.mem_of_head? first

end Data

end ReleaseSearch
