import ReleaseSearch.Proofs.Assoc
import ReleaseSearch.Proofs.Catalog
import ReleaseSearch.Provider

/-! Providers under a sequence of operations. What a catalog answers follows from the books that were
inserted before; a recorder in front of a provider changes no answer. -/
namespace ReleaseSearch

theorem Catalog.size_insertAll (s : Simplifier) (entries : List CatalogEntry) :
    ((empty s).insertAll entries).size = (entries.map CatalogEntry.id).toFinset.card := by
  have ids : (entries.map fun e => (e.id, e.book.withSearchTerms s)).map Prod.fst =
      entries.map CatalogEntry.id := by
    rw [List.map_map]
    rfl
  rw [← ofEntries_eq_insertAll, size, ofEntries, Assoc.size_ofList, ids]

namespace Provider

inductive Operation where
  | insert (id : String) (book : Book)
  | lookup (id : String)
  | size
  | isEmpty
deriving DecidableEq

inductive Answer where
  | done
  | book (answer : Except MetadataError Book)
  | count (n : Nat)
  | flag (value : Bool)
deriving DecidableEq

def Operation.inserted? : Operation → Option CatalogEntry
  | .insert id book => some ⟨id, book⟩
  | _ => none

def Operation.lookedUp? : Operation → Option String
  | .lookup id => some id
  | _ => none

def step (p : Provider) : Operation → Answer × Provider
  | .insert id book => (.done, p.insert id book)
  | .lookup id =>
    let (answer, p) := p.lookup id
    (.book answer, p)
  | .size => (.count p.size, p)
  | .isEmpty => (.flag p.isEmpty, p)

def run (p : Provider) : List Operation → List Answer × Provider
  | [] => ([], p)
  | op :: rest =>
    let (answer, p) := p.step op
    let (answers, p) := p.run rest
    (answer :: answers, p)

theorem run_cons (p : Provider) (op : Operation) (rest : List Operation) :
    p.run (op :: rest) =
      ((p.step op).1 :: ((p.step op).2.run rest).1, ((p.step op).2.run rest).2) := rfl

/-- The answer to an operation, from the operations before it: a book is the one last inserted under
its id, the size is the number of different ids. -/
def answerAfter (s : Simplifier) (before : List Operation) : Operation → Answer
  | .insert _ _ => .done
  | .lookup id =>
    .book (match Catalog.lastBook? (before.filterMap Operation.inserted?) id with
      | some book => .ok (book.withSearchTerms s)
      | none => .error (.notFound id))
  | .size =>
    .count ((before.filterMap Operation.inserted?).map CatalogEntry.id).toFinset.card
  | .isEmpty =>
    .flag (decide
      (((before.filterMap Operation.inserted?).map CatalogEntry.id).toFinset.card = 0))

/-- The catalog that operations make out of an empty one. -/
def catalogAfter (s : Simplifier) (before : List Operation) : Provider :=
  .catalog ((Catalog.empty s).insertAll (before.filterMap Operation.inserted?))

theorem catalogAfter_of_read {s : Simplifier} {before : List Operation} {op : Operation}
    (read : op.inserted? = none) : catalogAfter s (before ++ [op]) = catalogAfter s before := by
  have same : (before ++ [op]).filterMap Operation.inserted? =
      before.filterMap Operation.inserted? := by
    rw [List.filterMap_append, List.filterMap_cons_none read, List.filterMap_nil, List.append_nil]
  rw [catalogAfter, same, catalogAfter]

theorem step_catalogAfter (s : Simplifier) (before : List Operation) (op : Operation) :
    (catalogAfter s before).step op = (answerAfter s before op, catalogAfter s (before ++ [op])) := by
  cases op with
  | insert id book =>
    have more : (before ++ [Operation.insert id book]).filterMap Operation.inserted? =
        before.filterMap Operation.inserted? ++ [⟨id, book⟩] := List.filterMap_append
    have grown := Catalog.insertAll_append_singleton (.empty s)
      (before.filterMap Operation.inserted?) ⟨id, book⟩
    rw [catalogAfter, catalogAfter, more, grown]
    rfl
  | lookup id =>
    have found := Catalog.lookup_ofEntries_insertAll s [] (before.filterMap Operation.inserted?) id
    rw [catalogAfter_of_read rfl, answerAfter]
    exact congrArg (fun answer => (Answer.book answer, catalogAfter s before)) found
  | size =>
    have counted := Catalog.size_insertAll s (before.filterMap Operation.inserted?)
    rw [catalogAfter_of_read rfl, answerAfter, ← counted]
    rfl
  | isEmpty =>
    have counted := Catalog.size_insertAll s (before.filterMap Operation.inserted?)
    rw [catalogAfter_of_read rfl, answerAfter, ← counted]
    exact congrArg (fun value => (Answer.flag value, catalogAfter s before)) (Assoc.isEmpty_eq _)

theorem run_catalogAfter (s : Simplifier) (before ops : List Operation) :
    (catalogAfter s before).run ops =
      (ops.mapIdx fun i op => answerAfter s (before ++ ops.take i) op,
        catalogAfter s (before ++ ops)) := by
  -- what was done before grows by the operation that is done
  induction ops generalizing before with
  | nil => simp [run]
  | cons op rest ih =>
    rw [run_cons, step_catalogAfter]
    simp only [ih, List.mapIdx_cons, List.take_zero, List.take_succ_cons, List.append_nil,
      List.append_assoc, List.singleton_append]

theorem run_append (p : Provider) (first second : List Operation) :
    p.run (first ++ second) =
      ((p.run first).1 ++ ((p.run first).2.run second).1, ((p.run first).2.run second).2) := by
  induction first generalizing p with
  | nil => rfl
  | cons op rest ih =>
    rw [List.cons_append, run_cons, run_cons, ih, List.cons_append]

theorem length_run (p : Provider) (ops : List Operation) : (p.run ops).1.length = ops.length := by
  induction ops generalizing p with
  | nil => rfl
  | cons op rest ih =>
    rw [run_cons, List.length_cons, List.length_cons, ih]

/-- What does not change the provider can be left out, but for its own answer. -/
theorem run_eraseIdx {p : Provider} {before : List Operation} {op : Operation}
    (idle : ((p.run before).2.step op).2 = (p.run before).2) (later : List Operation) :
    (p.run (before ++ op :: later)).1.eraseIdx before.length = (p.run (before ++ later)).1 := by
  have length := length_run p before
  rw [run_append, run_append, run_cons, idle, List.eraseIdx_append_of_length_le length.le, length,
    Nat.sub_self, List.eraseIdx_cons_zero]

theorem step_recording (inner : Provider) (log : List String) (op : Operation) :
    (recording inner log).step op =
      ((inner.step op).1, recording (inner.step op).2 (log ++ op.lookedUp?.toList)) := by
  cases op with
  | lookup id => rfl
  | insert id book => exact congrArg (fun log => (_, recording _ log)) (List.append_nil log).symm
  | size => exact congrArg (fun log => (_, recording _ log)) (List.append_nil log).symm
  | isEmpty => exact congrArg (fun log => (_, recording _ log)) (List.append_nil log).symm

/-- A recorder answers as the provider behind it does, and logs each id that is looked up. -/
theorem run_recording (inner : Provider) (log : List String) (ops : List Operation) :
    (recording inner log).run ops =
      ((inner.run ops).1,
        recording (inner.run ops).2 (log ++ ops.filterMap Operation.lookedUp?)) := by
  induction ops generalizing inner log with
  | nil => simp [run]
  | cons op rest ih =>
    have logged : (op :: rest).filterMap Operation.lookedUp? =
        op.lookedUp?.toList ++ rest.filterMap Operation.lookedUp? := by
      rw [List.filterMap_cons]
      cases op.lookedUp? <;> rfl
    rw [run_cons, run_cons, step_recording, ih, logged, List.append_assoc]

/-- A catalog behind a recorder answers as a map from ids to the books last inserted under them,
and the log holds the ids that were looked up. -/
theorem recorded_catalog_answers (s : Simplifier) (ops : List Operation) :
    let bare := Provider.catalog (.empty s)
    let recorded := Provider.recording bare []
    (recorded.run ops).1 = (ops.mapIdx fun i op => answerAfter s (ops.take i) op) ∧
      (recorded.run ops).1 = (bare.run ops).1 ∧
      (recorded.run ops).2.recorded? = some (ops.filterMap Operation.lookedUp?) ∧
      ∀ before id later,
        (recorded.run (before ++ .lookup id :: later)).1.eraseIdx before.length =
          (recorded.run (before ++ later)).1 := by
  intro bare recorded
  have transparent : ∀ ops, recorded.run ops =
      ((bare.run ops).1, recording (bare.run ops).2 (ops.filterMap Operation.lookedUp?)) :=
    run_recording bare []
  have answers : ∀ ops, bare.run ops =
      (ops.mapIdx fun i op => answerAfter s (ops.take i) op, catalogAfter s ops) :=
    run_catalogAfter s []
  refine ⟨?_, ?_, ?_, ?_⟩
  · rw [transparent, answers]
  · rw [transparent]
  · rw [transparent]
    rfl
  · intro before id later
    rw [transparent, transparent]
    apply run_eraseIdx
    rw [answers]
    rfl

end Provider

end ReleaseSearch
