import RecordStore.Store.Bulk
import RecordStore.Store.Indexing
import RecordStore.Store.Transaction
import RecordStore.Store.Upsert

/-!
# Operations as data

What a caller can ask of a store, and what the answers are. `Operation`s act on records and may
stand in a transaction; `Upkeep` concerns the catalog and may not. `Step`s are both, with the clock,
the indexing job and transactions in addition; a session is a list of them (`Step.runAll`). A failed
step changes no other step's chance to run, unless a transaction stops at it.
-/

namespace RecordStore

/-! ## Requests -/

/-- What can be asked of a store anywhere. -/
inductive Operation where
  /-- Makes a record without inserting it. -/
  | newRecord (draft : Draft) (actor : Actor)
  | create (drafts : List Draft) (actor : Actor)
  | insert (records : List Record)
  | replace (records : List Record)
  | remove (ids : List String)
  /-- All records, deleted ones too. -/
  | all
  | read (request : ReadRequest)
  | get (scope : Scope) (id : String)
  | count (request : CountRequest)
  | update (request : UpdateRequest)
  | delete (request : DeleteRequest)
  | upsert (drafts : List Draft) (options : UpsertOptions)
  | bulkUpdate (request : BulkUpdateRequest)
  | bulkDelete (request : BulkDeleteRequest)

/-- What can be asked of a store with its catalog, outside transactions. -/
inductive Upkeep where
  | cleanup (request : CleanupRequest) (withCatalog : Bool)
  | index (since : Option Instant) (settings : IndexSettings)
  | runJob
  /-- Folds descriptors into the rows of a partition, now or at another instant. -/
  | upsertFields (descriptors : List Descriptor) (instant : Option Instant) (p : Partition)
  | fields (p : Partition)
  | deleteFields (paths : List String) (p : Partition)
  | deletePartition (p : Partition)
  | partitions (appId : Option String)
  | validateSort (items : List SortItem) (p : Partition)
  | requireIndexed (paths : List String) (p : Partition)

/-! ## Answers -/

/-- Why a step has no answer. -/
inductive Failure where
  | store (error : StoreError)
  | unreadable (part : String)
  | unknown (what : String)
deriving DecidableEq

inductive Answer where
  | done
  | number (n : Int)
  | record (r : Record)
  | records (records : List Record)
  | found (r : Option Record)
  | ids (ids : List String)
  | page (result : ReadResult)
  | updated (result : UpdateResult)
  | deleted (result : DeleteResult)
  | upserted (result : UpsertResult)
  | bulkUpdated (result : BulkUpdateResult) (reports : List Progress)
  | bulkDeleted (result : DeleteResult) (reports : List Progress)
  | cleaned (result : CleanupResult) (reports : List Progress)
  | indexed (stats : IndexStats)
  | jobRun (stats : Except StoreError IndexStats) (lastSuccessAt : Option Instant)
  | rows (rows : List FieldRow)
  | partitions (partitions : List Partition)
  /-- The number of records that are kept. -/
  | size (n : Nat)
  | transaction (steps : List (Except Failure Answer)) (outcome : Except StoreError Unit)

abbrev Outcome := Except Failure Answer

/-! ## Running operations -/

variable {B : Backend}

def Operation.run (store : Store B) : Operation → Action B Answer
  | newRecord draft actor => return .record (← Store.newRecord draft actor)
  | create drafts actor => return .records (← store.create drafts actor)
  | insert records => do
    store.insert records
    return .done
  | replace records => return .number (← store.replace records)
  | remove ids => return .number (← store.remove ids)
  | all => return .records (← store.all)
  | read request => return .page (← store.read request)
  | get scope id => return .found (← store.get? scope id)
  | count request => return .number (← store.count request)
  | update request => return .updated (← store.update request)
  | delete request => return .deleted (← store.delete request)
  | upsert drafts options => return .upserted (← store.upsert drafts options)
  | bulkUpdate request => do
    let (result, reports) ← store.bulkUpdate request
    return .bulkUpdated result reports
  | bulkDelete request => do
    let (result, reports) ← store.bulkDelete request
    return .bulkDeleted result reports

/-- Runs the indexing job of a world, if there is one. -/
def runJob : StateM (World B) Outcome := do
  match (← get).job with
  | none => return .error (.unknown "no job")
  | some job =>
    let (stats, job) ← job.run
    modify fun w => { w with job := some job }
    return .ok (.jobRun stats job.lastSuccessAt)

def outcome (action : Action B Answer) : StateM (World B) Outcome := do
  return match ← action.run with
    | .ok answer => .ok answer
    | .error e => .error (.store e)

def Upkeep.run (store : Store B) : Upkeep → StateM (World B) Outcome
  | cleanup request withCatalog => outcome do
    let (result, reports) ← store.cleanup request withCatalog
    return .cleaned result reports
  | index since settings => outcome do return .indexed (← store.index since settings)
  | runJob => RecordStore.runJob
  | upsertFields descriptors instant p => outcome do
    let now ← Action.now
    return .rows (← Action.onStorage (B.catalog.upsert p descriptors (instant.getD now)))
  | fields p => outcome do return .rows (← Action.onStorage (B.catalog.rows p))
  | deleteFields paths p => outcome do
    return .number (← Action.onStorage (B.catalog.deleteFields p paths))
  | deletePartition p => outcome do
    return .number (← Action.onStorage (B.catalog.deletePartition p))
  | partitions appId => outcome do
    return .partitions (← Action.onStorage (B.catalog.partitions appId))
  | validateSort items p => outcome do
    Action.onStorage (B.catalog.validateSort p items)
    return .done
  | requireIndexed paths p => outcome do
    Action.onStorage (B.catalog.requireIndexed p paths)
    return .done

/-! ## Steps -/

/-- A step of a session. `N` is what can be asked of the backend in its own terms. -/
inductive Step (N : Type) where
  /-- A step whose request could not be read. -/
  | refused (failure : Failure)
  | operation (op : Operation)
  /-- Upkeep, if its request could be read. -/
  | upkeep (request : Except Failure Upkeep)
  | native (request : N)
  | now
  | setClock (instant : Instant)
  /-- Advances the clock, which starts again from its least instant after its greatest. -/
  | advanceClock (duration : Int64)
  | newJob (settings : IndexSettings)
  /-- Runs steps in a transaction, and stops at the first failure or goes on after it. At the end
  the transaction may be made to fail. -/
  | transaction (steps : List (Step N)) (stops fails : Bool)

/-- The error with which a failed step ends the transaction that stops at it. -/
def Failure.error : Failure → StoreError
  | store e => e
  | _ => .validation (.other "step failed")

namespace Step

variable {N : Type}

/-- Sets the clock to what a function makes of it. -/
def moveClock (f : Instant → Instant) : StateM (World B) Outcome := do
  modify fun w => { w with clock := f w.clock }
  return .ok (.number (← get).clock.toInt)

/-- The outcome of the body of a transaction in which no step has stopped it. -/
def verdict (fails : Bool) : Except StoreError Unit :=
  if fails then refuse (.other "rolled back by the caller") else .ok ()

mutual

/-- Runs a step through a store, in a transaction or not. -/
def run (native : N → Action B Answer) (store : Store B) (inTransaction : Bool) :
    Step N → StateM (World B) Outcome
  | refused failure => return .error failure
  | operation op => outcome (op.run store)
  | upkeep request =>
    if inTransaction then return .error (.unknown "not inside a transaction")
    else match request with
      | .ok request => request.run store
      | .error failure => return .error failure
  | Step.native request => outcome (native request)
  | now => moveClock id
  | setClock instant => moveClock fun _ => instant
  | advanceClock duration => moveClock (· + duration)
  | newJob settings => do
    modify fun w => { w with job := some (.new store settings) }
    return .ok .done
  | transaction steps stops fails => do
    match ← (store.begin? : Action B (Option (Store B))).run with
    | .error e => return .ok (.transaction [] (.error e))
    | .ok none =>
      let (outcomes, result) ← runBody native store stops fails steps
      return .ok (.transaction outcomes result)
    | .ok (some bound) =>
      let (outcomes, result) ← runBody native bound stops fails steps
      return .ok (.transaction outcomes (← bound.conclude result))
termination_by structural step => step

/-- Runs the steps of a transaction. -/
def runBody (native : N → Action B Answer) (store : Store B) (stops fails : Bool) :
    List (Step N) → StateM (World B) (List Outcome × Except StoreError Unit)
  | [] => return ([], verdict fails)
  | step :: rest => do
    match stops, ← run native store true step with
    | true, .error failure => return ([.error failure], .error failure.error)
    | _, outcome =>
      let (outcomes, result) ← runBody native store stops fails rest
      return (outcome :: outcomes, result)
termination_by structural steps => steps

end

def runAll (native : N → Action B Answer) (store : Store B) (steps : List (Step N)) :
    StateM (World B) (List Outcome) :=
  steps.mapM (run native store false)

end Step

end RecordStore
