import RecordStore.Proofs.Store.Access
import RecordStore.Proofs.Store.Upsert

/-!
# Reachable memories

Calls, and the memories that they can lead to. What a single call does to the records
(`Call.admits_run`) tells what holds after any sequence of them: every record stands under its id
(`Reachable.wellFormed`).
-/

namespace RecordStore

open Collection Evolution

/-! ## Calls -/

/-- What can be asked of a store on a memory: an operation, or a cleanup. -/
inductive Call where
  | operation (op : Operation)
  | cleanup (request : CleanupRequest) (withCatalog : Bool)

namespace Call

/-- Runs a call. -/
def run (store : Store collectionBackend) : Call → Action collectionBackend Answer
  | operation op => op.run store
  | cleanup request withCatalog => do
    let (result, reports) ← store.cleanup request withCatalog
    return .cleaned result reports

/-- How a call lets records evolve. -/
def evolution : Call → Evolution
  | operation (.insert _) => any
  | operation (.replace _) => any
  | operation (.remove _) => any
  | operation (.bulkDelete request) => Store.deletion request.hard
  | operation _ => kept
  | cleanup _ _ => thinned fun r => r.isDeleted = true

theorem admits_run (store : Store collectionBackend) (call : Call) :
    call.evolution.Admits (call.run store) := by
  cases call with
  | cleanup request withCatalog =>
    exact (store.admits_cleanup request withCatalog).bind fun _ => admits_pure _
  | operation op =>
    cases op with
    | newRecord draft actor =>
      exact (Store.upholds_newRecord draft actor).admits.bind fun _ => admits_pure _
    | create drafts actor => exact (store.admits_create drafts actor).bind fun _ => admits_pure _
    | insert records => exact (store.admits_insert records).bind fun _ => admits_pure _
    | replace records => exact (store.admits_replace records).bind fun _ => admits_pure _
    | remove ids =>
      have removes := store.upholds_remove (p := fun _ => True) ids fun _ _ _ _ _ => trivial
      exact removes.any.bind fun _ => admits_pure _
    | all => exact store.admits_all.bind fun _ => admits_pure _
    | read request => exact (store.admits_read request).bind fun _ => admits_pure _
    | get scope id => exact (store.admits_get? scope id).bind fun _ => admits_pure _
    | count request => exact (store.admits_count request).bind fun _ => admits_pure _
    | update request => exact (store.admits_update request).bind fun _ => admits_pure _
    | delete request => exact (store.admits_delete request).bind fun _ => admits_pure _
    | upsert drafts options =>
      exact (store.admits_upsert options drafts).bind fun _ => admits_pure _
    | bulkUpdate request => exact (store.admits_bulkUpdate request).bind fun _ => admits_pure _
    | bulkDelete request => exact (store.admits_bulkDelete request).bind fun _ => admits_pure _

end Call

/-! ## Runs -/

/-- The memories that calls can lead to, from an empty one. What is done to the catalog meanwhile
does not matter. -/
inductive Reachable (allowed : Call → Prop) : Memory → Prop
  | empty : Reachable allowed .empty
  | run {w : World collectionBackend} {call : Call} (store : Store collectionBackend) :
    Reachable allowed w.storage → allowed call →
      Reachable allowed ((call.run store).result w).2.storage
  | fields {memory : Memory} (fields : CatalogMap) :
    Reachable allowed memory → Reachable allowed { memory with fields := fields }

/-- The records after a call are reachable with any catalog. -/
theorem Reachable.of_run {allowed : Call → Prop} {w : World collectionBackend} {call : Call}
    (h : Reachable allowed w.storage) (hcall : allowed call) (store : Store collectionBackend)
    {records : Collection} (hrun : ((call.run store).result w).2.records = records)
    (fields : CatalogMap) : Reachable allowed ⟨records, fields⟩ := by
  subst hrun
  exact (h.run store hcall).fields fields

theorem Reachable.wellFormed {allowed : Call → Prop} {memory : Memory}
    (h : Reachable allowed memory) : memory.records.WellFormed := by
  induction h with
  | empty => exact wellFormed_nil
  | @run w call store _ _ ih => exact (call.admits_run store w ih trivial).1
  | fields _ _ ih => exact ih

end RecordStore
