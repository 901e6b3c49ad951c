import RecordStore.Proofs.Backend.Collection
import RecordStore.Proofs.Effect
import RecordStore.Store

/-!
# The store on a memory

What the basic operations of a store do to a world whose backend is a memory: one equation each.
Reading leaves the world as it is; writing changes its records and nothing else.
-/

namespace RecordStore

open Collection

/-! ## Worlds -/

namespace World

/-- The records that a world keeps. -/
def records (w : World collectionBackend) : Collection := Memory.records w.storage

/-- A world with other records. -/
def withRecords (w : World collectionBackend) (records : Collection) : World collectionBackend :=
  { w with storage := { (w.storage : Memory) with records := records } }

/-- The catalog that a world keeps. -/
def fields (w : World collectionBackend) : CatalogMap := Memory.fields w.storage

/-- A world with another catalog. -/
def withFields (w : World collectionBackend) (fields : CatalogMap) : World collectionBackend :=
  { w with storage := { (w.storage : Memory) with fields := fields } }

variable (w : World collectionBackend) (records other : Collection)

@[simp]
theorem records_withRecords : (w.withRecords records).records = records := rfl

end World

/-! ## Ids -/

namespace IdSource

/-- The id that a source gives after a number of others. -/
def nth : IdSource → Nat → String
  | source, 0 => source.take.1
  | source, n + 1 => source.take.2.nth n

/-- A source after a number of ids. -/
def drop : IdSource → Nat → IdSource
  | source, 0 => source
  | source, n + 1 => source.take.2.drop n

/-- A source becomes another one by giving ids. -/
def Reaches (source last : IdSource) : Prop := ∃ n, source.drop n = last

/-- A source gives an id before it becomes another one. -/
def Gives (source last : IdSource) (id : String) : Prop :=
  ∃ n, (source.drop (n + 1)).Reaches last ∧ source.nth n = id

variable {source middle last : IdSource} {id : String}

theorem drop_add (source : IdSource) (n m : Nat) :
    source.drop (n + m) = (source.drop n).drop m := by
  induction n generalizing source with
  | zero => rw [Nat.zero_add]; rfl
  | succ n ih => rw [Nat.succ_add]; exact ih source.take.2

theorem nth_add (source : IdSource) (n m : Nat) :
    source.nth (n + m) = (source.drop n).nth m := by
  induction n generalizing source with
  | zero => rw [Nat.zero_add]; rfl
  | succ n ih => rw [Nat.succ_add]; exact ih source.take.2

theorem Reaches.refl (source : IdSource) : source.Reaches source := ⟨0, rfl⟩

theorem Reaches.trans (h : source.Reaches middle) (h' : middle.Reaches last) :
    source.Reaches last := by
  obtain ⟨n, rfl⟩ := h
  obtain ⟨m, rfl⟩ := h'
  exact ⟨n + m, source.drop_add n m⟩

theorem reaches_take (source : IdSource) : source.Reaches source.take.2 := ⟨1, rfl⟩

theorem gives_take (h : source.take.2.Reaches last) : source.Gives last (source.nth 0) := ⟨0, h, rfl⟩

theorem Gives.of_reaches (h : source.Reaches middle) (hid : middle.Gives last id) :
    source.Gives last id := by
  obtain ⟨n, rfl⟩ := h
  obtain ⟨m, hreaches, rfl⟩ := hid
  refine ⟨n + m, ?_, source.nth_add n m⟩
  rwa [Nat.add_assoc, source.drop_add]

end IdSource

/-! ## Operations -/

theorem Action.result_freshId (w : World collectionBackend) :
    Action.freshId.result w = (.ok (w.ids.nth 0), { w with ids := w.ids.take.2 }) := rfl

@[simp]
theorem Action.result_now (w : World collectionBackend) :
    Action.now.result w = (.ok w.clock, w) := rfl

namespace Store

variable (store : Store collectionBackend) (w : World collectionBackend)

theorem result_insert (batch : List Record) :
    (store.insert batch).result w = match w.records.insert batch with
      | .ok records => (.ok (), w.withRecords records)
      | .error e => (.error e, w) := by
  have written : (store.insert batch).result w =
      let inserted : Except StoreError Unit × Collection := match w.records.insert batch with
        | .ok records => (.ok (), records)
        | .error e => (.error e, w.records)
      (inserted.1, w.withRecords inserted.2) := rfl
  rw [written]
  cases w.records.insert batch <;> rfl

theorem result_find (clause : Clause) (keys : List SortKey) (slice : Option Slice) :
    (store.find clause keys slice).result w =
      (Collection.find clause.document (SortKey.documentOrder keys) slice w.records, w) := rfl

theorem result_countClause (clause : Clause) :
    (store.countClause clause).result w =
      (.ok (passing (fun r => clause.holds r) w.records).length, w) := by
  have read : (store.countClause clause).result w =
      (Collection.count clause.document w.records, w) := rfl
  rw [read, count_document]
  rfl

theorem result_replace (replacements : List Record) :
    (store.replace replacements).result w =
      (.ok (Collection.replace replacements w.records).1,
        w.withRecords (Collection.replace replacements w.records).2) := rfl

theorem result_remove (ids : List String) :
    (store.remove ids).result w =
      (.ok (Collection.remove ids w.records).1,
        w.withRecords (Collection.remove ids w.records).2) := rfl

theorem result_markDeleted (clause : Clause) (mark : DeletionMark) :
    (store.markDeleted clause mark).result w =
      ((Collection.markDeleted clause.document mark w.records).1,
        w.withRecords (Collection.markDeleted clause.document mark w.records).2) := rfl

end Store

/-! ## Clauses -/

theorem Scope.holds_clause (scope : Scope) (includeDeleted : Bool) (r : Record) :
    (scope.clause includeDeleted).holds r =
      (r.appId == scope.appId && (r.tag == scope.tag && (includeDeleted || !r.isDeleted))) := by
  rw [Scope.clause, Clause.holds_all, List.cons_append, List.cons_append, List.all_cons,
    List.all_cons, Clause.holds_column_string rfl, Clause.holds_column_string rfl]
  cases includeDeleted with
  | true => rfl
  | false =>
    have live : (Clause.isNull .deletedAt true).holds r = !r.isDeleted := by
      rw [Clause.holds_isNull_deletedAt, Bool.bne_true]
    simp [live]

/-- The clause of a partition asks for the records of the partition, in it the live ones only unless
the deleted ones are included. -/
theorem Partition.holds_clause (p : Partition) (includeDeleted : Bool) (r : Record) :
    (p.clause includeDeleted).holds r =
      (decide (Partition.ofRecord r = p) && (includeDeleted || !r.isDeleted)) := by
  obtain ⟨appId, groupId, tag⟩ := p
  rw [clause, Clause.holds_all, List.all_cons, List.all_cons, List.all_nil, Bool.and_true,
    Scope.holds_clause, Clause.holds_column_string rfl, ofRecord, Bool.eq_iff_iff]
  simp only [Bool.and_eq_true, beq_iff_eq, decide_eq_true_eq, mk.injEq]
  constructor
  · rintro ⟨⟨happ, htag, hlive⟩, hgroup⟩
    exact ⟨⟨happ, hgroup, htag⟩, hlive⟩
  · rintro ⟨⟨happ, hgroup, htag⟩, hlive⟩
    exact ⟨⟨happ, htag, hlive⟩, hgroup⟩

end RecordStore
