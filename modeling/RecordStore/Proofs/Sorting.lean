import RecordStore.Proofs.Pages
import RecordStore.Proofs.Sql.Order
import RecordStore.Proofs.Sql.Statement
import RecordStore.Proofs.Value.Reader

/-!
# The backends sort alike

Both backends sort what they find by one strict order, so the sequence in which the rows were inserted
does not matter (`Collection.rows_find_eq`). Hence they find the same records in the same
sequence (`SortKey.find_memory_table`), as far as both compare records alike, SQL accepts the order
and the payloads can be read back from their texts (`Record.mapM_ofRow`); there are records and orders
with which it is otherwise (`SortKey.find_memory_table_apart`).
-/

namespace RecordStore

/-! ## Slices -/

/-- A slice whose numbers are not negative when signed 64 bits are read. -/
def Slice.IsSigned (slice : Slice) : Prop := slice.skip < 2 ^ 63 ∧ slice.limit < 2 ^ 63

theorem Slice.IsSigned.rows_eq_of {α : Type} {slice : Slice} (h : slice.IsSigned)
    (items : List α) : slice.rows items = slice.of items := by
  have skip : parameter slice.skip = slice.skip := Int64.toInt_ofNat_of_lt h.1
  have limit : parameter slice.limit = slice.limit := Int64.toInt_ofNat_of_lt h.2
  have not_neg : ¬ (slice.limit : Int) < 0 := by omega
  rw [rows, Sql.limited, skip, limit, if_neg not_neg, Int.toNat_natCast, Int.toNat_natCast, of]

theorem Slice.mem_of_mem_rows {α : Type} {slice : Slice} {items : List α} {a : α}
    (h : a ∈ slice.rows items) : a ∈ items := by
  unfold rows Sql.limited at h
  split at h
  · exact List.mem_of_mem_drop h
  · exact List.mem_of_mem_drop (List.mem_of_mem_take h)

theorem Rows.mem_of_mem_find {rows : Rows} {condition : Sql.Condition} {keys : List SortKey}
    {slice : Option Slice} {r : Record} (h : r ∈ rows.find condition keys slice) : r ∈ rows := by
  have sorted : r ∈ (rows.filter condition.selects).mergeSort
      fun a b => SortKey.compareRows keys a b != .gt := by
    cases slice with
    | none => exact h
    | some slice => exact Slice.mem_of_mem_rows h
  exact List.mem_of_mem_filter (List.mem_mergeSort.1 sorted)

/-! ## Sorting -/

theorem mergeSort_congr {α : Type} {le le' : α → α → Bool} {items : List α}
    (h : ∀ a ∈ items, ∀ b ∈ items, le a b = le' a b) : items.mergeSort le = items.mergeSort le' := by
  have mapped := List.map_mergeSort (f := id) h
  rwa [List.map_id, List.map_id] at mapped

namespace Collection

variable {records : Collection} {clause : Clause} {keys : List SortKey}

/-- Records with different ids are sorted in the same way in whichever sequence they come. -/
theorem mergeSort_eq_of_perm (hid : SortKey.HaveId keys) {found listed : List Record}
    (hperm : listed.Perm found) (hdistinct : found.Pairwise fun a b => a.id ≠ b.id) :
    listed.mergeSort (precedes (SortKey.documentOrder keys)) =
      found.mergeSort (precedes (SortKey.documentOrder keys)) := by
  have distinct : listed.Pairwise fun a b => a.id ≠ b.id :=
    hperm.symm.pairwise hdistinct Ne.symm
  have same : (listed.mergeSort (precedes (SortKey.documentOrder keys))).Perm
      (found.mergeSort (precedes (SortKey.documentOrder keys))) :=
    ((List.mergeSort_perm listed _).trans hperm).trans (List.mergeSort_perm found _).symm
  refine List.Perm.eq_of_pairwise ?_ (pairwise_isBefore hid distinct)
    (pairwise_isBefore hid hdistinct) same
  exact fun a b _ _ hab hba => absurd hba hab.asymm

/-- Rows that are the records of a collection are found in the sequence in which the collection finds
them, if the condition of the clause selects the same records, and both compare them alike. -/
theorem rows_find_eq (h : records.WellFormed) {rows : Rows}
    (hrows : rows.Perm (Keyed.values records))
    (hselects : ∀ r, records.Stores r → clause.condition.selects r = clause.holds r)
    (hid : SortKey.HaveId keys)
    (hcompare : ∀ a b, records.Stores a → records.Stores b → SortKey.compareRows keys a b =
      Document.compareBy (SortKey.documentOrder keys) a.toValue b.toValue)
    {slice : Option Slice} (hslice : ∀ s, slice = some s → s.IsSigned) :
    ∃ found, find clause.document (SortKey.documentOrder keys) slice records = .ok found ∧
      rows.find clause.condition keys slice = found := by
  have stored : ∀ r ∈ rows, records.Stores r := fun r hr => h.mem_values_iff.1 (hrows.mem_iff.1 hr)
  have selected : rows.filter clause.condition.selects = rows.filter fun r => clause.holds r :=
    List.filter_congr fun r hr => hselects r (stored r hr)
  have compared : (rows.filter fun r => clause.holds r).mergeSort
      (fun a b => SortKey.compareRows keys a b != .gt) =
        (rows.filter fun r => clause.holds r).mergeSort (precedes (SortKey.documentOrder keys)) :=
    mergeSort_congr fun a ha b hb => by
      rw [hcompare a b (stored a (List.mem_filter.1 ha).1) (stored b (List.mem_filter.1 hb).1)]
      rfl
  have distinct : (passing (fun r => clause.holds r) records).Pairwise fun a b => a.id ≠ b.id :=
    (h.pairwise_values.imp Std.ne_of_lt).filter _
  rw [find, select_document]
  refine ⟨_, rfl, ?_⟩
  unfold Rows.find
  rw [selected, compared, mergeSort_eq_of_perm hid (hrows.filter _) distinct]
  cases slice with
  | none => rfl
  | some slice => exact (hslice slice rfl).rows_eq_of _

end Collection

/-! ## Rows -/

namespace Record

/-- A record whose payload is as it is read back from its text. -/
def reread (r : Record) : Record := { r with payload := r.payload.reread }

theorem ofRow_eq {r : Record} (hcanonical : r.payload.Canonical)
    (hnumbers : r.payload.HasStoredNumbers) :
    ofRow r = if r.payload.depth ≤ Value.maxDepth then .ok r.reread
      else .error (.serialization "payload cannot be read") := by
  rw [ofRow, Value.read?_render hcanonical hnumbers]
  by_cases hdepth : r.payload.depth ≤ Value.maxDepth
  · rw [if_pos hdepth, if_pos hdepth]
    rfl
  · rw [if_neg hdepth, if_neg hdepth]

/-- Rows are read unless the payload of one of them has too many levels. -/
theorem mapM_ofRow {rows : List Record} (hcanonical : ∀ r ∈ rows, r.payload.Canonical)
    (hnumbers : ∀ r ∈ rows, r.payload.HasStoredNumbers) :
    rows.mapM ofRow = if ∀ r ∈ rows, r.payload.depth ≤ Value.maxDepth then .ok (rows.map reread)
      else .error (.serialization "payload cannot be read") := by
  induction rows with
  | nil => rfl
  | cons r rest ih =>
    obtain ⟨canonical, canonical_rest⟩ := List.forall_mem_cons.1 hcanonical
    obtain ⟨numbers, numbers_rest⟩ := List.forall_mem_cons.1 hnumbers
    rw [List.mapM_cons, ofRow_eq canonical numbers, ih canonical_rest numbers_rest]
    simp only [List.forall_mem_cons]
    by_cases hdepth : r.payload.depth ≤ Value.maxDepth
    · by_cases hrest : ∀ r ∈ rest, r.payload.depth ≤ Value.maxDepth
      · rw [if_pos hdepth, if_pos hrest, if_pos ⟨hdepth, hrest⟩]
        rfl
      · rw [if_pos hdepth, if_neg hrest, if_neg (not_and_of_not_right _ hrest)]
        rfl
    · rw [if_neg hdepth, if_neg (not_and_of_not_left _ hdepth)]
      rfl

end Record

/-! ## Finding -/

section

variable (clause : Clause) (keys : List SortKey) (slice : Option Slice)

theorem collectionBackend_find (memory : Memory) :
    (collectionBackend.find () clause keys slice).result memory =
      (Collection.find clause.document (SortKey.documentOrder keys) slice memory.records, memory) :=
  rfl

variable {clause keys} {db : Database} {connection : Connection}
  (hconnection : db.refusal? connection = none)

include hconnection

theorem tableBackend_find (hruns : clause.condition.Runs db.tables db.rows)
    (hkeys : ∀ key ∈ keys, ∀ row ∈ db.rows, key.target.term.fails ⟨row, []⟩ = false)
    (hlength : keys.length ≤ Sql.Statement.maxKeys) :
    (tableBackend.find connection clause keys slice).result db =
      ((db.rows.find clause.condition keys slice).mapM Record.ofRow, db) := by
  show (Database.find connection clause.condition keys slice).result db = _
  rw [Database.find, Effect.result_bind, Database.result_run hconnection
    (Sql.Statement.refusal?_finding hruns hkeys hlength slice)]
  rfl

theorem tableBackend_find_of_lt (hlength : Sql.Statement.maxKeys < keys.length) :
    (tableBackend.find connection clause keys slice).result db =
      (.error (.backend "statement too large"), db) := by
  show (Database.find connection clause.condition keys slice).result db = _
  rw [Database.find, Effect.result_bind, Database.result_run_refused hconnection
    (Sql.Statement.refusal?_finding_of_lt hlength slice db.rows)]

end

/-! ## Orders that both backends keep -/

/-- A target whose path has only names can be looked at in a record that can be sorted by it. -/
theorem Record.IsSortableBy.fails_eq_false {r : Record} {targets : List SortTarget}
    (h : r.IsSortableBy targets) {target : SortTarget} (hmem : target ∈ targets)
    (hportable : target.IsPortable) : target.term.fails ⟨r, []⟩ = false := by
  cases target with
  | column target => rfl
  | payload path =>
    have shallow : Sql.isTooDeep r.payload = false :=
      decide_eq_false (Nat.not_lt.2 (h.depth path hmem))
    have no_nul : ∀ segment ∈ path.segments, Sql.holdsNul segment = false := by
      intro segment hsegment
      have name := hportable segment hsegment
      cases segment with
      | key name' => simpa [Sql.holdsNul] using Text.IsPrintable.no_nul name.printable
      | _ => exact name.elim
    have reached := Sql.comesToNul_eq_false no_nul r.payload
    show (Sql.isTooDeep r.payload || Sql.comesToNul (path.segments.map Sql.readSegment) r.payload) = false
    rw [shallow, reached]
    rfl

/-- The order that a field asks for again and again. -/
theorem SortKey.ofItems_replicate {item : SortItem} {key : SortKey} (h : resolve item = .ok key)
    (hid : key.target ≠ .column .id) (n : Nat) :
    ofItems (List.replicate (n + 1) item) = .ok (List.replicate (n + 1) key ++ [byId]) := by
  have each : (List.replicate (n + 1) item).mapM resolve = .ok (List.replicate (n + 1) key) := by
    rw [mapM_ok (g := fun _ => key) fun item hitem => List.eq_of_mem_replicate hitem ▸ h,
      List.map_replicate]
  have without : ((List.replicate (n + 1) key).any fun key => key.target = .column .id) = false := by
    simpa using hid
  have begun : (List.replicate (n + 1) key).isEmpty = false := rfl
  rw [ofItems, each, ok_bind, complete, begun]
  simp only [Bool.false_eq_true, if_false, without]
  rfl

/-- If a database has the records of a collection as its rows, both backends find the same records in
the same sequence, in any order by keys that mean the same to both, but the table backend fails if it
cannot read the payload of one that it has found. -/
theorem SortKey.find_memory_table {records : Collection} (h : records.WellFormed)
    (fields : CatalogMap) {db : Database} (hrows : db.rows.Perm (Keyed.values records))
    {connection : Connection} (hconnection : db.refusal? connection = none) {clause : Clause}
    (hruns : clause.condition.Runs db.tables db.rows)
    (hselects : ∀ r, records.Stores r →
      Collection.satisfies clause.document r = .ok (clause.condition.selects r))
    {items : List SortItem} {keys : List SortKey} (hkeys : ofItems items = .ok keys)
    (hportable : ∀ key ∈ keys, key.target.IsPortable)
    (hlength : keys.length ≤ Sql.Statement.maxKeys)
    (hsortable : ∀ r, records.Stores r → r.IsSortableBy (keys.map SortKey.target))
    (hnumbers : ∀ r, records.Stores r → r.payload.HasStoredNumbers)
    {slice : Option Slice} (hslice : ∀ s, slice = some s → s.IsSigned) :
    ∃ found,
      (collectionBackend.find () clause keys slice).result ⟨records, fields⟩ =
        (.ok found, ⟨records, fields⟩) ∧
      (tableBackend.find connection clause keys slice).result db =
        (if ∀ r ∈ found, r.payload.depth ≤ Value.maxDepth then .ok (found.map Record.reread)
          else .error (.serialization "payload cannot be read"), db) := by
  have stored : ∀ r ∈ db.rows, records.Stores r := fun r hr => h.mem_values_iff.1 (hrows.mem_iff.1 hr)
  have selects : ∀ r, records.Stores r → clause.condition.selects r = clause.holds r := by
    intro r hr
    have selected := hselects r hr
    rw [Collection.satisfies, Document.satisfies_clause] at selected
    exact (Except.ok.inj selected).symm
  obtain ⟨found, hmemory, htable⟩ := Collection.rows_find_eq h hrows selects
    (haveId_ofItems hkeys) (fun a b ha hb => Record.compareRows_eq (hsortable a ha) (hsortable b hb)
      hportable (isReadable_of_ofItems hkeys)) hslice
  refine ⟨found, ?_, ?_⟩
  · rw [collectionBackend_find, hmemory]
    rfl
  · have computed : ∀ key ∈ keys, ∀ row ∈ db.rows, key.target.term.fails ⟨row, []⟩ = false :=
      fun key hkey row hrow => (hsortable row (stored row hrow)).fails_eq_false
        (List.mem_map_of_mem hkey) (hportable key hkey)
    have stored_found : ∀ r ∈ found, records.Stores r :=
      fun r hr => stored r (Rows.mem_of_mem_find (htable ▸ hr))
    rw [tableBackend_find slice hconnection hruns computed hlength, htable, Record.mapM_ofRow
      (fun r hr => (hsortable r (stored_found r hr)).canonical)
      (fun r hr => hnumbers r (stored_found r hr))]

/-- A text and an integer, the row of the last record inserted first. -/
theorem SortKey.find_memory_table_mixed :
    let holding := fun id payload => { (default : Record) with id := id, payload := payload }
    let a := holding "a" (.object [("k", .object [("n", .int 2), ("n\x00", .null)])])
    let b := holding "b" (.object [("k", .object [("n", .string "x")])])
    let keys : List SortKey :=
      [⟨.payload ⟨[.key "k", .key "n"]⟩, .desc⟩, ⟨.column .shouldIndex, .asc⟩, byId]
    let memory : Memory := ⟨[("a", a), ("b", b)], []⟩
    let db := { Database.empty "records" "fields" with rows := [b, a] }
    ofItems [⟨"k.n", .desc⟩, ⟨"shouldIndex", .asc⟩] = .ok keys ∧
      ∃ found,
        (collectionBackend.find () .always keys (some ⟨0, 1⟩)).result memory = (.ok found, memory) ∧
        (tableBackend.find .direct .always keys (some ⟨0, 1⟩)).result db =
          (if ∀ r ∈ found, r.payload.depth ≤ Value.maxDepth then .ok (found.map Record.reread)
            else .error (.serialization "payload cannot be read"), db) := by
  intro holding a b keys memory db
  have ordered : ofItems [⟨"k.n", .desc⟩, ⟨"shouldIndex", .asc⟩] = .ok keys := rfl
  have wellFormed : memory.records.WellFormed := by
    refine ⟨List.pairwise_pair.2 (by decide), ?_⟩
    simp [memory, a, b, holding]
  have names : ∀ segment ∈ [Segment.key "k", .key "n"], segment.IsName := by
    have k : Segment.IsNameKey "k" := ⟨by decide, by decide, rfl⟩
    have n : Segment.IsNameKey "n" := ⟨by decide, by decide, rfl⟩
    simp [Segment.IsName, k, n]
  have portable : ∀ key ∈ keys, key.target.IsPortable := by
    simp only [keys, List.forall_mem_cons, List.not_mem_nil, false_imp_iff, implies_true, and_true]
    refine ⟨names, ?_, ?_⟩
    · show Column.shouldIndex ≠ .fieldsToIndex
      decide
    · show Column.id ≠ .fieldsToIndex
      decide
  have only : ∀ path, .payload path ∈ keys.map SortKey.target → path = ⟨[.key "k", .key "n"]⟩ := by
    simp [keys, byId]
  have sortable_holding : ∀ (id : String) {payload v : Value}, payload.Canonical →
      payload.depth ≤ Sql.maxLevels → Path.follow? [.key "k", .key "n"] payload = some v → v.IsSortable →
      Path.KeysEnd payload [.key "k", .key "n"] →
      (holding id payload).IsSortableBy (keys.map SortKey.target) := by
    intro id payload v hcanonical hdepth hfound hv hends
    have created : (default : Record).createdAt.toInt.natAbs ≤ 2 ^ 53 := by decide
    have updated : (default : Record).updatedAt.toInt.natAbs ≤ 2 ^ 53 := by decide
    have live : (default : Record).deletedAt = none := rfl
    have instants : (holding id payload).HasExactInstants :=
      ⟨created, updated, fun t ht => absurd (live.symm.trans ht).symm (Option.some_ne_none t)⟩
    refine ⟨hcanonical, instants, fun _ _ => hdepth, fun path hpath w hw => ?_, fun path hpath => ?_⟩
    · obtain rfl := only path hpath
      exact Option.some.inj (hfound.symm.trans hw) ▸ hv
    · obtain rfl := only path hpath
      exact hends
  have stored : ∀ r, memory.records.Stores r → r = a ∨ r = b := by
    intro r hr
    simpa [memory, Keyed.values] using wellFormed.mem_values_iff.2 hr
  have numbers : ∀ r, memory.records.Stores r → r.payload.HasStoredNumbers := by
    intro r hr
    have two : (Number.int 2).IsStored := ⟨by decide, by decide⟩
    rcases stored r hr with rfl | rfl <;>
      simp [a, b, holding, Value.int, Value.HasStoredNumbers, Value.Every, Value.EveryField, two]
  have sortable : ∀ r, memory.records.Stores r → r.IsSortableBy (keys.map SortKey.target) := by
    intro r hr
    rcases stored r hr with rfl | rfl
    · have inner : Keyed.Sorted [("n", Value.int 2), ("n\x00", .null)] :=
        List.pairwise_pair.2 (by decide)
      refine sortable_holding "a" ?_ (by decide) rfl (by decide : (2 : Int).natAbs ≤ 2 ^ 53) ?_
      · exact ⟨List.pairwise_singleton _ _, ⟨inner, trivial, trivial, trivial⟩, trivial⟩
      · simp [Path.KeysEnd, Value.KeysEndAt, Segment.text, Keyed.get?, Path.step?, Value.field?]
    · refine sortable_holding "b" ?_ (by decide) rfl (by decide : '\x00' ∉ "x".toList) ?_
      · exact ⟨List.pairwise_singleton _ _, ⟨List.pairwise_singleton _ _, trivial, trivial⟩, trivial⟩
      · simp [Path.KeysEnd, Value.KeysEndAt, Segment.text, Keyed.get?, Path.step?, Value.field?]
  have signed : ∀ s, some ⟨0, 1⟩ = some s → Slice.IsSigned s := by
    rintro s ⟨⟩
    exact ⟨by decide, by decide⟩
  exact ⟨ordered, find_memory_table wellFormed [] (.swap a b []) rfl (Sql.runs_always db.tables db.rows)
    (fun r _ => rfl) ordered portable (by decide) sortable numbers signed⟩

/-- SQL takes what a key holds behind a NUL for nothing, where documents miss the field, and does not
accept an order by more than 2000 keys, the id among them. It does not look at a payload with more
than 1000 levels, and one with more than 127 that it has found is not read. -/
theorem SortKey.find_memory_table_apart :
    let item : SortItem := ⟨"k", .asc⟩
    let path : Path := ⟨[.key "k"]⟩
    let key : SortKey := ⟨.payload path, .asc⟩
    let many := List.replicate 2000 key ++ [byId]
    let a := { (default : Record) with id := "a", payload := .object [("k\x00", .int 5)] }
    let b := { (default : Record) with id := "b", payload := .object [("k", .int 3)] }
    let memory : Memory := ⟨[("a", a), ("b", b)], []⟩
    let db := { Database.empty "records" "fields" with rows := [b, a] }
    let deep := fun n => { (default : Record) with payload := .object [("a", .nested n)] }
    (key.target.IsPortable ∧ path.get? a.payload = none ∧ path.get? b.payload = some (.int 3)) ∧
      (ofItems [item] = .ok [key, byId] ∧
        (collectionBackend.find () .always [key, byId] none).result memory = (.ok [a, b], memory) ∧
        (tableBackend.find .direct .always [key, byId] none).result db = (.ok [b, a], db)) ∧
      ofItems (List.replicate 2000 item) = .ok many ∧
      (∃ found, (collectionBackend.find () .always many none).result memory = (.ok found, memory)) ∧
      (tableBackend.find .direct .always many none).result db =
        (.error (.backend "statement too large"), db) ∧
      (((collectionBackend.find () .always [key, byId] none).result ⟨[("", deep 127)], []⟩).1 =
          .ok [deep 127] ∧
        ((tableBackend.find .direct .always [key, byId] none).result
            { db with rows := [deep 127] }).1 =
          .error (.serialization "payload cannot be read")) ∧
      ((collectionBackend.find () .always [key, byId] none).result ⟨[("", deep 1000)], []⟩).1 =
        .ok [deep 1000] ∧
      ((tableBackend.find .direct .always [key, byId] none).result { db with rows := [deep 1000] }).1 =
        .error (.backend "row cannot be looked at") := by
  intro item path key many a b memory db deep
  have name : Segment.IsNameKey "k" := ⟨by decide, by decide, rfl⟩
  have resolved : resolve item = .ok key := by decide +kernel
  have single : ∀ n, ((collectionBackend.find () .always [key, byId] none).result
      ⟨[("", deep n)], []⟩).1 = .ok [deep n] := by
    intro n
    have found : Collection.find Clause.always.document (documentOrder [key, byId]) none
        [("", deep n)] = .ok ([deep n].mergeSort (Collection.precedes (documentOrder [key, byId]))) :=
      rfl
    rw [collectionBackend_find, found, List.mergeSort_singleton]
  refine ⟨⟨?_, rfl, rfl⟩, ⟨by decide +kernel, ?_, ?_⟩, ?_, ⟨_, rfl⟩, ?_, ⟨single 127, ?_⟩,
    single 1000, ?_⟩
  · simpa [key, path, SortTarget.IsPortable, Segment.IsName] using name
  · have sorted : [a, b].Pairwise fun a b =>
        Collection.precedes (documentOrder [key, byId]) a b = true := by decide +kernel
    have found : Collection.find Clause.always.document (documentOrder [key, byId]) none
        memory.records = .ok ([a, b].mergeSort (Collection.precedes (documentOrder [key, byId]))) :=
      rfl
    rw [collectionBackend_find, found, List.mergeSort_of_pairwise sorted]
  · have sorted : [b, a].Pairwise fun a b =>
        (compareRows [key, byId] a b != .gt) = true := by decide +kernel
    have found : db.rows.find Clause.always.condition [key, byId] none =
        ([b, a].mergeSort fun a b => compareRows [key, byId] a b != .gt) := rfl
    have connected : db.refusal? .direct = none := rfl
    have computed : ∀ key' ∈ [key, byId], ∀ row ∈ db.rows,
        key'.target.term.fails ⟨row, []⟩ = false := by decide +kernel
    have read : [b, a].mapM Record.ofRow = .ok [b, a] := by decide +kernel
    rw [tableBackend_find none connected (Sql.runs_always db.tables db.rows) computed (by decide),
      found, List.mergeSort_of_pairwise sorted, read]
    rfl
  · have other : key.target ≠ .column .id := by
      intro h
      cases h
    exact ofItems_replicate resolved other 1999
  · have longer : Sql.Statement.maxKeys < many.length := by
      rw [List.length_append, List.length_replicate]
      decide
    have connected : db.refusal? .direct = none := rfl
    exact tableBackend_find_of_lt none connected longer
  · have found : Rows.find Clause.always.condition [key, byId] none [deep 127] =
        [deep 127].mergeSort fun a b => compareRows [key, byId] a b != .gt := rfl
    have connected : { db with rows := [deep 127] }.refusal? .direct = none := rfl
    have computed : ∀ key' ∈ [key, byId], ∀ row ∈ [deep 127],
        key'.target.term.fails ⟨row, []⟩ = false := by decide +kernel
    have canonical : (deep 127).payload.Canonical :=
      ⟨List.pairwise_singleton _ _, Value.canonical_nested 127, trivial⟩
    have numbers : (deep 127).payload.HasStoredNumbers :=
      ⟨fun _ h => (by cases h), Value.hasStoredNumbers_nested 127, trivial⟩
    have deeper : ¬ ∀ r ∈ [deep 127], r.payload.depth ≤ Value.maxDepth := by decide +kernel
    rw [tableBackend_find none connected (Sql.runs_always _ _) computed (by decide), found,
      List.mergeSort_singleton, Record.mapM_ofRow (by simpa using canonical) (by simpa using numbers),
      if_neg deeper]
  · decide +kernel

end RecordStore
