import RecordStore.Proofs.Catalog.Mirror

/-!
# The two catalogs answer alike

Every call of a catalog is answered by a table as by the catalog in memory that it mirrors, and the
table mirrors the catalog afterwards (`CatalogTable.Mirrors.run`). Hence no sequence of calls tells
the two catalogs apart (`CatalogCall.run_memory_table`).
-/

namespace RecordStore

/-! ## Deleting rows of a map -/

namespace CatalogMap

variable {map : CatalogMap} {p q : Partition} {k : String} {rows : List (String × FieldRow)}

/-- To delete the rows at some paths, one after the other, takes out all of them at once. -/
theorem foldl_deleteField (h : Keyed.Sorted rows) (paths : List String) (n : Nat) :
    paths.foldl deleteField (n, rows) =
      (n + rows.countP (fun entry => entry.1 ∈ paths), rows.filter fun entry => entry.1 ∉ paths) := by
  have sweeps : paths.foldl deleteField (n, rows) =
      (paths.map fun path (entry : String × FieldRow) => decide (entry.1 = path)).foldl sweep
        (n, rows) := by
    induction paths generalizing n rows with
    | nil => rfl
    | cons path rest ih =>
      have step : deleteField (n, rows) path = sweep (n, rows) fun entry => entry.1 = path := by
        unfold deleteField sweep
        simp only [Keyed.countP_key h, ← decide_not, ← Keyed.erase_eq_filter h]
        by_cases hpath : Keyed.contains path rows = true
        · rw [if_pos hpath, if_pos hpath]
        · have same : Keyed.erase path rows = rows := by
            rw [Keyed.contains_iff_mem_keys] at hpath
            rw [Keyed.erase_eq_filter h, List.filter_eq_self]
            intro entry hentry
            rw [decide_eq_true_eq]
            rintro rfl
            exact hpath (List.mem_map_of_mem hentry)
          rw [if_neg hpath, if_neg hpath, same, Nat.add_zero]
      rw [List.foldl_cons, List.map_cons, List.foldl_cons, step]
      exact ih (h.sublist List.filter_sublist) _
  have any : ∀ entry : String × FieldRow,
      ((paths.map fun path (entry : String × FieldRow) => decide (entry.1 = path)).any
        fun test => test entry) = decide (entry.1 ∈ paths) := by
    intro entry
    rw [Bool.eq_iff_iff, List.any_map, List.any_eq_true, decide_eq_true_eq]
    simp
  rw [sweeps, foldl_sweep]
  simp only [any, decide_not]

/-- What deleting does to a partition that has rows, and to one that has none. -/
theorem WellFormed.deleteFields (h : map.WellFormed) (p : Partition) (paths : List String) :
    (deleteFields p paths map).1 = (map.rowsOf p).countP (fun entry => entry.1 ∈ paths) ∧
      WellFormed (deleteFields p paths map).2 ∧
      ∀ q, rowsOf q (CatalogMap.deleteFields p paths map).2 =
        if q = p then (map.rowsOf p).filter fun entry => entry.1 ∉ paths else map.rowsOf q := by
  unfold CatalogMap.deleteFields
  cases hrows : Keyed.get? p map with
  | none =>
    have empty : map.rowsOf p = [] := by rw [rowsOf, hrows, Option.getD_none]
    refine ⟨by rw [empty]; rfl, h, fun q => ?_⟩
    show map.rowsOf q = _
    split
    · next hq =>
      rw [hq, empty]
      rfl
    · rfl
  | some rows =>
    obtain ⟨rfl, -⟩ := h.get?_eq_some_iff.1 hrows
    have sorted := h.sorted_rowsOf p
    simp only [foldl_deleteField sorted, Nat.zero_add]
    split
    · next hempty =>
      refine ⟨rfl, h.erase p, fun q => ?_⟩
      rw [rowsOf_erase h.sorted, List.isEmpty_iff.1 hempty]
    · next hleft =>
      refine ⟨rfl, h.insert ⟨sorted.sublist List.filter_sublist, ?_, ?_⟩,
        fun q => rowsOf_insert map p q _⟩
      · exact fun entry hentry => h.inPlace.rowsOf p entry (List.mem_filter.1 hentry).1
      · rwa [List.isEmpty_iff] at hleft

theorem WellFormed.mem_keys_iff (h : map.WellFormed) :
    p ∈ Keyed.keys map ↔ ∃ k row, map.row? p k = some row := by
  rw [← Keyed.contains_iff_mem_keys, Keyed.contains, Option.isSome_iff_exists]
  constructor
  · rintro ⟨rows, hrows⟩
    obtain ⟨rfl, hnonempty⟩ := h.get?_eq_some_iff.1 hrows
    obtain ⟨entry, hentry⟩ := List.exists_mem_of_ne_nil _ hnonempty
    exact ⟨entry.1, entry.2, (Keyed.mem_iff_get? (h.sorted_rowsOf p)).1 hentry⟩
  · rintro ⟨k, row, hrow⟩
    refine ⟨map.rowsOf p, h.get?_eq_some_iff.2 ⟨rfl, fun hempty => ?_⟩⟩
    rw [row?, hempty] at hrow
    cases hrow

end CatalogMap

/-! ## Deleting rows of a table -/

namespace CatalogTable

variable {table : CatalogTable} {map : CatalogMap}

/-- To delete piece by piece is to delete at once. -/
theorem deleteFields_eq (p : Partition) (paths : List String) (table : CatalogTable) :
    table.deleteFields p paths =
      (table.countP (fun row => row.partition = p ∧ row.path ∈ paths),
        table.filter fun row => ¬(row.partition = p ∧ row.path ∈ paths)) := by
  have sweeps : table.deleteFields p paths = ((pieces maxPaths paths).map
      fun piece (row : StoredRow) => decide (row.partition = p ∧ row.path ∈ piece)).foldl sweep
        (0, table) := by
    unfold deleteFields
    rw [List.foldl_map]
    congr 1
    funext counted piece
    simp [deletePaths, sweep]
  have any : ∀ row : StoredRow, (((pieces maxPaths paths).map
      fun piece (row : StoredRow) => decide (row.partition = p ∧ row.path ∈ piece)).any
        fun test => test row) = decide (row.partition = p ∧ row.path ∈ paths) := by
    intro row
    rw [Bool.eq_iff_iff, List.any_map, List.any_eq_true, decide_eq_true_eq,
      ← exists_mem_pieces maxPaths paths]
    simp only [Function.comp_apply, decide_eq_true_eq]
    tauto
  rw [sweeps, foldl_sweep]
  simp only [any, decide_not, Nat.zero_add]

/-- A table has as many rows of a partition at some paths as the catalog that it mirrors. -/
theorem Mirrors.countP_paths (h : table.Mirrors map.row?) (hmap : map.WellFormed) (p : Partition)
    (paths : List String) :
    table.countP (fun row => row.partition = p ∧ row.path ∈ paths) =
      (map.rowsOf p).countP fun entry => entry.1 ∈ paths := by
  have inPartition : table.countP (fun row => row.partition = p ∧ row.path ∈ paths) =
      (table.inPartition p).countP fun row => row.path ∈ paths := by
    rw [CatalogTable.inPartition, List.countP_filter]
    simp [Bool.and_comm]
  rw [inPartition, (h.perm_inPartition hmap p).countP_eq, Keyed.values, List.map_map,
    List.countP_map]
  apply List.countP_congr
  intro entry hentry
  have path : entry.2.path = entry.1 := (hmap.inPlace.rowsOf p entry hentry).2
  show decide (entry.2.path ∈ paths) = true ↔ decide (entry.1 ∈ paths) = true
  rw [path]

theorem Mirrors.deleteFields (h : table.Mirrors map.row?) (hmap : map.WellFormed) (p : Partition)
    (paths : List String) :
    (table.deleteFields p paths).1 = (map.deleteFields p paths).1 ∧
      (table.deleteFields p paths).2.Mirrors (map.deleteFields p paths).2.row? := by
  obtain ⟨count, wellFormed, rows⟩ := hmap.deleteFields p paths
  have sorted := hmap.sorted_rowsOf p
  rw [deleteFields_eq, count]
  refine ⟨h.countP_paths hmap p paths, ?_⟩
  apply h.filter
  intro q k row
  rw [CatalogMap.row?, rows]
  constructor
  · intro hrow
    split at hrow
    · next hq =>
      rw [← Keyed.mem_iff_get? (sorted.sublist List.filter_sublist), List.mem_filter,
        Keyed.mem_iff_get? sorted] at hrow
      obtain ⟨hrow, hk⟩ := hrow
      obtain ⟨-, rfl⟩ := hmap.row?_eq_some hrow
      exact ⟨hq ▸ hrow, decide_eq_true fun hgone => of_decide_eq_true hk hgone.2⟩
    · next hq =>
      have hp : row.partition = q := (hmap.row?_eq_some hrow).1
      exact ⟨hrow, by simp [StoredRow.ofRow, hp, hq]⟩
  · rintro ⟨hrow, htest⟩
    obtain ⟨rfl, rfl⟩ := hmap.row?_eq_some hrow
    split
    · next hp =>
      rw [← Keyed.mem_iff_get? (sorted.sublist List.filter_sublist), List.mem_filter,
        Keyed.mem_iff_get? sorted]
      refine ⟨hp ▸ hrow, ?_⟩
      simpa [StoredRow.ofRow, hp] using htest
    · exact hrow

theorem Mirrors.deletePartition (h : table.Mirrors map.row?) (hmap : map.WellFormed)
    (p : Partition) :
    (table.deletePartition p).1 = (map.deletePartition p).1 ∧
      (table.deletePartition p).2.Mirrors (map.deletePartition p).2.row? := by
  constructor
  · show (table.inPartition p).length = (map.rowsOf p).length
    rw [(h.perm_inPartition hmap p).length_eq, List.length_map, Keyed.values, List.length_map]
  · apply h.filter
    intro q k row
    show Keyed.get? k (CatalogMap.rowsOf q (Keyed.erase p map)) = some row ↔ _
    rw [CatalogMap.rowsOf_erase hmap.sorted]
    constructor
    · intro hrow
      split at hrow
      · cases hrow
      · next hq =>
        have hp : row.partition = q := (hmap.row?_eq_some hrow).1
        exact ⟨hrow, by simp [StoredRow.ofRow, hp, hq]⟩
    · rintro ⟨hrow, htest⟩
      obtain ⟨rfl, rfl⟩ := hmap.row?_eq_some hrow
      have hne : row.partition ≠ p := of_decide_eq_true htest
      rw [if_neg hne]
      exact hrow

/-! ## Partitions -/

theorem Mirrors.partitions (h : table.Mirrors map.row?) (hmap : map.WellFormed)
    (appId : Option String) : table.partitions appId = map.partitions appId := by
  have keys : ∀ p, p ∈ table.map StoredRow.partition ↔ p ∈ Keyed.keys map := by
    intro p
    rw [hmap.mem_keys_iff, List.mem_map]
    constructor
    · rintro ⟨stored, hstored, rfl⟩
      obtain ⟨q, k, row, hrow, rfl⟩ := (h.mem_iff stored).1 hstored
      obtain ⟨rfl, rfl⟩ := hmap.row?_eq_some hrow
      exact ⟨row.path, row, hrow⟩
    · rintro ⟨k, row, hrow⟩
      exact ⟨.ofRow row, (h.mem_iff _).2 ⟨p, k, row, hrow, rfl⟩, (hmap.row?_eq_some hrow).1⟩
  apply eq_of_pairwise_of_mem_iff (r := fun p q : Partition => p < q)
    fun p q hpq => Std.Asymm.asymm p q hpq
  · exact Keyed.sorted_ofList _
  · exact hmap.sorted.filter _
  · intro p
    unfold CatalogTable.partitions Partition.distinct CatalogMap.partitions
    rw [Keyed.mem_keys_ofList, List.mem_filter, ← keys]
    simp only [Keyed.keys, List.map_map, Function.comp_def, List.map_id', List.mem_filter]

end CatalogTable

/-! ## Calls -/

/-- A call of a catalog, with its arguments. -/
inductive CatalogCall
  | upsert (p : Partition) (ds : List Descriptor) (now : Instant)
  | rows (p : Partition)
  | deleteFields (p : Partition) (paths : List String)
  | deletePartition (p : Partition)
  | partitions (appId : Option String)

/-- What a call is answered with. -/
inductive CatalogAnswer
  | rows (rows : List FieldRow)
  | count (n : Nat)
  | partitions (partitions : List Partition)

namespace CatalogCall

variable {σ : Type}

def run (catalog : Catalog σ) : CatalogCall → Effect σ CatalogAnswer
  | .upsert p ds now => return .rows (← catalog.upsert p ds now)
  | .rows p => return .rows (← catalog.rows p)
  | .deleteFields p paths => return .count (← catalog.deleteFields p paths)
  | .deletePartition p => return .count (← catalog.deletePartition p)
  | .partitions appId => return .partitions (← catalog.partitions appId)

end CatalogCall

variable {table : CatalogTable} {map : CatalogMap}

theorem CatalogTable.Mirrors.result_rows (h : table.Mirrors map.row?) (hmap : map.WellFormed)
    (p : Partition) :
    (tableCatalog.rows p).result table = (.ok (Keyed.values (map.rowsOf p)), table) := by
  show ((table.listed p).mapM StoredRow.read, table) = _
  rw [h.listed hmap, StoredRow.mapM_read]

/-- A call is answered by a table as by the catalog that it mirrors, and leaves it a mirror. -/
theorem CatalogTable.Mirrors.run (h : table.Mirrors map.row?) (hmap : map.WellFormed)
    (call : CatalogCall) :
    ∃ answer, ∃ next : CatalogMap, ∃ next' : CatalogTable,
      (call.run memoryCatalog).result map = (.ok answer, next) ∧
      (call.run tableCatalog).result table = (.ok answer, next') ∧
      next.WellFormed ∧ next'.Mirrors next.row? := by
  cases call with
  | upsert p ds now =>
    obtain ⟨next', hnext', hmirrors⟩ := h.upsert hmap p ds now
    have answered : (tableCatalog.upsert p ds now).result table =
        (.ok (CatalogMap.upsert p ds now map).1, next') := hnext'
    exact ⟨_, _, next', rfl, by rw [CatalogCall.run, Effect.result_bind_ok answered]; rfl,
      hmap.upsert p ds now, hmirrors⟩
  | rows p =>
    exact ⟨_, map, table, rfl,
      by rw [CatalogCall.run, Effect.result_bind_ok (h.result_rows hmap p)]; rfl, hmap, h⟩
  | deleteFields p paths =>
    obtain ⟨count, hmirrors⟩ := h.deleteFields hmap p paths
    have answered : (tableCatalog.deleteFields p paths).result table =
        (.ok (map.deleteFields p paths).1, (table.deleteFields p paths).2) := by
      rw [← count]
      rfl
    exact ⟨_, _, _, rfl, by rw [CatalogCall.run, Effect.result_bind_ok answered]; rfl,
      (hmap.deleteFields p paths).2.1, hmirrors⟩
  | deletePartition p =>
    obtain ⟨count, hmirrors⟩ := h.deletePartition hmap p
    have answered : (tableCatalog.deletePartition p).result table =
        (.ok (map.deletePartition p).1, (table.deletePartition p).2) := by
      rw [← count]
      rfl
    exact ⟨_, _, _, rfl, by rw [CatalogCall.run, Effect.result_bind_ok answered]; rfl,
      hmap.erase p, hmirrors⟩
  | partitions appId =>
    have answered : (tableCatalog.partitions appId).result table =
        (.ok (map.partitions appId), table) := by
      rw [← h.partitions hmap]
      rfl
    exact ⟨_, map, table, rfl, by rw [CatalogCall.run, Effect.result_bind_ok answered]; rfl, hmap, h⟩

/-- A table answers any calls as the catalog that it mirrors does. -/
theorem CatalogTable.Mirrors.mapM_run (h : table.Mirrors map.row?) (hmap : map.WellFormed)
    (calls : List CatalogCall) :
    ∃ answers, ∃ next : CatalogMap, ∃ next' : CatalogTable,
      (calls.mapM (CatalogCall.run memoryCatalog)).result map = (.ok answers, next) ∧
      (calls.mapM (CatalogCall.run tableCatalog)).result table = (.ok answers, next') ∧
      next.WellFormed ∧ next'.Mirrors next.row? := by
  induction calls generalizing map table with
  | nil => exact ⟨[], map, table, rfl, rfl, hmap, h⟩
  | cons call rest ih =>
    obtain ⟨answer, next, next', hanswer, hanswer', hnext, hnext'⟩ := h.run hmap call
    obtain ⟨answers, last, last', hanswers, hanswers', hlast, hlast'⟩ := ih hnext' hnext
    refine ⟨answer :: answers, last, last', ?_, ?_, hlast, hlast'⟩
    · rw [List.mapM_cons, Effect.result_bind_ok hanswer, Effect.result_bind_ok hanswers]
      rfl
    · rw [List.mapM_cons, Effect.result_bind_ok hanswer', Effect.result_bind_ok hanswers']
      rfl

/-- From empty catalogs on, both catalogs answer all calls alike. -/
theorem CatalogCall.run_memory_table (calls : List CatalogCall) :
    ∃ answers map table,
      (calls.mapM (CatalogCall.run memoryCatalog)).result [] = (.ok answers, map) ∧
      (calls.mapM (CatalogCall.run tableCatalog)).result [] = (.ok answers, table) := by
  have empty : CatalogTable.Mirrors [] (CatalogMap.row? []) := CatalogTable.mirrors_nil
  obtain ⟨answers, map, table, hmemory, htable, -⟩ :=
    empty.mapM_run CatalogMap.wellFormed_empty calls
  exact ⟨answers, map, table, hmemory, htable⟩

end RecordStore
