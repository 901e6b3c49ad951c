import Mathlib.Data.List.Nodup
import RecordStore.Proofs.Catalog.Growth
import RecordStore.Proofs.Catalog.Stored

/-!
# Tables that mirror a catalog

A table mirrors a catalog in memory if it has each of its rows once and no others
(`CatalogTable.Mirrors`). To write a row in the table then is to put it in its place in the catalog
(`CatalogTable.Mirrors.write`). The rows that a table finds are those of the catalog, and lists
them in the same order (`CatalogTable.Mirrors.listed`).
-/

namespace RecordStore

/-! ## Taking out -/

/-- Takes out the items that pass a test, and counts them. -/
def sweep {α : Type} (counted : Nat × List α) (test : α → Bool) : Nat × List α :=
  (counted.1 + counted.2.countP test, counted.2.filter fun a => !test a)

/-- What is taken out in several turns can be taken out at once. -/
theorem foldl_sweep {α : Type} (tests : List (α → Bool)) (n : Nat) (items : List α) :
    tests.foldl sweep (n, items) =
      (n + items.countP (fun a => tests.any fun test => test a),
        items.filter fun a => !tests.any fun test => test a) := by
  induction tests generalizing n items with
  | nil => simp [List.filter_eq_self.2]
  | cons test rest ih =>
    rw [List.foldl_cons, sweep, ih, Nat.add_assoc]
    have count : items.countP (fun a => (test :: rest).any fun test => test a) =
        items.countP test +
          (items.filter fun a => !test a).countP fun a => rest.any fun test => test a := by
      rw [List.countP_eq_countP_filter_add items _ test, List.countP_filter, List.countP_filter,
        List.countP_filter]
      congr 1
      all_goals
        apply List.countP_congr
        intro a _
        simp +contextual
    rw [count, List.filter_filter]
    simp [Bool.and_comm]

namespace CatalogTable

variable {table : CatalogTable} {stored written : StoredRow}

/-! ## Keys -/

def key (stored : StoredRow) : Partition × String := (stored.partition, stored.path)

theorem sameKey_iff {a b : StoredRow} : sameKey a b = true ↔ key a = key b := by
  simp [sameKey, key]

/-- No key occurs twice. -/
def Unique (table : CatalogTable) : Prop := (table.map key).Nodup

theorem Unique.eq_of_key (h : table.Unique) {a b : StoredRow} (ha : a ∈ table) (hb : b ∈ table)
    (hab : key a = key b) : a = b :=
  List.inj_on_of_nodup_map h ha hb hab

theorem Unique.filter (h : table.Unique) (test : StoredRow → Bool) : Unique (table.filter test) :=
  h.sublist (List.filter_sublist.map key)

/-! ## Writing a row -/

theorem any_sameKey_iff : (table.any (sameKey · written)) = true ↔ key written ∈ table.map key := by
  simp [sameKey_iff]

theorem Unique.write (h : table.Unique) (written : StoredRow) :
    Unique (CatalogTable.write table written) := by
  unfold CatalogTable.write
  split
  · have keys : (table.map fun row => if sameKey row written then updated row written else row).map
        key = table.map key := by
      rw [List.map_map]
      apply List.map_congr_left
      intro row _
      show key (if sameKey row written then updated row written else row) = key row
      split
      · next hkey => exact (sameKey_iff.1 hkey).symm
      · rfl
    rw [Unique, keys]
    exact h
  · next hnone =>
    rw [any_sameKey_iff] at hnone
    rw [Unique, List.map_append]
    apply h.append (List.nodup_singleton _)
    simpa using hnone

/-- A row that is as old as the row with its key takes the place of that row. -/
theorem mem_write (hcreated : ∀ old ∈ table, key old = key written →
    old.createdAt = written.createdAt) :
    stored ∈ write table written ↔
      stored = written ∨ (stored ∈ table ∧ key stored ≠ key written) := by
  have updated_eq : ∀ old ∈ table, key old = key written → updated old written = written := by
    intro old hold hkey
    rw [updated, hcreated old hold hkey]
  unfold write
  split
  · next hany =>
    obtain ⟨old, hold, hkey⟩ := List.mem_map.1 (any_sameKey_iff.1 hany)
    rw [List.mem_map]
    constructor
    · rintro ⟨row, hrow, rfl⟩
      split
      · next h => exact .inl (updated_eq row hrow (sameKey_iff.1 h))
      · next h => exact .inr ⟨hrow, fun heq => h (sameKey_iff.2 heq)⟩
    · rintro (rfl | ⟨hstored, hne⟩)
      · exact ⟨old, hold, by rw [if_pos (sameKey_iff.2 hkey), updated_eq old hold hkey]⟩
      · exact ⟨stored, hstored, if_neg fun h => hne (sameKey_iff.1 h)⟩
  · next hnone =>
    rw [any_sameKey_iff] at hnone
    rw [List.mem_append, List.mem_singleton, or_comm]
    have others : stored ∈ table → key stored ≠ key written :=
      fun hstored hkey => hnone (hkey ▸ List.mem_map_of_mem hstored)
    tauto

/-! ## Mirroring -/

/-- The rows that there are for partitions and paths, each in its place. -/
def Placed (row? : Partition → String → Option FieldRow) : Prop :=
  ∀ p k row, row? p k = some row → row.partition = p ∧ row.path = k

/-- A table has the rows that there are for partitions and paths, each once, and no others. -/
structure Mirrors (table : CatalogTable) (row? : Partition → String → Option FieldRow) : Prop where
  unique : table.Unique
  mem_iff : ∀ stored, stored ∈ table ↔ ∃ p k row, row? p k = some row ∧ stored = .ofRow row

variable {row? : Partition → String → Option FieldRow} {p : Partition} {row : FieldRow}
  {rows : List (String × FieldRow)} {batch : List FieldRow}

theorem mirrors_nil : Mirrors [] fun _ _ => none :=
  ⟨List.nodup_nil, fun stored => by simp⟩

theorem Mirrors.exists_rows (h : table.Mirrors row?) (part : List StoredRow)
    (hpart : ∀ stored ∈ part, stored ∈ table) :
    ∃ rows : List FieldRow, part = rows.map .ofRow ∧ part.mapM StoredRow.read = .ok rows := by
  obtain ⟨rows, hrows⟩ : ∃ rows : List FieldRow, part = rows.map .ofRow := by
    induction part with
    | nil => exact ⟨[], rfl⟩
    | cons stored rest ih =>
      obtain ⟨rows, hrows⟩ := ih fun other hother => hpart other (List.mem_cons_of_mem _ hother)
      obtain ⟨p, k, row, -, hrow⟩ := (h.mem_iff stored).1 (hpart stored List.mem_cons_self)
      exact ⟨row :: rows, by rw [hrow, hrows]; rfl⟩
  exact ⟨rows, hrows, by rw [hrows, StoredRow.mapM_read]⟩

/-- To write a row puts it in its place, if it is as old as the row that has been there. -/
theorem Mirrors.write (h : table.Mirrors row?) (hplaced : Placed row?)
    (hcreated : ∀ old, row? row.partition row.path = some old → old.createdAt = row.createdAt) :
    (CatalogTable.write table (.ofRow row)).Mirrors fun q k =>
      if q = row.partition ∧ k = row.path then some row else row? q k where
  unique := h.unique.write _
  mem_iff stored := by
    have created : ∀ old ∈ table, key old = key (.ofRow row) →
        old.createdAt = (StoredRow.ofRow row).createdAt := by
      intro old hold hkey
      obtain ⟨q, k, other, hother, rfl⟩ := (h.mem_iff old).1 hold
      obtain ⟨rfl, rfl⟩ := hplaced q k other hother
      have hp : other.partition = row.partition := (Prod.mk.inj hkey).1
      have hk : other.path = row.path := (Prod.mk.inj hkey).2
      rw [hp, hk] at hother
      exact hcreated other hother
    rw [mem_write created, h.mem_iff]
    constructor
    · rintro (rfl | ⟨⟨q, k, other, hother, rfl⟩, hne⟩)
      · exact ⟨row.partition, row.path, row, if_pos ⟨rfl, rfl⟩, rfl⟩
      · obtain ⟨rfl, rfl⟩ := hplaced q k other hother
        refine ⟨other.partition, other.path, other, ?_, rfl⟩
        rw [if_neg fun hsame => hne (Prod.ext hsame.1 hsame.2)]
        exact hother
    · rintro ⟨q, k, other, hother, rfl⟩
      split at hother
      · cases hother
        exact .inl rfl
      · next hne =>
        obtain ⟨rfl, rfl⟩ := hplaced q k other hother
        exact .inr ⟨⟨other.partition, other.path, other, hother, rfl⟩,
          fun hkey => hne (Prod.mk.inj hkey)⟩

/-- The rows of one partition by path, and those that there are for the others. -/
def within (p : Partition) (rows : List (String × FieldRow))
    (row? : Partition → String → Option FieldRow) : Partition → String → Option FieldRow :=
  fun q k => if q = p then Keyed.get? k rows else row? q k

theorem placed_within (hrows : FieldRow.AllInPlace p rows) (hplaced : Placed row?) :
    Placed (within p rows row?) := by
  intro q k row hrow
  unfold within at hrow
  split at hrow
  · next hq =>
    subst hq
    exact hrows.get? hrow
  · exact hplaced q k row hrow

/-- To write rows of a partition that lead to certain ones puts them in their places. -/
theorem Mirrors.foldl_write {target : List (String × FieldRow)}
    (h : table.Mirrors (within p rows row?)) (hrows : FieldRow.AllInPlace p rows)
    (hplaced : Placed row?)
    (hbatch : ∀ row ∈ batch, row.partition = p ∧ Keyed.get? row.path target = some row)
    (hcreated : ∀ k old new, Keyed.get? k rows = some old → Keyed.get? k target = some new →
      old.createdAt = new.createdAt) :
    ((batch.map .ofRow).foldl CatalogTable.write table).Mirrors
      (within p (batch.foldl (fun rows row => Keyed.insert row.path row rows) rows) row?) := by
  induction batch generalizing table rows with
  | nil => exact h
  | cons row rest ih =>
    obtain ⟨hp, htarget⟩ := hbatch row List.mem_cons_self
    have created : ∀ old, within p rows row? row.partition row.path = some old →
        old.createdAt = row.createdAt := by
      intro old hold
      rw [within, if_pos hp] at hold
      exact hcreated row.path old row hold htarget
    have written := h.write (placed_within hrows hplaced) created
    have inserted : (fun q k => if q = row.partition ∧ k = row.path then some row
        else within p rows row? q k) = within p (Keyed.insert row.path row rows) row? := by
      funext q k
      unfold within
      rw [Keyed.get?_insert, hp]
      by_cases hq : q = p <;> by_cases hk : k = row.path <;> simp [hq, hk]
    rw [inserted] at written
    refine ih written (hrows.insert hp rfl)
      (fun other hother => hbatch other (List.mem_cons_of_mem _ hother)) fun k old new hold hnew => ?_
    rw [Keyed.get?_insert] at hold
    split at hold
    · next hk =>
      subst hk
      cases hold
      rw [htarget] at hnew
      cases hnew
      rfl
    · exact hcreated k old new hold hnew

/-! ## Selecting, folding and writing -/

theorem mem_mentionedPaths {ds : List Descriptor} {k : String} :
    k ∈ mentionedPaths ds ↔ k ∈ ds.map Descriptor.path := by
  rw [mentionedPaths, Keyed.mem_keys_ofList, Keyed.keys, List.map_map]
  rfl

/-- To select piece by piece is to select by all paths. -/
theorem mem_selected {paths : List String} :
    stored ∈ table.selected p paths ↔
      stored ∈ table ∧ stored.partition = p ∧ stored.path ∈ paths := by
  rw [← exists_mem_pieces maxPaths paths]
  simp only [selected, atPaths, inPartition, List.mem_flatMap, List.mem_filter, decide_eq_true_eq,
    List.contains_iff_mem]
  tauto

variable {map : CatalogMap} {ds : List Descriptor}

theorem Mirrors.mem_ofRow (h : table.Mirrors map.row?) (hmap : map.WellFormed) :
    StoredRow.ofRow row ∈ table ↔ map.row? row.partition row.path = some row := by
  rw [h.mem_iff]
  constructor
  · rintro ⟨q, k, other, hother, heq⟩
    cases StoredRow.ofRow_inj heq
    obtain ⟨rfl, rfl⟩ := hmap.row?_eq_some hother
    exact hother
  · exact fun hrow => ⟨row.partition, row.path, row, hrow, rfl⟩

/-- The rows that are selected are those that the catalog has at the paths. -/
theorem Mirrors.get?_current (h : table.Mirrors map.row?) (hmap : map.WellFormed)
    {paths : List String} {found : List FieldRow}
    (hfound : table.selected p paths = found.map .ofRow) {k : String} (hk : k ∈ paths) :
    Keyed.get? k (Keyed.ofList (found.map fun row => (row.path, row))) = map.row? p k := by
  have mem_found : ∀ row, row ∈ found ↔
      map.row? row.partition row.path = some row ∧ row.partition = p ∧ row.path ∈ paths := by
    intro row
    rw [← h.mem_ofRow hmap]
    rw [← List.mem_map_of_injective fun a b => StoredRow.ofRow_inj, ← hfound, mem_selected]
    rfl
  rw [Keyed.get?_ofList (f := map.row? p)]
  · split
    · rfl
    · next hnone =>
      rw [eq_comm, Option.eq_none_iff_forall_ne_some]
      intro row hrow
      obtain ⟨hp, rfl⟩ := hmap.row?_eq_some hrow
      apply hnone
      have hmem : row ∈ found := (mem_found row).2 ⟨by rw [hp, hrow], hp, hk⟩
      simpa [Keyed.keys] using ⟨row, hmem, rfl⟩
  · intro entry hentry
    obtain ⟨row, hrow, rfl⟩ := List.mem_map.1 hentry
    obtain ⟨hrow, rfl, -⟩ := (mem_found row).1 hrow
    exact hrow

/-- To fold descriptors into a table is to fold them into the catalog that it mirrors. -/
theorem Mirrors.upsert (h : table.Mirrors map.row?) (hmap : map.WellFormed) (p : Partition)
    (ds : List Descriptor) (now : Instant) :
    ∃ next, CatalogTable.upsert CatalogTable.write p ds now table =
        (.ok (CatalogMap.upsert p ds now map).1, next) ∧
      next.Mirrors (CatalogMap.upsert p ds now map).2.row? := by
  unfold CatalogTable.upsert CatalogMap.upsert
  by_cases hempty : ds.isEmpty = true
  · rw [if_pos hempty, if_pos hempty]
    exact ⟨table, rfl, h⟩
  rw [if_neg hempty, if_neg hempty]
  obtain ⟨found, hfound, hread⟩ := h.exists_rows (table.selected p (mentionedPaths ds))
    fun stored hstored => (mem_selected.1 hstored).1
  have same : writtenRows p now (Keyed.ofList (found.map fun row => (row.path, row))) ds =
      writtenRows p now (map.rowsOf p) ds := by
    apply FieldRow.writtenRows_congr
    intro k hk
    exact h.get?_current hmap hfound (mem_mentionedPaths.2 hk)
  rw [hread]
  dsimp only
  rw [same]
  refine ⟨_, rfl, ?_⟩
  have inPlace := hmap.inPlace.rowsOf p
  have start : map.row? = within p (map.rowsOf p) map.row? := by
    funext q k
    unfold within
    split
    · next hq => rw [hq, CatalogMap.row?]
    · rfl
  have target : ∀ rows, CatalogMap.row? (Keyed.insert p rows map) = within p rows map.row? := by
    intro rows
    funext q k
    unfold within CatalogMap.row?
    rw [CatalogMap.rowsOf_insert]
    split <;> rfl
  rw [target]
  rw [start] at h
  apply h.foldl_write inPlace (fun q k row => hmap.row?_eq_some)
    (fun row hrow => inPlace.of_mem_writtenRows hrow)
  intro k old new hold hnew
  rw [FieldRow.get?_foldDescriptors, hold, FieldRow.foldAll_some] at hnew
  cases hnew
  exact (old.grows_foldl_add _ now).createdAt.symm

/-! ## Listing and deleting -/

/-- The rows of a partition in a table are those of the catalog that it mirrors. -/
theorem Mirrors.perm_inPartition (h : table.Mirrors map.row?) (hmap : map.WellFormed)
    (p : Partition) :
    (table.inPartition p).Perm ((Keyed.values (map.rowsOf p)).map StoredRow.ofRow) := by
  have sorted := hmap.sorted_rowsOf p
  have rowsNodup : (Keyed.values (map.rowsOf p)).Nodup := by
    apply sorted.nodup.map_on
    intro a ha b hb hab
    have key : a.1 = b.1 := by
      rw [← (hmap.inPlace.rowsOf p a ha).2, ← (hmap.inPlace.rowsOf p b hb).2, hab]
    exact Prod.ext key hab
  apply (List.perm_ext_iff_of_nodup _ _).2
  · intro stored
    rw [inPartition, List.mem_filter, h.mem_iff, List.mem_map, decide_eq_true_eq]
    constructor
    · rintro ⟨⟨q, k, row, hrow, rfl⟩, hp⟩
      obtain ⟨rfl, rfl⟩ := hmap.row?_eq_some hrow
      have hp : row.partition = p := hp
      rw [hp] at hrow
      exact ⟨row, List.mem_map_of_mem (f := Prod.snd) (Keyed.mem_of_get? hrow), rfl⟩
    · rintro ⟨row, hrow, rfl⟩
      obtain ⟨entry, hentry, rfl⟩ := List.mem_map.1 hrow
      have found : map.row? p entry.1 = some entry.2 := (Keyed.mem_iff_get? sorted).1 hentry
      exact ⟨⟨p, entry.1, entry.2, found, rfl⟩, (hmap.inPlace.rowsOf p entry hentry).1⟩
  · exact (h.unique.of_map key).filter _
  · exact rowsNodup.map fun a b => StoredRow.ofRow_inj

/-- A table lists the rows of a partition in the order that the catalog has them in. -/
theorem Mirrors.listed (h : table.Mirrors map.row?) (hmap : map.WellFormed) (p : Partition) :
    table.listed p = (Keyed.values (map.rowsOf p)).map StoredRow.ofRow := by
  have perm : (table.listed p).Perm (table.inPartition p) := List.mergeSort_perm _ _
  have ascending : (table.listed p).Pairwise fun a b => a.path ≤ b.path := by
    have trans : ∀ a b c : StoredRow, decide (a.path ≤ b.path) = true →
        decide (b.path ≤ c.path) = true → decide (a.path ≤ c.path) = true := by
      intro a b c hab hbc
      rw [decide_eq_true_eq] at hab hbc ⊢
      exact String.le_trans hab hbc
    have total : ∀ a b : StoredRow,
        (decide (a.path ≤ b.path) || decide (b.path ≤ a.path)) = true := by
      intro a b
      simpa using String.le_total a.path b.path
    exact (List.pairwise_mergeSort trans total (table.inPartition p)).imp of_decide_eq_true
  have ascending' : ((Keyed.values (map.rowsOf p)).map StoredRow.ofRow).Pairwise
      fun a b => a.path ≤ b.path := by
    rw [Keyed.values, List.map_map, List.pairwise_map]
    refine (List.pairwise_map.1 (hmap.sorted_rowsOf p)).imp_of_mem fun {a b} ha hb hlt => ?_
    show a.2.path ≤ b.2.path
    rw [(hmap.inPlace.rowsOf p a ha).2, (hmap.inPlace.rowsOf p b hb).2]
    exact String.not_lt.1 (String.lt_asymm hlt)
  refine (perm.trans (h.perm_inPartition hmap p)).eq_of_pairwise (fun a b ha hb hab hba => ?_)
    ascending ascending'
  have inTable : ∀ {stored}, stored ∈ table.inPartition p → stored ∈ table ∧ stored.partition = p :=
    fun hstored => by simpa [inPartition] using hstored
  obtain ⟨ha, hpa⟩ := inTable (perm.mem_iff.1 ha)
  obtain ⟨hb, hpb⟩ := inTable ((h.perm_inPartition hmap p).mem_iff.2 hb)
  exact h.unique.eq_of_key ha hb (Prod.ext (hpa.trans hpb.symm) (String.le_antisymm hab hba))

/-- What is left of a table mirrors what is left of the catalog. -/
theorem Mirrors.filter {rest? : Partition → String → Option FieldRow} (h : table.Mirrors row?)
    (test : StoredRow → Bool)
    (hrest : ∀ q k row, rest? q k = some row ↔ row? q k = some row ∧ test (.ofRow row) = true) :
    Mirrors (table.filter test) rest? where
  unique := h.unique.filter test
  mem_iff stored := by
    rw [List.mem_filter, h.mem_iff]
    constructor
    · rintro ⟨⟨q, k, row, hrow, rfl⟩, htest⟩
      exact ⟨q, k, row, (hrest q k row).2 ⟨hrow, htest⟩, rfl⟩
    · rintro ⟨q, k, row, hrow, rfl⟩
      obtain ⟨hrow, htest⟩ := (hrest q k row).1 hrow
      exact ⟨⟨q, k, row, hrow, rfl⟩, htest⟩

end CatalogTable

end RecordStore
