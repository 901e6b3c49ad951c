import RecordStore.Proofs.Catalog.Calls
import RecordStore.Proofs.Path.Digits
import RecordStore.Proofs.Payload.Entries

/-!
# Sorting by what is indexed

A sort field is accepted if the catalog lists the path that is read for it
(`Catalog.result_validateSort_payload`). The path of a plain descriptor is read back, leads to the leaf
and is written as it was, so that the records can be sorted by it once the catalog has the descriptor, if
no key on the way has a spare zero (`Value.index_sortable`). With such a key the path that is read is
another one, under which nothing need be found or listed (`Value.index_unsortable`).
-/

namespace RecordStore

/-! ## Sort fields -/

theorem payloadField?_payload (path : String) :
    payloadField? (Record.payloadKey ++ "." ++ path) = some path := by
  have parts : (Record.payloadKey ++ "." ++ path).toList =
      (Record.payloadKey ++ ".").toList ++ path.toList := String.toList_append
  rw [payloadField?, parts, if_pos (List.isPrefixOf_iff_prefix.2 (List.prefix_append _ _)),
    List.drop_left, String.ofList_toList]

theorem SortKey.resolve_payload {raw : String} {path : Path} (h : Path.parse raw = .ok path)
    (hplain : path.hasWildcard = false) (direction : SortDirection) :
    resolve ⟨Record.payloadKey ++ "." ++ raw, direction⟩ = .ok ⟨.payload path, direction⟩ := by
  rw [resolve, targetOf, payloadField?_payload]
  dsimp only
  rw [h, ok_bind, pure_ok, ok_bind]
  exact if_neg (by rw [hplain]; exact Bool.false_ne_true)

namespace Catalog

variable {σ : Type} {catalog : Catalog σ} {s : σ} {p : Partition} {rows : List FieldRow}

/-- The test of paths refuses exactly those that no row of the partition has. -/
theorem result_requireIndexed (h : (catalog.rows p).result s = (.ok rows, s)) (paths : List String) :
    (catalog.requireIndexed p paths).result s =
      (let missing := paths.filter fun path => !(rows.map FieldRow.path).contains path
      if missing = [] then .ok () else refuse (.notIndexed p.appId p.groupId p.tag missing), s) := by
  unfold requireIndexed
  cases paths with
  | nil => rfl
  | cons path rest =>
    rw [List.isEmpty_cons]
    simp only [Bool.false_eq_true, if_false, Effect.result_bind_ok h, List.isEmpty_iff]
    split <;> rfl

/-- Whether the catalog has a row of a path in a partition. -/
def Lists (catalog : Catalog σ) (s : σ) (p : Partition) (path : String) : Prop :=
  ∃ rows, (catalog.rows p).result s = (.ok rows, s) ∧ path ∈ rows.map FieldRow.path

/-- Whether the records of a partition may be sorted by a path of their payloads. -/
def AcceptsSort (catalog : Catalog σ) (s : σ) (p : Partition) (path : String) : Prop :=
  ∀ direction, (catalog.validateSort p [⟨Record.payloadKey ++ "." ++ path, direction⟩]).result s =
    (.ok (), s)

/-- A sort field below the payload is tested for the text of the path that is read for it. -/
theorem result_validateSort_payload {raw : String} {path : Path} (h : Path.parse raw = .ok path)
    (hplain : path.hasWildcard = false) (direction : SortDirection) :
    (catalog.validateSort p [⟨Record.payloadKey ++ "." ++ raw, direction⟩]).result s =
      (catalog.requireIndexed p [path.text]).result s := by
  have keys : [SortItem.mk (Record.payloadKey ++ "." ++ raw) direction].mapM SortKey.resolve =
      .ok [⟨.payload path, direction⟩] := by
    rw [List.mapM_cons, SortKey.resolve_payload h hplain]
    rfl
  rw [validateSort, keys]
  rfl

theorem Lists.acceptsSort {raw : String} {path : Path} (h : catalog.Lists s p path.text)
    (hparse : Path.parse raw = .ok path) (hplain : path.hasWildcard = false) :
    catalog.AcceptsSort s p raw := by
  intro direction
  obtain ⟨rows, hrows, hlisted⟩ := h
  have none : [path.text].filter (fun path => !(rows.map FieldRow.path).contains path) = [] := by
    rw [List.filter_singleton, List.contains_iff_mem.2 hlisted]
    rfl
  rw [result_validateSort_payload hparse hplain, result_requireIndexed hrows, none]
  rfl

end Catalog

/-! ## Listed paths -/

namespace CatalogMap.WellFormed

variable {map : CatalogMap} {p : Partition} {k : String}

theorem mem_paths {row : FieldRow} (h : map.WellFormed) (hrow : map.row? p k = some row) :
    k ∈ (Keyed.values (map.rowsOf p)).map FieldRow.path :=
  List.mem_map.2 ⟨row, List.mem_map_of_mem (f := Prod.snd) (Keyed.mem_of_get? hrow),
    (h.row?_eq_some hrow).2⟩

theorem exists_row?_upsert {ds : List Descriptor} {d : Descriptor} (h : map.WellFormed)
    (p : Partition) (hd : d ∈ ds) (now : Instant) :
    ∃ row, row? (CatalogMap.upsert p ds now map).2 p d.path = some row := by
  rw [row?, h.inPlace.get?_rowsOf_upsert]
  apply Option.isSome_iff_exists.1
  exact FieldRow.contains_foldDescriptors (.inr (List.mem_map_of_mem (f := Descriptor.path) hd))

end CatalogMap.WellFormed

/-- After any calls, both catalogs list the paths of the descriptors that are folded in next. -/
theorem CatalogCall.lists_upsert (calls : List CatalogCall) (p : Partition) {ds : List Descriptor}
    {d : Descriptor} (hd : d ∈ ds) (now : Instant) :
    ∃ answers map table,
      ((calls ++ [upsert p ds now]).mapM (run memoryCatalog)).result [] = (.ok answers, map) ∧
      ((calls ++ [upsert p ds now]).mapM (run tableCatalog)).result [] = (.ok answers, table) ∧
      memoryCatalog.Lists map p d.path ∧ tableCatalog.Lists table p d.path := by
  obtain ⟨answers, map, table, hanswers, hanswers', hmap, hmirrors⟩ :=
    CatalogTable.mirrors_nil.mapM_run CatalogMap.wellFormed_empty calls
  obtain ⟨next, hnext, hmirrors'⟩ := hmirrors.upsert hmap p ds now
  have hmap' := hmap.upsert p ds now
  obtain ⟨row, hrow⟩ := hmap.exists_row?_upsert p hd now
  have listed := hmap'.mem_paths hrow
  refine ⟨answers ++ [.rows (CatalogMap.upsert p ds now map).1], _, next, ?_, ?_, ⟨_, rfl, listed⟩,
    ⟨_, hmirrors'.result_rows hmap' p, listed⟩⟩
  · rw [List.mapM_append, Effect.result_bind_ok hanswers]
    rfl
  · have folded : (tableCatalog.upsert p ds now).result table =
        (.ok (CatalogMap.upsert p ds now map).1, next) := hnext
    have answered : (run tableCatalog (upsert p ds now)).result table =
        (.ok (.rows (CatalogMap.upsert p ds now map).1), next) := by
      rw [run, Effect.result_bind_ok folded]
      rfl
    have last : ([upsert p ds now].mapM (run tableCatalog)).result table =
        (.ok [.rows (CatalogMap.upsert p ds now map).1], next) := by
      rw [List.mapM_cons, Effect.result_bind_ok answered]
      rfl
    rw [List.mapM_append, Effect.result_bind_ok hanswers', Effect.result_bind_ok last]
    rfl

/-! ## Paths of leaves -/

namespace Value

variable {payload : Value} {p : String} {d : Descriptor}

/-- A plain descriptor of an index is that of a leaf of the payload, under its path. -/
theorem exists_leaf_of_mem_index (h : (p, d) ∈ payload.index) (hplain : d.isCompressed = false) :
    ∃ segments x, segments ≠ [] ∧ .wildcard ∉ segments ∧ Path.Leads payload segments x ∧
      LeafType.ofLeaf? x = some d.type ∧ Path.joined segments = p := by
  obtain ⟨found, hfound, heq⟩ := List.mem_map.1 (Keyed.mem_of_mem_ofList h)
  cases heq
  cases (mem_descriptorsAt [] payload d).1 hfound with
  | @leaf segments t hne hwildcard hleaf =>
    obtain ⟨x, hx, ht⟩ := hleaf
    exact ⟨segments, x, hne, hwildcard, hx, ht, rfl⟩
  | elements => cases hplain

/-- The path of every plain descriptor of an index is parsed, without a wildcard. It is written as it
was exactly if no key on the way to the leaf has a spare zero, and then reading it gives the leaf and the
records can be sorted by it wherever the catalog lists the path, as it does in either implementation
after the descriptor has been folded in. -/
theorem index_sortable (hcanonical : payload.Canonical)
    (hkeys : payload.EveryKey fun name =>
      (Segment.key name).IsPart ∧ name ≠ Segment.wildcardText)
    (harrays : payload.ArraysWithin (2 ^ 63)) (h : (p, d) ∈ payload.index)
    (hplain : d.isCompressed = false) :
    ∃ segments x path, .wildcard ∉ segments ∧ Path.Leads payload segments x ∧
      LeafType.ofLeaf? x = some d.type ∧ Path.joined segments = p ∧
      Path.parse p = .ok path ∧ path.hasWildcard = false ∧
      (path.text = p ↔ ∀ name, .key name ∈ segments → Segment.hasSpareZero name = false) ∧
      (path.text = p → path.get? payload = some x ∧
        (∀ {σ : Type} (catalog : Catalog σ) s partition,
          catalog.Lists s partition p → catalog.AcceptsSort s partition p) ∧
        ∀ (calls : List CatalogCall) partition ds now, d ∈ ds → ∃ answers map table,
          ((calls ++ [CatalogCall.upsert partition ds now]).mapM
            (CatalogCall.run memoryCatalog)).result [] = (.ok answers, map) ∧
          ((calls ++ [CatalogCall.upsert partition ds now]).mapM
            (CatalogCall.run tableCatalog)).result [] = (.ok answers, table) ∧
          memoryCatalog.AcceptsSort map partition p ∧ tableCatalog.AcceptsSort table partition p) := by
  obtain ⟨segments, x, hne, hwildcard, hleads, htype, hp⟩ := exists_leaf_of_mem_index h hplain
  have keys := fun name (hname : .key name ∈ segments) => hleads.key_of_mem hkeys hname
  have parts := Path.isPart_of_keys fun name hname => (keys name hname).1
  have plain := Path.wildcard_not_mem_reread hwildcard fun name hname => (keys name hname).2
  have words : ∀ i, .index i ∈ segments → i < 2 ^ 64 := fun i hi =>
    Nat.lt_trans (hleads.index_lt_of_mem harrays hi) (by decide)
  have parsed : Path.parse p = .ok ⟨segments.map Segment.reread⟩ := hp ▸ Path.parse_joined hne parts
  have noWildcard : Path.hasWildcard ⟨segments.map Segment.reread⟩ = false := by
    simpa [Path.hasWildcard] using plain
  have written := Path.text_reread_iff hne parts words
  rw [hp] at written
  refine ⟨segments, x, ⟨segments.map Segment.reread⟩, hwildcard, hleads, htype, hp, parsed, noWildcard,
    written, fun htext => ?_⟩
  have accepts : ∀ {σ : Type} (catalog : Catalog σ) s partition,
      catalog.Lists s partition p → catalog.AcceptsSort s partition p := by
    intro σ catalog s partition hlisted
    rw [← htext] at hlisted
    exact hlisted.acceptsSort parsed noWildcard
  refine ⟨hleads.follow?_reread hcanonical plain words (written.1 htext), accepts, ?_⟩
  intro calls partition ds now hd
  obtain ⟨answers, map, table, hmap, htable, listed, listed'⟩ :=
    CatalogCall.lists_upsert calls partition hd now
  rw [(describes_index h).1] at listed listed'
  exact ⟨answers, map, table, hmap, htable, accepts _ _ _ listed, accepts _ _ _ listed'⟩

/-- Keys of digits, one of them beyond 64 bits, below each other and in an array, beside a key with a
spare zero. -/
theorem index_sortable_digits :
    let payload : Value := .object [("007", .null),
      ("18446744073709551616", .object [("10", .int 1)]), ("a", .array [.object [("0", .string "x")]])]
    let p := "18446744073709551616.10"
    let q := "a.0.0"
    payload.Canonical ∧
      (payload.EveryKey fun name => (Segment.key name).IsPart ∧ name ≠ Segment.wildcardText) ∧
      payload.ArraysWithin (2 ^ 63) ∧ (p, .leaf p .number) ∈ payload.index ∧
      (q, .leaf q .string) ∈ payload.index ∧
      (∃ path x, Path.parse p = .ok path ∧ path.text = p ∧ path.get? payload = some x ∧
        LeafType.ofLeaf? x = some .number) ∧
      ∀ partition now, ∃ answers map table,
        ([CatalogCall.upsert partition [.leaf q .string] now].mapM
          (CatalogCall.run memoryCatalog)).result [] = (.ok answers, map) ∧
        ([CatalogCall.upsert partition [.leaf q .string] now].mapM
          (CatalogCall.run tableCatalog)).result [] = (.ok answers, table) ∧
        memoryCatalog.AcceptsSort map partition q ∧ tableCatalog.AcceptsSort table partition q := by
  intro payload p q
  have hcanonical : payload.Canonical := by
    have sorted : (["007", "18446744073709551616", "a"] : List String).Pairwise (· < ·) := by decide
    refine ⟨sorted, ?_⟩
    simp [Value.Canonical, Value.CanonicalItems, Value.CanonicalFields, Keyed.Sorted, Keyed.keys,
      Value.int]
  have hkeys : payload.EveryKey fun name =>
      (Segment.key name).IsPart ∧ name ≠ Segment.wildcardText := by
    have keys : ∀ name ∈ ["007", "18446744073709551616", "10", "a", "0"],
        (Segment.key name).IsPart ∧ name ≠ Segment.wildcardText := by decide
    simp only [List.forall_mem_cons] at keys
    simp [payload, EveryKey, Every, EveryItem, EveryField, Value.int, or_imp, forall_and, keys]
  have harrays : payload.ArraysWithin (2 ^ 63) := by
    simp [payload, ArraysWithin, Every, EveryItem, EveryField, Value.int]
  have hp : (p, Descriptor.leaf p .number) ∈ payload.index := by decide +kernel
  have hq : (q, Descriptor.leaf q .string) ∈ payload.index := by decide +kernel
  have parsed : Path.parse p = .ok ⟨[.key "18446744073709551616", .index 10]⟩ := by decide +kernel
  have parsed' : Path.parse q = .ok ⟨[.key "a", .index 0, .index 0]⟩ := by decide +kernel
  refine ⟨hcanonical, hkeys, harrays, hp, hq, ?_, fun partition now => ?_⟩
  · obtain ⟨_, x, path, _, _, htype, _, hparse, _, _, hread⟩ :=
      index_sortable hcanonical hkeys harrays hp rfl
    cases parsed.symm.trans hparse
    have written : Path.text ⟨[.key "18446744073709551616", .index 10]⟩ = p := by decide +kernel
    exact ⟨_, x, parsed, written, (hread written).1, htype⟩
  · obtain ⟨_, _, path, _, _, _, _, hparse, _, _, hread⟩ :=
      index_sortable hcanonical hkeys harrays hq rfl
    cases parsed'.symm.trans hparse
    have written : Path.text ⟨[.key "a", .index 0, .index 0]⟩ = q := by decide +kernel
    exact (hread written).2.2 [] partition [.leaf q .string] now List.mem_cons_self

/-- A key with spare zeros is read as an index, which leads to the key without them, and the path without
them is not listed. -/
theorem index_unsortable :
    let payload : Value := .object [("007", .string "x")]
    let d := Descriptor.leaf "007" .string
    let p : Partition := ⟨"app", "group", "tag"⟩
    let map := (CatalogMap.upsert p [d] 1 []).2
    payload.Canonical ∧
      (payload.EveryKey fun name => (Segment.key name).IsPart ∧ name ≠ Segment.wildcardText) ∧
      payload.ArraysWithin (2 ^ 63) ∧ ("007", d) ∈ payload.index ∧
      Path.parse "007" = .ok ⟨[.index 7]⟩ ∧ Path.get? ⟨[.index 7]⟩ payload = none ∧
      Path.text ⟨[.index 7]⟩ = "7" ∧ memoryCatalog.Lists map p "007" ∧
      ∀ direction, (memoryCatalog.validateSort p [⟨"objRecord.007", direction⟩]).result map =
        (refuse (.notIndexed "app" "group" "tag" ["7"]), map) := by
  intro payload d p map
  have hcanonical : payload.Canonical := by
    simp [payload, Value.Canonical, Value.CanonicalFields, Keyed.Sorted, Keyed.keys]
  have hkeys : payload.EveryKey fun name =>
      (Segment.key name).IsPart ∧ name ≠ Segment.wildcardText := by
    have part : (Segment.key "007").IsPart := ⟨by decide, by decide, by decide⟩
    simp [payload, EveryKey, Every, EveryField, part, Segment.wildcardText]
  have harrays : payload.ArraysWithin (2 ^ 63) := by
    simp [payload, ArraysWithin, Every, EveryField]
  refine ⟨hcanonical, hkeys, harrays, by decide +kernel, rfl, rfl, by decide, ?_, ?_⟩
  · exact ⟨_, rfl, by decide +kernel⟩
  · intro direction
    have parsed : Path.parse "007" = .ok ⟨[.index 7]⟩ := rfl
    exact (Catalog.result_validateSort_payload parsed rfl direction).trans rfl

end Value

end RecordStore
