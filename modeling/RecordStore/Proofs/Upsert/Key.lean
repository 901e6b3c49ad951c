import RecordStore.Proofs.Payload.Merge
import RecordStore.Proofs.Upsert.Batch

/-!
# Keys of records

A live record with strings at all conflict keys has a key of its own (`Record.upsertKey?`), and the
clause of a key of strings selects exactly the records with this key (`UpsertKey.holds_clause_iff`). A
record that a draft becomes has the key of the draft, and to merge a draft into a record with its key
leaves the key as it is.
-/

namespace RecordStore

open Collection

/-- The strings at some paths, if there are strings at all of them. -/
def Value.stringsAt? (keys : List Path) (v : Value) : Option (List String) :=
  keys.mapM fun key => (key.get? v).bind Value.string?

/-- The key of a live record with strings at all conflict keys. There is none without conflict
keys. -/
def Record.upsertKey? (keys : List Path) (r : Record) : Option UpsertKey :=
  if keys.isEmpty || r.isDeleted then none
  else (r.payload.stringsAt? keys).map fun texts => ⟨.ofRecord r, texts.map .string⟩

/-- The value is null or a string. -/
def Value.IsText (v : Value) : Prop := v = .null ∨ ∃ s, v = .string s

/-- At each conflict key the draft has a string, null, or nothing. -/
def Draft.IsPlain (draft : Draft) (keys : List Path) : Prop :=
  ∀ key ∈ keys, ∀ v ∈ key.get? draft.payload, v.IsText

instance (v : Value) : Decidable v.IsText :=
  match v with
  | .null => .isTrue (.inl rfl)
  | .string s => .isTrue (.inr ⟨s, rfl⟩)
  | .bool _ | .number _ | .array _ | .object _ => .isFalse (by simp [Value.IsText])

instance (draft : Draft) (keys : List Path) : Decidable (draft.IsPlain keys) :=
  inferInstanceAs (Decidable (∀ key ∈ keys, ∀ v ∈ key.get? draft.payload, v.IsText))

/-- The key consists of one string for each conflict key. -/
structure UpsertKey.IsPlain (key : UpsertKey) (keys : List Path) : Prop where
  ne_nil : keys ≠ []
  strings : ∃ texts : List String, texts.length = keys.length ∧ key.values = texts.map .string

variable {keys : List Path} {key : UpsertKey} {draft : Draft} {r : Record}

namespace Value

variable {path : Path} {v : Value} {texts : List String}

theorem string?_eq_some_iff {s : String} : v.string? = some s ↔ v = .string s := by
  cases v <;> simp [string?]

theorem stringsAt?_cons_eq_some_iff :
    v.stringsAt? (path :: keys) = some texts ↔
      ∃ s rest, texts = s :: rest ∧ path.get? v = some (.string s) ∧ v.stringsAt? keys = some rest := by
  rw [stringsAt?, List.mapM_cons, Option.bind_eq_bind, Option.bind_eq_some_iff]
  constructor
  · rintro ⟨s, hs, htexts⟩
    obtain ⟨rest, hrest, heq⟩ := Option.bind_eq_some_iff.1 htexts
    obtain ⟨w, hw, hws⟩ := Option.bind_eq_some_iff.1 hs
    cases string?_eq_some_iff.1 hws
    exact ⟨s, rest, (Option.some.inj heq).symm, hw, hrest⟩
  · rintro ⟨s, rest, rfl, hs, hrest⟩
    refine ⟨s, ?_, ?_⟩
    · rw [hs]
      rfl
    · rw [stringsAt?] at hrest
      rw [hrest]
      rfl

theorem length_of_stringsAt? (h : v.stringsAt? keys = some texts) :
    texts.length = keys.length := by
  induction keys generalizing texts with
  | nil => cases h; rfl
  | cons path keys ih =>
    obtain ⟨s, rest, rfl, -, hrest⟩ := stringsAt?_cons_eq_some_iff.1 h
    rw [List.length_cons, List.length_cons, ih hrest]

theorem stringsAt?_eq_some_iff (hlength : texts.length = keys.length) :
    v.stringsAt? keys = some texts ↔
      ∀ entry ∈ keys.zip texts, entry.1.get? v = some (.string entry.2) := by
  induction keys generalizing texts with
  | nil =>
    cases List.length_eq_zero_iff.1 hlength
    exact ⟨fun _ _ => nofun, fun _ => rfl⟩
  | cons path keys ih =>
    obtain ⟨s, rest, rfl⟩ := List.exists_cons_of_length_eq_add_one hlength
    rw [stringsAt?_cons_eq_some_iff, List.zip_cons_cons, List.forall_mem_cons,
      ← ih (Nat.succ.inj hlength)]
    constructor
    · rintro ⟨_, _, heq, hs, hrest⟩
      cases heq
      exact ⟨hs, hrest⟩
    · exact fun h => ⟨s, rest, rfl, h.1, h.2⟩

end Value

/-! ## Drafts -/

/-- What a plain draft is looked up by are the strings at the conflict keys. -/
theorem Draft.upsertKey?_eq (hplain : draft.IsPlain keys) :
    draft.upsertKey? keys =
      if keys.isEmpty then none
      else (draft.payload.stringsAt? keys).map fun texts => ⟨draft.partition, texts.map .string⟩ := by
  rw [upsertKey?, keyValues?]
  split
  · rfl
  · next hne =>
    clear hne
    refine (congrArg (Option.map _) ?_).trans (Option.map_map _ (List.map Value.string) _)
    induction keys with
    | nil => rfl
    | cons path keys ih =>
      have rest := ih fun key hkey => hplain key (List.mem_cons_of_mem _ hkey)
      rw [List.mapM_cons, rest, Value.stringsAt?, Value.stringsAt?, List.mapM_cons]
      cases hv : path.get? draft.payload with
      | none => rfl
      | some v =>
        rcases hplain path List.mem_cons_self v hv with rfl | ⟨s, rfl⟩
        · rfl
        · cases keys.mapM fun key => (key.get? draft.payload).bind Value.string? <;> rfl

theorem Draft.IsPlain.upsertKey (hplain : draft.IsPlain keys)
    (h : draft.upsertKey? keys = some key) : key.IsPlain keys := by
  rw [upsertKey?_eq hplain] at h
  split at h
  · cases h
  · next hne =>
    obtain ⟨texts, htexts, rfl⟩ := Option.map_eq_some_iff.1 h
    exact ⟨fun hnil => hne (hnil ▸ rfl), texts, Value.length_of_stringsAt? htexts, rfl⟩

theorem Record.upsertKey?_ofDraft (hplain : draft.IsPlain keys) (id : String) (now : Instant)
    (actor : Actor) :
    (Record.ofDraft draft id now actor).upsertKey? keys = draft.upsertKey? keys := by
  rw [Draft.upsertKey?_eq hplain, Record.upsertKey?]
  have live : (Record.ofDraft draft id now actor).isDeleted = false := rfl
  rw [live, Bool.or_false]
  rfl

/-! ## Look-up -/

namespace Document

/-- A path of keys is read by following it, and what is missing reads as null. -/
theorem read_enter {segments : List Segment} (h : Segment.AreKeys segments) (v : Value) :
    Path.read enter segments v = (Path.follow? segments v).getD .null := by
  induction segments generalizing v with
  | nil => rfl
  | cons segment rest ih =>
    obtain ⟨⟨name, rfl⟩, hrest⟩ := h.of_cons
    have follow : Path.follow? (.key name :: rest) v =
        (v.field? name).bind (Path.follow? rest) := rfl
    have read : Path.read enter (.key name :: rest) v =
        Path.read enter rest ((v.field? name).getD .null) := rfl
    rw [follow, read]
    cases v.field? name with
    | none => exact read_null rest
    | some w => exact ih hrest w

end Document

theorem Segment.AreKeys.splitAtWildcard?_eq_none {segments : List Segment}
    (h : Segment.AreKeys segments) : Path.splitAtWildcard? segments = none := by
  induction segments with
  | nil => rfl
  | cons segment rest ih =>
    obtain ⟨⟨name, rfl⟩, hrest⟩ := h.of_cons
    exact congrArg (Option.map _) (ih hrest)

theorem Clause.holds_payload_string {path : Path} (hpath : path.IsKeys) (s : String) :
    (Clause.payload path (.eq (.string s))).holds r = true ↔
      path.get? r.payload = some (.string s) := by
  have equal : ∀ v : Value, v.equal (.string s) = true ↔ v = .string s := by
    intro v
    cases v <;> simp [Value.equal]
  have positive : (Clause.payload path (.eq (.string s))).holds r =
      Path.holds Document.enter (Predicate.test (.eq (.string s))) path.segments r.payload := by
    rw [holds_payload r path (by simp)]
    exact Bool.false_bne _
  rw [positive, Path.holds_of_splitAtWildcard?_none hpath.splitAtWildcard?_eq_none,
    Document.read_enter hpath, Predicate.test, equal, Path.get?]
  cases Path.follow? path.segments r.payload <;> simp

theorem Partition.holds_clause_iff (p : Partition) :
    (p.clause false).holds r = true ↔ Partition.ofRecord r = p ∧ r.isDeleted = false := by
  rw [holds_clause, Bool.and_eq_true, decide_eq_true_iff, Bool.false_or, Bool.not_eq_true']

/-- The clause of a key asks for its partition and for its values. -/
theorem UpsertKey.holds_clause (key : UpsertKey) (keys : List Path) :
    (key.clause keys).holds r = ((key.partition.clause false).holds r &&
      (keys.zip key.values).all fun entry => (Clause.payload entry.1 (.eq entry.2)).holds r) := by
  rw [clause, Partition.clause, Clause.holds_all, Clause.holds_all, List.all_append, List.all_map]
  rfl

/-- The clause of a key of strings selects the records that have the key. -/
theorem UpsertKey.holds_clause_iff (hkeys : ∀ path ∈ keys, path.IsKeys) (hkey : key.IsPlain keys) :
    (key.clause keys).holds r = true ↔ r.upsertKey? keys = some key := by
  obtain ⟨hne, texts, hlength, hvalues⟩ := hkey
  have strings : ((keys.zip key.values).all fun entry =>
      (Clause.payload entry.1 (.eq entry.2)).holds r) = true ↔
        r.payload.stringsAt? keys = some texts := by
    rw [Value.stringsAt?_eq_some_iff hlength, hvalues, List.zip_map_right, List.all_map,
      List.all_eq_true]
    refine forall₂_congr fun entry hentry => ?_
    exact Clause.holds_payload_string (hkeys _ (List.of_mem_zip hentry).1) entry.2
  rw [holds_clause, Bool.and_eq_true, strings, Partition.holds_clause_iff, Record.upsertKey?,
    List.isEmpty_eq_false_iff.2 hne, Bool.false_or]
  cases r.isDeleted with
  | true => simp
  | false =>
    rw [if_neg Bool.false_ne_true, Option.map_eq_some_iff]
    constructor
    · rintro ⟨⟨hpartition, -⟩, htexts⟩
      refine ⟨texts, htexts, ?_⟩
      rw [hpartition, ← hvalues]
    · rintro ⟨texts', htexts', rfl⟩
      have same : texts' = texts := (List.map_inj_right fun _ _ => Value.string.inj).1 hvalues
      exact ⟨⟨rfl, rfl⟩, same ▸ htexts'⟩

section Records

variable {records : Collection} {s : Record} (hw : records.WellFormed)
  (hkeys : ∀ path ∈ keys, path.IsKeys) (hkey : key.IsPlain keys)
include hw hkeys hkey

/-- A record that is found under a key has it. -/
theorem stores_of_first?_key (h : records.first? (key.clause keys) = some r) :
    records.Stores r ∧ r.upsertKey? keys = some key := by
  obtain ⟨stored, holds⟩ := stores_of_first? hw h
  exact ⟨stored, (UpsertKey.holds_clause_iff hkeys hkey).1 holds⟩

/-- No record has a key under which none is found. -/
theorem upsertKey?_ne_of_first? (h : records.first? (key.clause keys) = none)
    (hr : records.Stores r) : r.upsertKey? keys ≠ some key := by
  rw [Ne, ← UpsertKey.holds_clause_iff hkeys hkey, (first?_eq_none_iff hw).1 h r hr]
  exact Bool.false_ne_true

/-- A new record is found under its key if it is the only one to have it. -/
theorem first?_key_insert_of_none (hnew : Keyed.get? r.id records = none)
    (hnone : records.first? (key.clause keys) = none) (hr : r.upsertKey? keys = some key) :
    Collection.first? (key.clause keys) (Keyed.insert r.id r records) = some r :=
  first?_insert_of_none hw hnew hnone ((UpsertKey.holds_clause_iff hkeys hkey).2 hr)

/-- A new record is not found under another key. -/
theorem first?_key_insert_of_ne (hnew : Keyed.get? r.id records = none)
    (hr : r.upsertKey? keys ≠ some key) :
    Collection.first? (key.clause keys) (Keyed.insert r.id r records) =
      records.first? (key.clause keys) := by
  rw [Ne, ← UpsertKey.holds_clause_iff hkeys hkey, Bool.not_eq_true] at hr
  exact first?_insert_of_not_holds hw hnew hr

/-- A record that is rewritten in place with its key is found where it was found before. -/
theorem first?_key_insert_of_stores (hr : records.Stores r) (hid : s.id = r.id)
    (hcreated : s.createdAt = r.createdAt) (hsame : s.upsertKey? keys = r.upsertKey? keys) :
    Collection.first? (key.clause keys) (Keyed.insert s.id s records) =
      (records.first? (key.clause keys)).map fun t => if t.id = s.id then s else t := by
  refine first?_insert_of_stores hw hr hid hcreated ?_
  rw [Bool.eq_iff_iff, UpsertKey.holds_clause_iff hkeys hkey, UpsertKey.holds_clause_iff hkeys hkey,
    hsame]

end Records

/-! ## Merging -/

/-- A draft that is merged into a record with its key leaves the key as it is. -/
theorem Record.upsertKey?_updated (hkeys : ∀ path ∈ keys, path.IsKeys)
    (hplain : draft.IsPlain keys) (hr : r.upsertKey? keys = some key)
    (hdraft : draft.upsertKey? keys = some key) (way : UpdateWay) (now : Instant) (actor : Actor) :
    (Store.updated draft.payload way now actor r).upsertKey? keys = some key := by
  rw [Draft.upsertKey?_eq hplain] at hdraft
  rw [upsertKey?] at hr ⊢
  have live : (Store.updated draft.payload way now actor r).isDeleted = r.isDeleted := rfl
  rw [live]
  split at hr
  · cases hr
  · next hne =>
    split at hdraft
    · cases hdraft
    obtain ⟨texts, htexts, rfl⟩ := Option.map_eq_some_iff.1 hr
    obtain ⟨texts', htexts', heq⟩ := Option.map_eq_some_iff.1 hdraft
    have same : texts' = texts :=
      (List.map_inj_right fun _ _ => Value.string.inj).1 (congrArg UpsertKey.values heq)
    rw [same] at htexts'
    have length := Value.length_of_stringsAt? htexts
    rw [Value.stringsAt?_eq_some_iff length] at htexts htexts'
    have merged : (Store.updated draft.payload way now actor r).payload.stringsAt? keys =
        some texts := by
      refine (Value.stringsAt?_eq_some_iff length).2 fun entry hentry => ?_
      exact Value.get?_merge_string (hkeys _ (List.of_mem_zip hentry).1) way (htexts entry hentry)
        (htexts' entry hentry)
    rw [if_neg hne, merged]
    rfl

end RecordStore
