import RecordStore.Proofs.Path.Lookup
import RecordStore.Proofs.Sql.Attribute
import RecordStore.Proofs.Sql.Payload
import RecordStore.Sql.Statement

/-!
# Order of rows

Data are ordered like the values that they represent (`Sql.Represents.compare_eq`). SQL and the
dotted keys of documents find the same at the names of a path unless an object on the way has no
field with the name but one whose key goes on behind it with a NUL (`Sql.follow?_names`,
`Document.lookup?_payloadKey`). So both backends compare records alike by the keys that mean the
same to them (`Record.compareRows_eq`).
-/

namespace RecordStore

/-! ## Data -/

namespace Sql

/-- Data are ordered like what they represent: null before integers before texts. -/
theorem Represents.compare_eq {a b : Datum} {x y : Value} (ha : Represents a x)
    (hb : Represents b y) : a.compare b = x.compare y := by
  cases ha with
  | null => cases hb <;> rfl
  | text s =>
    cases hb with
    | text t => exact compare_text s t
    | _ => rfl
  | integer i hi =>
    cases hb with
    | integer j hj =>
      have doubles : (Value.int i).compare (.int j) =
          compare (Double.ofInt i).signed (Double.ofInt j).signed := rfl
      rw [compare_integer, doubles, Double.signed_ofInt hi, Double.signed_ofInt hj]
    | _ => rfl

/-- Booleans are ordered like the integers that stand for them. -/
theorem compare_ofBool (b c : Bool) :
    (Datum.ofBool b).compare (.ofBool c) = (Value.bool b).compare (.bool c) := by
  cases b <;> cases c <;> decide +kernel

end Sql

/-- The values that both backends put in the same order: null, integers that a double holds, and
texts without NUL. -/
def Value.IsSortable : Value → Prop
  | .null => True
  | .number (.int i) => i.natAbs ≤ 2 ^ 53
  | .string s => '\x00' ∉ s.toList
  | _ => False

theorem Sql.represents_of_isSortable {found : Option Value}
    (h : ∀ v, found = some v → v.IsSortable) : Represents (valueDatum found) (orNull found) := by
  cases found with
  | none => exact .null
  | some v =>
    have sortable := h v rfl
    cases v with
    | null => exact .null
    | string s => exact .text s
    | number n =>
      cases n with
      | int i =>
        have datum : valueDatum (some (.number (.int i))) = .integer i := ofNumber_int sortable
        rw [datum]
        exact .integer i sortable
      | double d => exact absurd sortable id
    | _ => exact absurd sortable id

/-! ## Names -/

/-- A key in printable ASCII that is neither an escape nor a position in an array. -/
structure Segment.IsNameKey (name : String) : Prop where
  printable : Text.IsPrintable name.toList
  no_backslash : '\\' ∉ name.toList
  no_position : position? name = none

/-- A segment that is the name of a field, and means the same to both backends. -/
def Segment.IsName : Segment → Prop
  | .key name => IsNameKey name
  | _ => False

theorem Segment.IsName.isUnsigned {segment : Segment} (h : segment.IsName) : segment.IsUnsigned := by
  cases segment with
  | key name => exact h.no_position
  | _ => exact trivial

/-- An object that has no field with a name has none whose key goes on behind the name with a NUL. -/
def Value.KeysEndAt (name : String) : Value → Prop
  | .object fields => Keyed.get? name fields = none →
    ∀ entry ∈ fields, ¬ (name.toList ++ ['\x00']).IsPrefix entry.1.toList
  | _ => True

/-- On the way along some names the keys end where the names do. -/
def Path.KeysEnd (v : Value) : List Segment → Prop
  | [] => True
  | segment :: rest => v.KeysEndAt segment.text ∧ ∀ w, step? v segment = some w → KeysEnd w rest

namespace Sql

theorem Label.isVerbatim_of_isNameKey {label : String} (h : Segment.IsNameKey label) :
    IsVerbatim label where
  no_backslash := h.no_backslash
  no_nul := h.printable.no_nul

/-- No key before a label is named by it. -/
theorem Label.not_lt_of_names {label key : String} (hlabel : IsVerbatim label)
    (h : names label key = true) : ¬ key < label := by
  have begins : label.toList.IsPrefix key.toList := by
    rw [← (names_iff_takeWhile hlabel).1 h]
    exact List.takeWhile_prefix _
  exact List.not_lt.2 begins.le

/-- A label names the field with that key, if there is one, since others that it names come later. -/
theorem find?_names_of_sorted {label : String} (hlabel : Label.IsVerbatim label) {fields : Fields}
    (hsorted : Keyed.Sorted fields) (hends : (Value.object fields).KeysEndAt label) :
    (fields.find? fun field => Label.names label field.1).map (·.2) = Keyed.get? label fields := by
  cases hget : Keyed.get? label fields with
  | none => exact (find?_names hlabel (hends hget)).trans hget
  | some v =>
    -- the keys before this one are smaller, and the label names none of those
    obtain ⟨before, after, rfl⟩ := List.append_of_mem (Keyed.mem_of_get? hget)
    have below : ∀ entry ∈ before, entry.1 < label := by
      rw [Keyed.Sorted, Keyed.keys_append, List.pairwise_append] at hsorted
      exact fun entry hentry =>
        hsorted.2.2 _ (List.mem_map_of_mem hentry) _ List.mem_cons_self
    have skipped : before.find? (fun field => Label.names label field.1) = none :=
      List.find?_eq_none.2 fun entry hentry hnames =>
        Label.not_lt_of_names hlabel hnames (below entry hentry)
    have named : Label.names label label = true :=
      (Label.names_iff hlabel (Label.not_isPrefix_of_no_nul hlabel.no_nul)).2 rfl
    rw [List.find?_append, skipped, Option.none_or, List.find?_cons, named]
    rfl

/-- One step of SQL by a name is the step of the path. -/
theorem step?_name {v : Value} {name : String} (hname : Segment.IsNameKey name)
    (hcanonical : v.Canonical) (hends : v.KeysEndAt name) :
    step? v (.key name) = Path.step? v (.key name) := by
  cases v with
  | object fields =>
    exact find?_names_of_sorted (Label.isVerbatim_of_isNameKey hname) hcanonical.1 hends
  | _ => rfl

theorem follow?_names {segments : List Segment} (hnames : ∀ segment ∈ segments, segment.IsName)
    {v : Value} (hcanonical : v.Canonical) (hends : Path.KeysEnd v segments) :
    follow? (segments.map readSegment) v = Path.follow? segments v := by
  induction segments generalizing v with
  | nil => rfl
  | cons segment rest ih =>
    obtain ⟨hsegment, hrest⟩ := List.forall_mem_cons.1 hnames
    obtain ⟨hhere, hthere⟩ := hends
    cases segment with
    | key name =>
      have read : readSegment (.key name) = .key name := rfl
      rw [List.map_cons, follow?, Path.follow?, read, step?_name hsegment hcanonical hhere]
      cases hstep : Path.step? v (.key name) with
      | none => rfl
      | some w =>
        have canonical : w.Canonical := by
          cases v with
          | object fields => exact hcanonical.field (Keyed.mem_of_get? hstep)
          | _ => cases hstep
        exact ih hrest canonical (hthere w hstep)
    | _ => exact absurd hsegment id

end Sql

namespace Document

/-- The dotted key of a path of names finds what the path finds in the payload. -/
theorem lookup?_payloadKey (r : Record) {path : Path} (hne : path.segments ≠ [])
    (hreadable : ∀ segment ∈ path.segments, segment.IsReadable)
    (hnames : ∀ segment ∈ path.segments, segment.IsName) :
    r.toValue.lookup? (payloadKey path) = path.get? r.payload := by
  have hwildcard : .wildcard ∉ path.segments := fun h => hnames _ h
  have payload : Value.lookupParts? (Record.payloadKey :: path.segments.map Segment.text) r.toValue =
      Value.lookupParts? (path.segments.map Segment.text) r.payload := rfl
  rw [Value.lookup?, dottedParts_payloadKey hne hreadable hwildcard, payload,
    Path.lookupParts?_texts hreadable hwildcard fun _ h => (hnames _ h).isUnsigned, Path.get?]

/-- The key of an attribute finds the attribute. -/
theorem lookup?_key (r : Record) (target : Column) :
    r.toValue.lookup? target.key = some (r.attribute target) := by
  cases target <;> rfl

end Document

/-! ## Sort keys -/

namespace SortTarget

/-- A target that both backends sort by alike: any attribute but the list of fields to index, and a
payload path of names. -/
def IsPortable : SortTarget → Prop
  | column target => target ≠ .fieldsToIndex
  | payload path => ∀ segment ∈ path.segments, segment.IsName

/-- A target with which a sort field may end up: its path is not empty, and reads as it is written. -/
def IsReadable : SortTarget → Prop
  | column _ => True
  | payload path => path.segments ≠ [] ∧ ∀ segment ∈ path.segments, segment.IsReadable

end SortTarget

namespace SortKey

theorem isReadable_of_resolve {item : SortItem} {key : SortKey} (h : resolve item = .ok key) :
    key.target.IsReadable := by
  obtain ⟨target, htarget, h⟩ := bind_eq_ok.1 h
  have readable : target.IsReadable := by
    unfold targetOf at htarget
    split at htarget
    · obtain ⟨path, hpath, htarget⟩ := bind_eq_ok.1 htarget
      cases htarget
      exact Path.isReadable_of_parse hpath
    · split at htarget
      · cases htarget
        trivial
      · obtain ⟨path, hpath, htarget⟩ := bind_eq_ok.1 htarget
        cases htarget
        exact Path.isReadable_of_parse hpath
  cases target with
  | column target =>
    cases h
    trivial
  | payload path =>
    dsimp only at h
    split at h
    · cases h
    · cases h
      exact readable

/-- Only attributes are added to the keys that are asked for. -/
theorem mem_complete {keys : List SortKey} {key : SortKey} (h : key ∈ complete keys) :
    key ∈ keys ∨ ∃ target, key.target = .column target := by
  have begun : key ∈ (if keys.isEmpty then [⟨.column .createdAt, .desc⟩] else keys) →
      key ∈ keys ∨ ∃ target, key.target = .column target := by
    intro hkey
    split at hkey
    · obtain rfl := List.mem_singleton.1 hkey
      exact .inr ⟨_, rfl⟩
    · exact .inl hkey
  unfold complete at h
  generalize (if keys.isEmpty then [⟨.column .createdAt, .desc⟩] else keys) = begin at h begun
  dsimp only at h
  split at h
  · exact begun h
  · rcases List.mem_append.1 h with h | h
    · exact begun h
    · obtain rfl := List.mem_singleton.1 h
      exact .inr ⟨_, rfl⟩

theorem isReadable_of_ofItems {items : List SortItem} {keys : List SortKey}
    (h : ofItems items = .ok keys) : ∀ key ∈ keys, key.target.IsReadable := by
  obtain ⟨resolved, hresolved, h⟩ := bind_eq_ok.1 h
  cases h
  intro key hkey
  rcases mem_complete hkey with hkey | ⟨target, htarget⟩
  · exact forall_of_mapM_ok hresolved (fun item _ key h => isReadable_of_resolve h) key hkey
  · rw [htarget]
    trivial

end SortKey

/-- A record that both backends put in the same place by some targets: doubles hold its instants, its
payload can be looked at and its values at the payload paths are sortable if there are any, and keys
end where the names on the way do. -/
structure Record.IsSortableBy (r : Record) (targets : List SortTarget) : Prop where
  canonical : r.payload.Canonical
  instants : r.HasExactInstants
  depth : ∀ path, .payload path ∈ targets → r.payload.depth ≤ Sql.maxLevels
  value : ∀ path, .payload path ∈ targets → ∀ v, path.get? r.payload = some v → v.IsSortable
  keysEnd : ∀ path, .payload path ∈ targets → Path.KeysEnd r.payload path.segments

namespace Record

variable {a b : Record} {targets : List SortTarget}

/-- What SQL finds at a payload path of names represents what documents find there. -/
theorem IsSortableBy.represents (h : a.IsSortableBy targets) {path : Path}
    (hmem : .payload path ∈ targets) (hnames : ∀ segment ∈ path.segments, segment.IsName) :
    Sql.Represents ((SortTarget.payload path).term.eval ⟨a, []⟩)
      ((path.get? a.payload).getD .null) := by
  have found : (SortTarget.payload path).term.eval ⟨a, []⟩ =
      Sql.valueDatum (Sql.follow? (path.segments.map Sql.readSegment) a.payload) := rfl
  rw [found, Sql.follow?_names hnames h.canonical (h.keysEnd path hmem)]
  exact Sql.represents_of_isSortable (h.value path hmem)

/-- Both backends compare two records alike by one target. -/
theorem compare_term_eq (ha : a.IsSortableBy targets) (hb : b.IsSortableBy targets) {key : SortKey}
    (hmem : key.target ∈ targets) (hportable : key.target.IsPortable)
    (hreadable : key.target.IsReadable) :
    (key.target.term.eval ⟨a, []⟩).compare (key.target.term.eval ⟨b, []⟩) =
      ((a.toValue.lookup? key.documentKey).getD .null).compare
        ((b.toValue.lookup? key.documentKey).getD .null) := by
  obtain ⟨target, direction⟩ := key
  cases target with
  | column target =>
    have datum : ∀ r : Record, (SortTarget.column target).term.eval ⟨r, []⟩ =
        Sql.columnDatum r target := fun _ => rfl
    rw [SortKey.documentKey, Document.lookup?_key, Document.lookup?_key, Option.getD_some,
      Option.getD_some, datum, datum]
    by_cases hshould : target = .shouldIndex
    · subst hshould
      exact Sql.compare_ofBool a.shouldIndex b.shouldIndex
    · exact (Sql.represents_attribute ha.instants hshould hportable).compare_eq
        (Sql.represents_attribute hb.instants hshould hportable)
  | payload path =>
    rw [SortKey.documentKey, Document.lookup?_payloadKey a hreadable.1 hreadable.2 hportable,
      Document.lookup?_payloadKey b hreadable.1 hreadable.2 hportable]
    exact (ha.represents hmem hportable).compare_eq (hb.represents hmem hportable)

/-- Both backends compare two records alike by some keys, in either direction. -/
theorem compareRows_eq {keys : List SortKey} (ha : a.IsSortableBy (keys.map SortKey.target))
    (hb : b.IsSortableBy (keys.map SortKey.target))
    (hportable : ∀ key ∈ keys, key.target.IsPortable)
    (hreadable : ∀ key ∈ keys, key.target.IsReadable) :
    SortKey.compareRows keys a b =
      Document.compareBy (SortKey.documentOrder keys) a.toValue b.toValue := by
  have first : ∀ key ∈ keys,
      (key.target.term.eval ⟨a, []⟩).compare (key.target.term.eval ⟨b, []⟩) =
        ((a.toValue.lookup? key.documentKey).getD .null).compare
          ((b.toValue.lookup? key.documentKey).getD .null) := fun key hkey =>
    compare_term_eq ha hb (List.mem_map_of_mem hkey) (hportable key hkey) (hreadable key hkey)
  -- the induction is on the keys, the targets of which what is assumed of the records depends on
  clear ha hb hportable hreadable
  induction keys with
  | nil => rfl
  | cons key rest ih =>
    obtain ⟨hfirst, hrest⟩ := List.forall_mem_cons.1 first
    rw [SortKey.compareRows, hfirst, ih hrest]
    rfl

end Record

end RecordStore
