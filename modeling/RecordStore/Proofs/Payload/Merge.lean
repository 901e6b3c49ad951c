import RecordStore.Merge
import RecordStore.Path

/-!
# Merging at a path

What a merged object has under a key and a merged array at a position: where one of the two payloads
has nothing, what the other has (`Value.mergeSome`). Along a path of keys on which both payloads have
objects this goes on from one key to the next (`Value.follow?_mergeWith`).
-/

namespace RecordStore

/-! ## Paths of keys -/

/-- All segments are keys of objects. -/
def Segment.AreKeys (segments : List Segment) : Prop :=
  ∀ segment ∈ segments, ∃ name, segment = .key name

/-- The path leads through objects only. -/
def Path.IsKeys (path : Path) : Prop := Segment.AreKeys path.segments

instance (segment : Segment) : Decidable (∃ name, segment = .key name) :=
  match segment with
  | .key name => .isTrue ⟨name, rfl⟩
  | .index _ => .isFalse nofun
  | .wildcard => .isFalse nofun

instance (path : Path) : Decidable path.IsKeys :=
  inferInstanceAs (Decidable (∀ segment ∈ path.segments, ∃ name, segment = .key name))

theorem Segment.AreKeys.of_cons {segment : Segment} {rest : List Segment}
    (h : AreKeys (segment :: rest)) : (∃ name, segment = .key name) ∧ AreKeys rest :=
  ⟨h segment List.mem_cons_self, fun other hother => h other (List.mem_cons_of_mem _ hother)⟩

/-- There is an object at every proper prefix of some segments. -/
def Path.HasObjects (segments : List Segment) (v : Value) : Prop :=
  ∀ n < segments.length, ∃ fields, follow? (segments.take n) v = some (.object fields)

namespace Path

variable {segment : Segment} {segments rest : List Segment} {v w : Value}

theorem follow?_key (name : String) (rest : List Segment) (fields : Fields) :
    follow? (.key name :: rest) (.object fields) =
      (Keyed.get? name fields).bind (follow? rest) := rfl

theorem HasObjects.exists_object (h : HasObjects (segment :: rest) v) :
    ∃ fields, v = .object fields := by
  obtain ⟨fields, hfields⟩ := h 0 (Nat.succ_pos _)
  exact ⟨fields, Option.some.inj hfields⟩

theorem HasObjects.of_cons (h : HasObjects (segment :: rest) v) (hstep : step? v segment = some w) :
    HasObjects rest w := by
  intro n hn
  obtain ⟨fields, hfields⟩ := h (n + 1) (Nat.succ_lt_succ hn)
  rw [List.take_succ_cons, follow?, hstep, Option.bind_some] at hfields
  exact ⟨fields, hfields⟩

/-- A path of keys that is followed to its end leads through objects. -/
theorem hasObjects_of_follow? (hkeys : Segment.AreKeys segments) (h : follow? segments v = some w) :
    HasObjects segments v := by
  induction segments generalizing v with
  | nil => exact fun n hn => absurd hn (Nat.not_lt_zero n)
  | cons segment rest ih =>
    obtain ⟨⟨name, rfl⟩, hrest⟩ := hkeys.of_cons
    obtain ⟨x, hx, hw⟩ := Option.bind_eq_some_iff.1 h
    intro n hn
    cases n with
    | zero =>
      cases v with
      | object fields => exact ⟨fields, rfl⟩
      | _ => cases hx
    | succ n =>
      obtain ⟨fields, hfields⟩ := ih hrest hw n (Nat.lt_of_succ_lt_succ hn)
      exact ⟨fields, by rw [List.take_succ_cons, follow?, hx, Option.bind_some, hfields]⟩

end Path

/-! ## Merging -/

namespace Value

/-- What is merged from two values each of which may be missing. -/
def mergeSome (way : UpdateWay) : (existing incoming : Option Value) → Option Value
  | old, none => old
  | none, some v => some v
  | some a, some b => some (mergeWith way a b)

@[simp]
theorem mergeSome_none (way : UpdateWay) (old : Option Value) : mergeSome way old none = old := by
  cases old <;> rfl

@[simp]
theorem none_mergeSome (way : UpdateWay) (new : Option Value) : mergeSome way none new = new := by
  cases new <;> rfl

variable {way : UpdateWay}

theorem get?_mergeFields (way : UpdateWay) (k : String) (old new : Fields) :
    Keyed.get? k (mergeFields way old new) =
      mergeSome way (Keyed.get? k old) (Keyed.get? k new) := by
  induction new with
  | nil => rw [mergeFields, Keyed.get?_nil, mergeSome_none]
  | cons entry new ih =>
    obtain ⟨j, v⟩ := entry
    rw [mergeFields, Keyed.get?_cons]
    by_cases hj : j = k
    · rw [if_pos hj, hj, Keyed.get?_insert_self]
      cases Keyed.get? k old <;> rfl
    · rw [if_neg hj, Keyed.get?_insert_of_ne (Ne.symm hj), ih]

theorem getElem?_mergeItems (way : UpdateWay) (i : Nat) (old new : List Value) :
    (mergeItems way old new)[i]? = mergeSome way old[i]? new[i]? := by
  induction old generalizing new i with
  | nil => cases new <;> simp [mergeItems]
  | cons a old ih =>
    cases new with
    | nil => simp [mergeItems]
    | cons b new =>
      cases i with
      | zero => rfl
      | succ i => exact ih i new

/-- At a path of keys on which both payloads have objects the merged one has what is merged from what
both have there. -/
theorem follow?_mergeWith {segments : List Segment} {old new : Value}
    (hkeys : Segment.AreKeys segments) (hold : Path.HasObjects segments old)
    (hnew : Path.HasObjects segments new) :
    Path.follow? segments (mergeWith way old new) =
      mergeSome way (Path.follow? segments old) (Path.follow? segments new) := by
  induction segments generalizing old new with
  | nil => rfl
  | cons segment rest ih =>
    obtain ⟨⟨name, rfl⟩, hrest⟩ := hkeys.of_cons
    obtain ⟨olds, rfl⟩ := hold.exists_object
    obtain ⟨news, rfl⟩ := hnew.exists_object
    rw [mergeWith, Path.follow?_key, Path.follow?_key, Path.follow?_key, get?_mergeFields]
    cases ha : Keyed.get? name olds with
    | none => rw [none_mergeSome, Option.bind_none, none_mergeSome]
    | some a =>
      cases hb : Keyed.get? name news with
      | none => rw [mergeSome_none, Option.bind_none, mergeSome_none]
      | some b => exact ih hrest (hold.of_cons ha) (hnew.of_cons hb)

/-- A string at a path of keys that both payloads have there stays there. -/
theorem get?_merge_string {path : Path} (hpath : path.IsKeys) (way : UpdateWay) {old new : Value}
    {s : String} (hold : path.get? old = some (.string s)) (hnew : path.get? new = some (.string s)) :
    path.get? (old.merge way new) = some (.string s) := by
  have merged : path.get? (mergeWith way old new) = some (.string s) := by
    rw [Path.get?, follow?_mergeWith hpath (Path.hasObjects_of_follow? hpath hold)
      (Path.hasObjects_of_follow? hpath hnew)]
    rw [Path.get?] at hold hnew
    rw [hold, hnew]
    rfl
  cases way with
  | replace => exact hnew
  | _ => exact merged

end Value

end RecordStore
