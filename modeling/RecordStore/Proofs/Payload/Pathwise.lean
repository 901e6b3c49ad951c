import RecordStore.Proofs.Payload.Merge
import RecordStore.Proofs.Value.Every

/-!
# The law of merging at every path

At a path of keys on which both payloads have objects, what a merged payload has depends only on what
both payloads have there (`Value.MergedAt`). The ways of merging but replacement differ in what they do
with arrays: without arrays they all come to the same (`Value.mergeWith_eq_of_no_arrays`).
-/

namespace RecordStore

namespace Value

/-- What comes of two arrays that are merged. -/
def AreItemsMerged : (way : UpdateWay) → (old new : List Value) → (merged : Option Value) → Prop
  | .replace, _, new, merged => merged = some (.array new)
  | .mergeButReplaceArrays, _, new, merged => merged = some (.array new)
  | .mergeButConcatArrays, old, new, merged => merged = some (.array (old ++ new))
  | .mergeButKeepArrays, old, _, merged => merged = some (.array old)
  | .merge, old, new, merged =>
    ∃ items, merged = some (.array items) ∧ items.length = max old.length new.length ∧
      (∀ (j : Nat) (a b : Value), old[j]? = some a → new[j]? = some b →
        items[j]? = some (a.merge .merge b)) ∧
      (∀ j : Nat, new[j]? = none → items[j]? = old[j]?) ∧
      ∀ j : Nat, old[j]? = none → items[j]? = new[j]?

/-- What comes of two values that are merged in any way but replacement and each of which may be
missing. -/
structure MergedAt (way : UpdateWay) (old new merged : Option Value) : Prop where
  /-- What the incoming payload does not mention is neither lost nor changed. -/
  kept : new = none → merged = old
  added : old = none → merged = new
  objects : ∀ olds news, old = some (.object olds) → new = some (.object news) →
    ∃ fields, merged = some (.object fields) ∧
      ∀ k, k ∈ Keyed.keys fields ↔ k ∈ Keyed.keys olds ∨ k ∈ Keyed.keys news
  arrays : ∀ olds news, old = some (.array olds) → new = some (.array news) →
    AreItemsMerged way olds news merged
  /-- An existing array outlives an incoming value that is none. -/
  keptArray : ∀ a b, way = .mergeButKeepArrays → old = some a → new = some b → a.isArray →
    ¬ b.isArray → merged = some a
  taken : ∀ a b, old = some a → new = some b → ¬ (a.isObject ∧ b.isObject) →
    ¬ (a.isArray ∧ b.isArray) → ¬ (way = .mergeButKeepArrays ∧ a.isArray) → merged = some b

variable {way : UpdateWay}

theorem merge_eq_mergeWith (hway : way ≠ .replace) (old new : Value) :
    old.merge way new = mergeWith way old new := by
  cases way with
  | replace => exact absurd rfl hway
  | _ => rfl

/-! ## The shapes of what is merged -/

/-- Values that have not the same shape are not combined. -/
theorem mergeWith_eq_incoming {old new : Value} (hobject : ¬ (old.isObject ∧ new.isObject))
    (harray : ¬ (old.isArray ∧ new.isArray)) (hkeep : ¬ (way = .mergeButKeepArrays ∧ old.isArray)) :
    mergeWith way old new = new := by
  cases old with
  | array olds =>
    cases new with
    | array news => exact absurd ⟨rfl, rfl⟩ harray
    | _ => exact if_neg fun hkept => hkeep ⟨hkept, rfl⟩
  | object olds =>
    cases new with
    | object news => exact absurd ⟨rfl, rfl⟩ hobject
    | _ => rfl
  | _ => cases new <;> rfl

theorem mergeWith_keepArrays {old : Value} (h : old.isArray) (new : Value) :
    mergeWith .mergeButKeepArrays old new = old := by
  cases old with
  | array olds => cases new <;> rfl
  | _ => cases h

theorem mem_keys_mergeFields {k : String} {old new : Fields} :
    k ∈ Keyed.keys (mergeFields way old new) ↔ k ∈ Keyed.keys old ∨ k ∈ Keyed.keys new := by
  rw [← Keyed.contains_iff_mem_keys, ← Keyed.contains_iff_mem_keys, ← Keyed.contains_iff_mem_keys,
    Keyed.contains, Keyed.contains, Keyed.contains, get?_mergeFields]
  cases Keyed.get? k old <;> cases Keyed.get? k new <;> simp [mergeSome]

theorem length_mergeItems (old new : List Value) :
    (mergeItems way old new).length = max old.length new.length := by
  induction old generalizing new with
  | nil => cases new <;> simp [mergeItems]
  | cons a old ih =>
    cases new with
    | nil => simp [mergeItems]
    | cons b new =>
      rw [mergeItems, List.length_cons, List.length_cons, List.length_cons, ih]
      omega

theorem areItemsMerged_mergeWith (old new : List Value) :
    AreItemsMerged way old new (some (mergeWith way (.array old) (.array new))) := by
  cases way with
  | merge =>
    refine ⟨mergeItems .merge old new, rfl, length_mergeItems old new, ?_, ?_, ?_⟩
    · intro j a b ha hb
      rw [getElem?_mergeItems, ha, hb]
      rfl
    · intro j hnone
      rw [getElem?_mergeItems, hnone, mergeSome_none]
    · intro j hnone
      rw [getElem?_mergeItems, hnone, none_mergeSome]
  | _ => rfl

theorem mergedAt_mergeSome (old new : Option Value) :
    MergedAt way old new (mergeSome way old new) where
  kept := by
    rintro rfl
    exact mergeSome_none way old
  added := by
    rintro rfl
    exact none_mergeSome way new
  objects := by
    rintro olds news rfl rfl
    exact ⟨mergeFields way olds news, rfl, fun k => mem_keys_mergeFields⟩
  arrays := by
    rintro olds news rfl rfl
    exact areItemsMerged_mergeWith olds news
  keptArray := by
    rintro a b rfl rfl rfl ha -
    exact congrArg some (mergeWith_keepArrays ha b)
  taken := by
    rintro a b rfl rfl hobject harray hkeep
    exact congrArg some (mergeWith_eq_incoming hobject harray hkeep)

/-! ## Payloads without arrays -/

theorem mergeFields_congr {other : UpdateWay} {old new : Fields}
    (h : ∀ entry ∈ new, ∀ previous, Keyed.get? entry.1 old = some previous →
      mergeWith way previous entry.2 = mergeWith other previous entry.2) :
    mergeFields way old new = mergeFields other old new := by
  induction new with
  | nil => rfl
  | cons entry new ih =>
    obtain ⟨k, v⟩ := entry
    obtain ⟨head, tail⟩ := List.forall_mem_cons.1 h
    rw [mergeFields, mergeFields, ih tail]
    cases hk : Keyed.get? k old with
    | none => rfl
    | some previous => exact congrArg (Keyed.insert k · _) (head previous hk)

/-- The ways of merging differ in what they do with arrays only. -/
theorem mergeWith_eq_of_no_arrays (other : UpdateWay) {old new : Value}
    (hold : old.Every (·.isArray = false)) (hnew : new.Every (·.isArray = false)) :
    mergeWith way old new = mergeWith other old new := by
  induction new using Value.induction generalizing old with
  | leaf new harray hobject =>
    rw [mergeWith_eq_incoming, mergeWith_eq_incoming] <;> simp [harray, hobject, hold.self]
  | array items => exact absurd hnew.self (by simp [isArray])
  | object news ih =>
    have harray : old.isArray = false := hold.self
    cases old with
    | object olds =>
      rw [mergeWith, mergeWith]
      exact congrArg Value.object (mergeFields_congr fun entry hentry previous hprevious =>
        ih entry hentry (hold.field (Keyed.mem_of_get? hprevious)) (hnew.field hentry))
    | _ => rw [mergeWith_eq_incoming, mergeWith_eq_incoming] <;> simp [isObject, harray]

/-! ## The law -/

/-- At every path of keys on which both payloads have objects, the merged payload has what comes of
what both have there. If there is no array in them, it does not matter which way they are merged. -/
theorem merge_pathwise (hway : way ≠ .replace) (existing incoming : Value) :
    (∀ path : Path, path.IsKeys → Path.HasObjects path.segments existing →
      Path.HasObjects path.segments incoming →
        MergedAt way (path.get? existing) (path.get? incoming)
          (path.get? (existing.merge way incoming))) ∧
      (existing.Every (·.isArray = false) → incoming.Every (·.isArray = false) →
        ∀ other, other ≠ .replace → existing.merge other incoming = existing.merge way incoming) := by
  rw [merge_eq_mergeWith hway]
  constructor
  · intro path hpath hexisting hincoming
    rw [Path.get?, Path.get?, Path.get?, follow?_mergeWith hpath hexisting hincoming]
    exact mergedAt_mergeSome _ _
  · intro hexisting hincoming other hother
    rw [merge_eq_mergeWith hother]
    exact mergeWith_eq_of_no_arrays way hexisting hincoming

/-- Arrays two objects deep, and an update without arrays. -/
theorem merge_pathwise_profile :
    (let existing : Value := .object [("profile", .object [("city", .string "Oslo"),
        ("tags", .array [.int 1, .int 2])])]
      let incoming : Value := .object [("profile", .object [("tags", .array [.int 3])])]
      let path : Path := ⟨[.key "profile", .key "tags"]⟩
      UpdateWay.merge ≠ .replace ∧ path.IsKeys ∧ Path.HasObjects path.segments existing ∧
        Path.HasObjects path.segments incoming ∧
        MergedAt .merge (some (.array [.int 1, .int 2])) (some (.array [.int 3]))
          (path.get? (existing.merge .merge incoming))) ∧
      (let existing : Value := .object [("profile", .object [("city", .string "Oslo")])]
        let incoming : Value := .object [("profile", .object [("age", .int 31)])]
        existing.Every (·.isArray = false) ∧ incoming.Every (·.isArray = false) ∧
          existing.merge .mergeButKeepArrays incoming = existing.merge .merge incoming) := by
  refine ⟨?_, ?_⟩
  · intro existing incoming path
    have hpath : path.IsKeys := by decide
    have hexisting : Path.HasObjects path.segments existing :=
      Path.hasObjects_of_follow? (w := .array [.int 1, .int 2]) hpath (by rfl)
    have hincoming : Path.HasObjects path.segments incoming :=
      Path.hasObjects_of_follow? (w := .array [.int 3]) hpath (by rfl)
    have hway : UpdateWay.merge ≠ .replace := by decide
    exact ⟨hway, hpath, hexisting, hincoming,
      (merge_pathwise hway existing incoming).1 path hpath hexisting hincoming⟩
  · intro existing incoming
    have hexisting : existing.Every (·.isArray = false) := ⟨rfl, ⟨rfl, rfl, trivial⟩, trivial⟩
    have hincoming : incoming.Every (·.isArray = false) := ⟨rfl, ⟨rfl, rfl, trivial⟩, trivial⟩
    have hway : UpdateWay.merge ≠ .replace := by decide
    exact ⟨hexisting, hincoming,
      (merge_pathwise hway existing incoming).2 hexisting hincoming .mergeButKeepArrays (by decide)⟩

end Value

end RecordStore
