import RecordStore.Keyed

/-!
# Sorted association lists

A list of entries in strictly increasing key order is a finite map: its entries are what look-up
finds (`Keyed.mem_iff_get?`), and insertion and erasure keep the order. To insert at a key that is
there replaces its value in place (`Keyed.insert_append_cons`).
-/

namespace RecordStore

/-- Lists with the same members are the same if an asymmetric relation orders both. -/
theorem eq_of_pairwise_of_mem_iff {α : Type} {r : α → α → Prop} (hr : ∀ a b, r a b → ¬ r b a)
    {items others : List α} (h : items.Pairwise r) (hothers : others.Pairwise r)
    (hsame : ∀ a, a ∈ items ↔ a ∈ others) : items = others := by
  have nodup : ∀ {list : List α}, list.Pairwise r → list.Nodup := fun hlist =>
    hlist.imp fun {a b} hab heq => by
      subst heq
      exact hr a a hab hab
  have perm := (List.perm_ext_iff_of_nodup (nodup h) (nodup hothers)).2 hsame
  exact perm.eq_of_pairwise (fun a b _ _ hab hba => absurd hba (hr a b hab)) h hothers

namespace Keyed

/-! ## Any keys -/

section

variable {κ α : Type} [DecidableEq κ]

theorem erase_sublist (k : κ) (entries : List (κ × α)) :
    (erase k entries).Sublist entries := by
  induction entries with
  | nil => exact List.Sublist.refl _
  | cons entry rest ih =>
    obtain ⟨j, w⟩ := entry
    rw [erase]
    split
    · exact List.sublist_cons_self _ _
    · exact ih.cons_cons _

variable [LT κ] [DecidableLT κ]

theorem get?_insert (k j : κ) (v : α) (entries : List (κ × α)) :
    get? j (insert k v entries) = if j = k then some v else get? j entries := by
  split
  · next h => rw [h, get?_insert_self]
  · next h => exact get?_insert_of_ne h v entries

theorem mem_insert {k : κ} {v : α} {entries : List (κ × α)} {entry : κ × α}
    (h : entry ∈ insert k v entries) :
    entry = (k, v) ∨ entry ∈ entries := by
  induction entries with
  | nil => simpa [insert] using h
  | cons first rest ih =>
    obtain ⟨j, w⟩ := first
    rw [insert] at h
    split at h
    · simpa using h
    · split at h
      · rcases List.mem_cons.1 h with h | h
        · exact Or.inl h
        · exact Or.inr (List.mem_cons_of_mem _ h)
      · rcases List.mem_cons.1 h with h | h
        · exact Or.inr (h ▸ List.mem_cons_self)
        · rcases ih h with h | h
          · exact Or.inl h
          · exact Or.inr (List.mem_cons_of_mem _ h)

theorem mem_values_insert {k : κ} {v w : α} {entries : List (κ × α)}
    (h : w ∈ values (insert k v entries)) : w = v ∨ w ∈ values entries := by
  obtain ⟨entry, hentry, rfl⟩ := List.mem_map.1 h
  exact (mem_insert hentry).imp (congrArg Prod.snd) (List.mem_map_of_mem ·)

/-- A new key adds one entry. -/
theorem perm_insert {k : κ} {entries : List (κ × α)} (h : get? k entries = none) (v : α) :
    (insert k v entries).Perm ((k, v) :: entries) := by
  induction entries with
  | nil => exact .refl _
  | cons first rest ih =>
    obtain ⟨j, w⟩ := first
    rw [get?_cons] at h
    rw [insert]
    split
    · exact .refl _
    · split
      · next hj =>
        rw [if_pos hj] at h
        cases h
      · next hj =>
        rw [if_neg hj] at h
        exact ((ih h).cons (j, w)).trans (.swap (k, v) (j, w) rest)

theorem mem_of_mem_ofList {entries : List (κ × α)} {entry : κ × α} (h : entry ∈ ofList entries) :
    entry ∈ entries := by
  suffices ∀ map : List (κ × α), entry ∈ entries.foldl (fun map e => insert e.1 e.2 map) map →
      entry ∈ map ∨ entry ∈ entries from (this [] h).resolve_left List.not_mem_nil
  clear h
  induction entries with
  | nil => exact fun _ => Or.inl
  | cons first rest ih =>
    intro map h
    rcases ih _ h with h | h
    · rcases mem_insert h with rfl | h
      · exact Or.inr List.mem_cons_self
      · exact Or.inl h
    · exact Or.inr (List.mem_cons_of_mem _ h)

theorem contains_ofList {entries : List (κ × α)} {k : κ} (h : k ∈ keys entries) :
    contains k (ofList entries) = true := by
  suffices ∀ map : List (κ × α), contains k map = true ∨ k ∈ keys entries →
      contains k (entries.foldl (fun map e => insert e.1 e.2 map) map) = true from this [] (.inr h)
  clear h
  induction entries with
  | nil => exact fun _ h => h.resolve_right List.not_mem_nil
  | cons first rest ih =>
    intro map h
    refine ih _ ?_
    by_cases hk : k = first.1
    · rw [hk, contains, get?_insert_self]
      exact Or.inl rfl
    · rw [contains, get?_insert_of_ne hk]
      exact h.imp_right fun h => (List.mem_cons.1 h).resolve_left hk

end

/-! ## Look-up -/

section

variable {κ α : Type} [DecidableEq κ] {k : κ} {v : α} {entries : List (κ × α)}

/-- What is looked up in two maps one after the other. -/
theorem get?_append (k : κ) (entries others : List (κ × α)) :
    get? k (entries ++ others) = (get? k entries).or (get? k others) := by
  induction entries with
  | nil => rfl
  | cons entry rest ih =>
    obtain ⟨j, v⟩ := entry
    rw [List.cons_append, get?_cons, get?_cons, ih]
    split <;> rfl

theorem get?_eq_none_iff : get? k entries = none ↔ ∀ entry ∈ entries, entry.1 ≠ k := by
  induction entries with
  | nil => simp
  | cons entry rest ih =>
    obtain ⟨j, w⟩ := entry
    rw [get?_cons]
    by_cases hj : j = k
    · simp [hj]
    · simp [hj, ih]

theorem get?_mapValues {β : Type} (f : α → β) :
    get? k (mapValues f entries) = (get? k entries).map f := by
  induction entries with
  | nil => rfl
  | cons entry rest ih =>
    obtain ⟨j, w⟩ := entry
    have head : mapValues f ((j, w) :: rest) = (j, f w) :: mapValues f rest := rfl
    rw [head, get?_cons, get?_cons, ih]
    split <;> rfl

theorem contains_iff_mem_keys : contains k entries = true ↔ k ∈ keys entries := by
  rw [contains, Option.isSome_iff_ne_none, ne_eq, get?_eq_none_iff]
  simp [keys]

theorem get?_eq_none_iff_not_mem_keys : get? k entries = none ↔ k ∉ keys entries := by
  rw [← contains_iff_mem_keys, contains]
  cases get? k entries <;> simp

theorem mem_of_get? (h : get? k entries = some v) : (k, v) ∈ entries := by
  induction entries with
  | nil => cases h
  | cons entry rest ih =>
    obtain ⟨j, w⟩ := entry
    rw [get?_cons] at h
    split at h
    · next hj =>
      cases h
      exact hj ▸ List.mem_cons_self
    · exact List.mem_cons_of_mem _ (ih h)

section

variable [LT κ] [DecidableLT κ]

theorem mem_keys_ofList : k ∈ keys (ofList entries) ↔ k ∈ keys entries := by
  constructor
  · intro h
    obtain ⟨entry, hentry, rfl⟩ := List.mem_map.1 h
    exact List.mem_map_of_mem (mem_of_mem_ofList hentry)
  · exact fun h => contains_iff_mem_keys.1 (contains_ofList h)

/-- The map of entries of which no two have one key has them all. -/
theorem mem_ofList_iff (h : ∀ a ∈ entries, ∀ b ∈ entries, a.1 = b.1 → a.2 = b.2) {entry : κ × α} :
    entry ∈ ofList entries ↔ entry ∈ entries := by
  refine ⟨mem_of_mem_ofList, fun hentry => ?_⟩
  obtain ⟨other, hother, hkey⟩ := List.mem_map.1 (mem_keys_ofList.2 (List.mem_map_of_mem hentry))
  have same : other = entry :=
    Prod.ext hkey (h other (mem_of_mem_ofList hother) entry hentry hkey)
  exact same ▸ hother

/-- Look-up in the map of entries that all are of one function. -/
theorem get?_ofList {f : κ → Option α} (h : ∀ entry ∈ entries, f entry.1 = some entry.2) (k : κ) :
    get? k (ofList entries) = if k ∈ keys entries then f k else none := by
  cases hv : get? k (ofList entries) with
  | none =>
    rw [if_neg]
    rw [← mem_keys_ofList, ← contains_iff_mem_keys, contains, hv]
    exact Bool.false_ne_true
  | some v =>
    have hmem := mem_of_mem_ofList (mem_of_get? hv)
    have hkey : k ∈ keys entries := List.mem_map_of_mem (f := Prod.fst) hmem
    rw [if_pos hkey, h _ hmem]

end

end

/-! ## Order -/

section

variable {κ α : Type} [LT κ] {k j : κ} {v : α} {entries : List (κ × α)}

theorem sorted_nil : Sorted ([] : List (κ × α)) := List.Pairwise.nil

theorem sorted_cons {rest : List (κ × α)} :
    Sorted ((k, v) :: rest) ↔ (∀ entry ∈ rest, k < entry.1) ∧ Sorted rest := by
  simp [Sorted, keys]

theorem Sorted.tail {rest : List (κ × α)} (h : Sorted ((k, v) :: rest)) : Sorted rest :=
  (sorted_cons.1 h).2

/-- Part of a sorted list is sorted. -/
theorem Sorted.sublist {part : List (κ × α)} (h : Sorted entries) (hpart : part.Sublist entries) :
    Sorted part :=
  List.Pairwise.sublist (hpart.map _) h

theorem Sorted.erase [DecidableEq κ] (h : Sorted entries) (k : κ) :
    Sorted (Keyed.erase k entries) :=
  h.sublist (erase_sublist k entries)

theorem Sorted.insert [DecidableEq κ] [DecidableLT κ] [Std.Trichotomous fun j k : κ => j < k]
    [Trans (fun j k : κ => j < k) (fun j k : κ => j < k) fun j k : κ => j < k]
    (h : Sorted entries) (k : κ) (v : α) : Sorted (Keyed.insert k v entries) := by
  induction entries with
  | nil => simp [Keyed.insert, Sorted, keys]
  | cons first rest ih =>
    obtain ⟨j, w⟩ := first
    obtain ⟨above, hrest⟩ := sorted_cons.1 h
    rw [Keyed.insert]
    by_cases hlt : k < j
    · rw [if_pos hlt, sorted_cons]
      refine ⟨fun entry hentry => ?_, h⟩
      rcases List.mem_cons.1 hentry with rfl | hentry
      · exact hlt
      · exact Trans.trans hlt (above entry hentry)
    rw [if_neg hlt]
    by_cases hj : j = k
    · rw [if_pos hj, sorted_cons]
      exact ⟨hj ▸ above, hrest⟩
    · rw [if_neg hj, sorted_cons]
      refine ⟨fun entry hentry => ?_, ih hrest⟩
      rcases mem_insert hentry with rfl | hentry
      · exact Decidable.byContradiction fun hgt =>
          hj (Std.Trichotomous.trichotomous j k hgt hlt)
      · exact above entry hentry

theorem sorted_ofList [DecidableEq κ] [DecidableLT κ] [Std.Trichotomous fun j k : κ => j < k]
    [Trans (fun j k : κ => j < k) (fun j k : κ => j < k) fun j k : κ => j < k]
    (entries : List (κ × α)) : Sorted (ofList entries) := by
  suffices ∀ map : List (κ × α), Sorted map →
      Sorted (entries.foldl (fun map entry => Keyed.insert entry.1 entry.2 map) map) from
    this [] sorted_nil
  induction entries with
  | nil => exact fun _ hmap => hmap
  | cons entry rest ih => exact fun map hmap => ih _ (hmap.insert entry.1 entry.2)

variable [Std.Asymm fun j k : κ => j < k]

theorem ne_of_lt (h : j < k) : j ≠ k := by
  rintro rfl
  exact Std.Asymm.asymm j j h h

theorem Sorted.nodup (h : Sorted entries) : entries.Nodup := by
  refine (List.pairwise_map.1 h).imp fun hlt heq => ?_
  exact ne_of_lt hlt (congrArg Prod.fst heq)

/-! ### Look-up in sorted lists -/

variable [DecidableEq κ]

theorem mem_iff_get? (h : Sorted entries) : (k, v) ∈ entries ↔ get? k entries = some v := by
  induction entries with
  | nil => simp
  | cons entry rest ih =>
    obtain ⟨j, w⟩ := entry
    obtain ⟨above, hrest⟩ := sorted_cons.1 h
    rw [get?_cons, List.mem_cons, ih hrest]
    by_cases hj : j = k
    · subst hj
      have absent : get? j rest = none :=
        get?_eq_none_iff.2 fun entry hentry => (ne_of_lt (above entry hentry)).symm
      simp [absent, eq_comm]
    · simp [hj, Ne.symm hj]

theorem contains_iff_mem (h : Sorted entries) :
    contains k entries = true ↔ ∃ v, (k, v) ∈ entries := by
  simp only [contains, Option.isSome_iff_exists, mem_iff_get? h]

theorem get?_erase_self (h : Sorted entries) : get? k (erase k entries) = none := by
  induction entries with
  | nil => rfl
  | cons entry rest ih =>
    obtain ⟨j, w⟩ := entry
    obtain ⟨above, hrest⟩ := sorted_cons.1 h
    rw [erase]
    by_cases hj : j = k
    · subst hj
      rw [if_pos rfl]
      exact get?_eq_none_iff.2 fun entry hentry => (ne_of_lt (above entry hentry)).symm
    · rw [if_neg hj, get?_cons, if_neg hj]
      exact ih hrest

theorem get?_erase (h : Sorted entries) (k j : κ) :
    get? j (erase k entries) = if j = k then none else get? j entries := by
  split
  · next hj => rw [hj, get?_erase_self h]
  · next hj => exact get?_erase_of_ne hj entries

/-- Sorted lists in which look-up finds the same are the same. -/
theorem Sorted.ext {other : List (κ × α)} (h : Sorted entries) (hother : Sorted other)
    (hsame : ∀ k, get? k entries = get? k other) : entries = other := by
  apply eq_of_pairwise_of_mem_iff (r := fun a b : κ × α => a.1 < b.1)
    (fun a b hab => Std.Asymm.asymm a.1 b.1 hab) (List.pairwise_map.1 h) (List.pairwise_map.1 hother)
  rintro ⟨k, v⟩
  rw [mem_iff_get? h, mem_iff_get? hother, hsame]

/-- Entries that are sorted already are the map of themselves. -/
theorem ofList_eq_self [DecidableLT κ] [Std.Trichotomous fun j k : κ => j < k]
    [Trans (fun j k : κ => j < k) (fun j k : κ => j < k) fun j k : κ => j < k]
    (h : Sorted entries) : ofList entries = entries := by
  refine (sorted_ofList entries).ext h fun k => ?_
  rw [get?_ofList (f := fun k => get? k entries) fun _ hentry => (mem_iff_get? h).1 hentry]
  by_cases hk : k ∈ keys entries
  · rw [if_pos hk]
  · rw [if_neg hk, get?_eq_none_iff_not_mem_keys.2 hk]

theorem erase_eq_filter (h : Sorted entries) (k : κ) :
    erase k entries = entries.filter fun entry => entry.1 ≠ k := by
  induction entries with
  | nil => rfl
  | cons entry rest ih =>
    obtain ⟨j, w⟩ := entry
    obtain ⟨above, hrest⟩ := sorted_cons.1 h
    rw [erase]
    by_cases hj : j = k
    · subst hj
      have others : rest.filter (fun entry => entry.1 ≠ j) = rest :=
        List.filter_eq_self.2 fun entry hentry => by simp [(ne_of_lt (above entry hentry)).symm]
      rw [if_pos rfl, List.filter_cons_of_neg (by simp), others]
    · rw [if_neg hj, ih hrest, List.filter_cons_of_pos (by simp [hj])]

/-- A sorted list has one entry of a key, or none. -/
theorem countP_key (h : Sorted entries) (k : κ) :
    entries.countP (fun entry => entry.1 = k) = if contains k entries then 1 else 0 := by
  induction entries with
  | nil => rfl
  | cons entry rest ih =>
    obtain ⟨j, w⟩ := entry
    obtain ⟨above, hrest⟩ := sorted_cons.1 h
    rw [List.countP_cons, contains, get?_cons]
    by_cases hj : j = k
    · subst hj
      have others : rest.countP (fun entry => entry.1 = j) = 0 :=
        List.countP_eq_zero.2 fun entry hentry => by simp [(ne_of_lt (above entry hentry)).symm]
      simp [others]
    · rw [ih hrest, contains]
      simp only [hj, decide_false, Bool.false_eq_true, if_false, Nat.add_zero]

end

variable {α : Type} {k j : String} {v : α} {entries : List (String × α)}

/-! ## Selection -/

/-- The entries whose values pass a test. -/
def select (p : α → Bool) (entries : List (String × α)) : List (String × α) :=
  entries.filter fun entry => p entry.2

theorem Sorted.select (h : Sorted entries) (p : α → Bool) : Sorted (Keyed.select p entries) :=
  List.Pairwise.sublist (List.filter_sublist.map _) h

theorem get?_select (h : Sorted entries) (p : α → Bool) :
    get? k (select p entries) = (get? k entries).filter p := by
  ext v
  rw [← mem_iff_get? (h.select p), select, List.mem_filter, mem_iff_get? h,
    Option.filter_eq_some_iff]

theorem values_select (p : α → Bool) (entries : List (String × α)) :
    values (select p entries) = (values entries).filter p := by
  rw [values, values, select, List.filter_map]
  rfl

/-- What is inserted is selected if it passes the test, and neither is what it replaces if it does
not. -/
theorem select_insert (h : Sorted entries) {p : α → Bool}
    (hold : ∀ w, get? k entries = some w → p w = p v) :
    select p (insert k v entries) =
      if p v then insert k v (select p entries) else select p entries := by
  refine Sorted.ext ((h.insert k v).select p) ?_ fun j => ?_
  · split
    · exact (h.select p).insert k v
    · exact h.select p
  rw [get?_select (h.insert k v), get?_insert]
  by_cases hj : j = k
  · subst hj
    cases hp : p v with
    | true => simp [hp]
    | false =>
      rw [if_pos rfl, if_neg Bool.false_ne_true, get?_select h]
      cases hw : get? j entries with
      | none => simp [hp]
      | some w =>
        have hpw : p w = false := (hold w hw).trans hp
        simp [Option.filter_some, hp, hpw]
  · rw [if_neg hj, ← get?_select h]
    split
    · rw [get?_insert, if_neg hj]
    · rfl

theorem select_erase (h : Sorted entries) (p : α → Bool) (k : String) :
    select p (erase k entries) = erase k (select p entries) := by
  refine Sorted.ext ((h.erase k).select p) ((h.select p).erase k) fun j => ?_
  rw [get?_select (h.erase k), get?_erase h, get?_erase (h.select p), get?_select h]
  split <;> rfl

theorem select_mapValues {p : α → Bool} {f : α → α} (hf : ∀ v ∈ values entries, p (f v) = p v) :
    select p (mapValues f entries) = mapValues f (select p entries) := by
  rw [select, select, mapValues, mapValues, List.filter_map]
  congr 1
  exact List.filter_congr fun entry hentry => hf entry.2 (List.mem_map_of_mem hentry)

/-! ## Replacement -/

/-- To insert at a key that is there replaces its value. -/
theorem insert_append_cons {before after : List (String × α)}
    (h : Sorted (before ++ (k, v) :: after)) (w : α) :
    insert k w (before ++ (k, v) :: after) = before ++ (k, w) :: after := by
  induction before with
  | nil => rw [List.nil_append, insert, if_neg (String.lt_irrefl k), if_pos rfl, List.nil_append]
  | cons entry before ih =>
    obtain ⟨j, u⟩ := entry
    rw [List.cons_append] at h ⊢
    obtain ⟨above, hrest⟩ := sorted_cons.1 h
    have below : j < k := above (k, v) (List.mem_append_right _ List.mem_cons_self)
    rw [insert, if_neg (String.lt_asymm below), if_neg (String.ne_of_lt below), ih hrest]
    rfl

theorem keys_mapValues {β : Type} (f : α → β) (entries : List (String × α)) :
    keys (mapValues f entries) = keys entries := by
  rw [keys, mapValues, List.map_map]
  rfl

/-- To replace a value changes no key. -/
theorem keys_insert_of_contains (h : Sorted entries) (hk : contains k entries = true) (v : α) :
    keys (insert k v entries) = keys entries := by
  obtain ⟨w, hw⟩ := (contains_iff_mem h).1 hk
  obtain ⟨before, after, rfl⟩ := List.append_of_mem hw
  rw [insert_append_cons h, keys, keys, List.map_append, List.map_append]
  rfl

theorem keys_append (before after : List (String × α)) :
    keys (before ++ after) = keys before ++ keys after := List.map_append

theorem mapValues_append {β : Type} (f : α → β) (before after : List (String × α)) :
    mapValues f (before ++ after) = mapValues f before ++ mapValues f after := List.map_append

end Keyed

end RecordStore
