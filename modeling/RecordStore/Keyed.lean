/-!
# Association lists in key order

A finite map is the list of its entries in strictly increasing key order (`Keyed.Sorted`). Look-up
and update work on any list of entries; the laws `get?_insert_self`, `get?_insert_of_ne` and
`get?_erase_of_ne` need no order, while erasing a key removes it from a sorted list only.
-/

namespace RecordStore

namespace Keyed

variable {κ α β : Type} [DecidableEq κ]

/-- The value of the first entry with a key. -/
def get? (k : κ) : List (κ × α) → Option α
  | [] => none
  | (j, v) :: rest => if j = k then some v else get? k rest

def contains (k : κ) (entries : List (κ × α)) : Bool := (get? k entries).isSome

/-- Sets the value of a key, in front of the first larger key if the key is new. -/
def insert [LT κ] [DecidableLT κ] (k : κ) (v : α) : List (κ × α) → List (κ × α)
  | [] => [(k, v)]
  | (j, w) :: rest =>
    if k < j then (k, v) :: (j, w) :: rest
    else if j = k then (k, v) :: rest
    else (j, w) :: insert k v rest

/-- Removes the first entry with a key. -/
def erase (k : κ) : List (κ × α) → List (κ × α)
  | [] => []
  | (j, v) :: rest => if j = k then rest else (j, v) :: erase k rest

/-- The map of a list of entries, in which the last entry of a key counts. -/
def ofList [LT κ] [DecidableLT κ] (entries : List (κ × α)) : List (κ × α) :=
  entries.foldl (fun map entry => insert entry.1 entry.2 map) []

def keys (entries : List (κ × α)) : List κ := entries.map Prod.fst

def values (entries : List (κ × α)) : List α := entries.map Prod.snd

def mapValues (f : α → β) (entries : List (κ × α)) : List (κ × β) :=
  entries.map fun entry => (entry.1, f entry.2)

def Sorted [LT κ] (entries : List (κ × α)) : Prop := (keys entries).Pairwise (· < ·)

/-! ## Look-up after an update -/

@[simp]
theorem get?_nil (k : κ) : get? k ([] : List (κ × α)) = none := rfl

theorem get?_cons (k j : κ) (v : α) (rest : List (κ × α)) :
    get? k ((j, v) :: rest) = if j = k then some v else get? k rest := rfl

@[simp]
theorem get?_insert_self [LT κ] [DecidableLT κ] (k : κ) (v : α)
    (entries : List (κ × α)) :
    get? k (insert k v entries) = some v := by
  induction entries with
  | nil => simp [insert, get?]
  | cons entry rest ih =>
    obtain ⟨j, w⟩ := entry
    rw [insert]
    split
    · simp [get?]
    · split
      · simp [get?]
      · next h => simp [get?, h, ih]

theorem get?_insert_of_ne [LT κ] [DecidableLT κ] {k j : κ} (h : j ≠ k) (v : α)
    (entries : List (κ × α)) :
    get? j (insert k v entries) = get? j entries := by
  induction entries with
  | nil => simp [insert, get?, h.symm]
  | cons entry rest ih =>
    obtain ⟨i, w⟩ := entry
    rw [insert]
    split
    · simp [get?, h.symm]
    · split
      · next hi => subst hi; simp [get?, h.symm]
      · simp [get?, ih]

theorem get?_erase_of_ne {k j : κ} (h : j ≠ k) (entries : List (κ × α)) :
    get? j (erase k entries) = get? j entries := by
  induction entries with
  | nil => rfl
  | cons entry rest ih =>
    obtain ⟨i, w⟩ := entry
    rw [erase]
    split
    · next hi => subst hi; simp [get?, h.symm]
    · simp [get?, ih]

end Keyed

end RecordStore
