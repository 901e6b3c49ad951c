import RecordStore.Catalog.Relational
import RecordStore.Proofs.Outcome

/-!
# Rows in a table

A row that has been encoded for the table is read back as it was (`StoredRow.read_ofRow`): the name of
a type determines the type, and the text of a set of types is read as the list of their names.
-/

namespace RecordStore

/-! ## Types -/

namespace LeafType

theorem ofName?_name (t : LeafType) : ofName? t.name = some t := by
  cases t <;> rfl

theorem ofValue?_toValue (t : LeafType) : ofValue? t.toValue = some t := by
  cases t <;> rfl

/-- The name of a type stands in quotes, and nothing in it ends or escapes it. -/
theorem readValue_text (t : LeafType) (depth fuel : Nat) (rest : List Char) :
    Value.readValue depth (fuel + 1) (t.toValue.text ++ rest) = some (t.toValue, rest) := by
  cases t <;> rfl

theorem readItems_text (depth : Nat) (rest : List Char) (t : LeafType) (ts : List LeafType) :
    ∀ fuel, ts.length + 1 < fuel →
      Value.readItems depth fuel (Value.itemsText ((t :: ts).map toValue) ++ ']' :: rest) =
        some ((t :: ts).map toValue, rest) := by
  induction ts generalizing t with
  | nil =>
    intro fuel hfuel
    obtain ⟨fuel, rfl⟩ : ∃ n, fuel = n + 2 := ⟨fuel - 2, by simp at hfuel; omega⟩
    have first := t.readValue_text depth fuel (']' :: rest)
    show Value.readItems depth (fuel + 2) (t.toValue.text ++ ']' :: rest) = _
    rw [Value.readItems, first]
    rfl
  | cons next ts ih =>
    intro fuel hfuel
    rw [List.length_cons] at hfuel
    obtain ⟨fuel, rfl⟩ : ∃ n, fuel = n + 2 := ⟨fuel - 2, by omega⟩
    have others := ih next (fuel + 1) (by omega)
    have text : Value.itemsText ((t :: next :: ts).map toValue) ++ ']' :: rest =
        t.toValue.text ++ ',' :: (Value.itemsText ((next :: ts).map toValue) ++ ']' :: rest) := by
      simp [Value.itemsText]
    rw [text, Value.readItems, t.readValue_text]
    show (Value.readItems depth (fuel + 1) _).map _ = _
    rw [others]
    rfl

end LeafType

/-! ## Sets of types -/

namespace TypeSet

theorem readValue_types (depth fuel : Nat) (t : LeafType) (ts : List LeafType)
    (hfuel : ts.length + 1 < fuel) :
    Value.readValue (depth + 1) (fuel + 1) (Value.array ((t :: ts).map LeafType.toValue)).text =
      some (.array ((t :: ts).map LeafType.toValue), []) := by
  have opened : Value.readValue (depth + 1) (fuel + 1)
      (Value.array ((t :: ts).map LeafType.toValue)).text =
        (Value.readItems depth fuel
          (Value.itemsText ((t :: ts).map LeafType.toValue) ++ [']'])).map
            fun read => (.array read.1, read.2) := by
    cases ts <;> rfl
  rw [opened, LeafType.readItems_text depth [] t ts fuel hfuel]
  rfl

theorem read?_text (types : TypeSet) : Value.read? types.text = some types.toValue := by
  unfold Value.read? text Value.render
  rw [String.toList_ofList]
  unfold toValue
  have few : types.toList.length ≤ 5 := List.length_filter_le _ LeafType.all
  cases htypes : types.toList with
  | nil => rfl
  | cons t ts =>
    rw [htypes, List.length_cons] at few
    have long : 3 ≤ (Value.array ((t :: ts).map LeafType.toValue)).text.length := by
      cases ts with
      | nil => simp [Value.text, Value.itemsText, LeafType.toValue, quotedText]
      | cons u us =>
        simp [Value.text, Value.itemsText, LeafType.toValue, quotedText]
        omega
    generalize hlength : (Value.array ((t :: ts).map LeafType.toValue)).text.length = length at long
    have read := readValue_types 126 (2 * length + 1) t ts (by omega)
    dsimp only
    rw [hlength, Value.maxDepth, read]
    rfl

theorem ofList_toList (types : TypeSet) : ofList types.toList = types := by
  rcases types with ⟨_ | _, _ | _, _ | _, _ | _, _ | _⟩ <;> rfl

theorem mapM_ofValue? (ts : List LeafType) :
    (ts.map LeafType.toValue).mapM LeafType.ofValue? = some ts := by
  induction ts with
  | nil => rfl
  | cons t rest ih =>
    rw [List.map_cons, List.mapM_cons, LeafType.ofValue?_toValue, ih]
    rfl

theorem ofText?_text (types : TypeSet) : ofText? types.text = some types := by
  rw [ofText?, read?_text]
  show (((types.toList.map LeafType.toValue).mapM LeafType.ofValue?).map ofList) = some types
  rw [mapM_ofValue?]
  exact congrArg some types.ofList_toList

end TypeSet

/-! ## Rows -/

namespace StoredRow

theorem readType_name (t : LeafType) : readType t.name = .ok t := by
  rw [readType, t.ofName?_name]

theorem readTypes_text (types : TypeSet) : readTypes types.text = .ok types := by
  rw [readTypes, types.ofText?_text]

/-- A stored row is read as the row that it has been made of. -/
theorem read_ofRow (row : FieldRow) : (ofRow row).read = .ok row := by
  obtain ⟨p, path, type, arrayTypes, valueTypes, isCompressed, createdAt, updatedAt⟩ := row
  cases arrayTypes <;> simp [read, ofRow, readType_name, readTypes_text, Except.map]

theorem ofRow_inj {row other : FieldRow} (h : ofRow row = ofRow other) : row = other := by
  have read : Except.ok row = Except.ok other (ε := StoreError) := by
    rw [← read_ofRow, h, read_ofRow]
  exact Except.ok.inj read

theorem mapM_read (rows : List FieldRow) : (rows.map ofRow).mapM read = .ok rows := by
  induction rows with
  | nil => rfl
  | cons row rest ih =>
    rw [List.map_cons, List.mapM_cons, read_ofRow, ih]
    rfl

end StoredRow

end RecordStore
