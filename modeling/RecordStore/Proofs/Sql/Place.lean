import Mathlib.Data.List.TakeWhile
import RecordStore.Proofs.Payload.Meaning
import RecordStore.Proofs.Query.Plain
import RecordStore.Sql.Evaluation

/-!
# Places in the payload

What SQL finds at a place of a plain payload is what the steps of a path lead to
(`Sql.step?_eq_enter`), where a place that does not exist holds null. Further on a place follows one
step more (`Sql.Env.value?_snoc`), and a range over an array comes to the elements of the array
(`Sql.Env.value?_ofElement`).
-/

namespace RecordStore

namespace Sql

/-! ## Steps -/

/-- A label that stands for itself. -/
structure Label.IsVerbatim (label : String) : Prop where
  no_backslash : '\\' ∉ label.toList
  no_nul : '\x00' ∉ label.toList

theorem Label.isVerbatim_of_isPlainKey {label : String} (h : Text.IsPlainKey label) :
    IsVerbatim label where
  no_backslash := h.no_backslash
  no_nul := h.printable.no_nul

theorem Label.untilZero_eq (cs : List Char) :
    untilZero (cs.map Char.toNat) = (cs.takeWhile (· != '\x00')).map Char.toNat := by
  have same : ((· != 0) ∘ Char.toNat : Char → Bool) = (· != '\x00') := by
    funext c
    rw [Bool.eq_iff_iff, Function.comp_apply, bne_iff_ne, bne_iff_ne, not_iff_not]
    exact Char.toNat_inj (d := '\x00')
  rw [untilZero, List.takeWhile_map, same]

/-- A label that stands for itself names the keys that begin with it and end there or go on with a
NUL. -/
theorem Label.names_iff_takeWhile {label key : String} (hlabel : IsVerbatim label) :
    names label key = true ↔ key.toList.takeWhile (· != '\x00') = label.toList := by
  have plain : codes label = label.toList.map Char.toNat := by
    rw [codes, if_neg (by simpa using hlabel.no_backslash)]
  have whole : label.toList.takeWhile (· != '\x00') = label.toList := by
    rw [List.takeWhile_eq_self_iff]
    intro c hc
    rw [bne_iff_ne]
    rintro rfl
    exact hlabel.no_nul hc
  have injective : Function.Injective Char.toNat := fun a b h => Char.toNat_inj.1 h
  rw [names, plain, untilZero_eq, untilZero_eq, whole, beq_iff_eq, List.map_inj_right injective]
  exact eq_comm

theorem Label.names_iff {label key : String} (hlabel : IsVerbatim label)
    (hkey : ¬ (label.toList ++ ['\x00']).IsPrefix key.toList) :
    names label key = true ↔ key = label := by
  rw [names_iff_takeWhile hlabel, ← String.toList_inj]
  constructor
  · intro h
    have parts := List.takeWhile_append_dropWhile (p := (· != '\x00')) (l := key.toList)
    rw [h] at parts
    cases hrest : key.toList.dropWhile (· != '\x00') with
    | nil => rw [← parts, hrest, List.append_nil]
    | cons c rest =>
      have hc := List.head?_dropWhile_not (· != '\x00') key.toList
      rw [hrest] at hc
      obtain rfl : c = '\x00' := by simpa using hc
      exact absurd ⟨rest, by rw [← parts, hrest, List.append_assoc]; rfl⟩ hkey
  · intro h
    rw [h, List.takeWhile_eq_self_iff]
    intro c hc
    rw [bne_iff_ne]
    rintro rfl
    exact hlabel.no_nul hc

theorem Label.not_isPrefix_of_no_nul {label key : String} (hkey : '\x00' ∉ key.toList) :
    ¬ (label.toList ++ ['\x00']).IsPrefix key.toList :=
  fun h => hkey (h.subset (List.mem_append_right _ List.mem_cons_self))

/-- Of the keys of an object a label that stands for itself names the one that it is, unless another
one goes on behind it with a NUL. -/
theorem find?_names {label : String} (hlabel : Label.IsVerbatim label) {fields : Fields}
    (hfields : ∀ entry ∈ fields, ¬ (label.toList ++ ['\x00']).IsPrefix entry.1.toList) :
    (fields.find? fun field => Label.names label field.1).map (·.2) = Keyed.get? label fields := by
  induction fields with
  | nil => rfl
  | cons entry rest ih =>
    obtain ⟨key, v⟩ := entry
    have names := Label.names_iff hlabel (hfields _ List.mem_cons_self)
    rw [Keyed.get?_cons, List.find?_cons]
    by_cases hkey : key = label
    · have found : Label.names label key = true := names.2 hkey
      simp only [found, if_pos hkey, Option.map_some]
    · have other : Label.names label key = false := by
        rw [← Bool.not_eq_true]
        exact fun h => hkey (names.1 h)
      simp only [other, if_neg hkey]
      exact ih fun entry h => hfields entry (List.mem_cons_of_mem _ h)

/-- A segment that the text of a path names as it is meant. -/
def IsVerbatim : Segment → Prop
  | .key name => Label.IsVerbatim name
  | .index i => i < 2 ^ 32
  | .wildcard => True

theorem isVerbatim_of_isPlain {segment : Segment} (h : segment.IsPlain) : IsVerbatim segment := by
  cases segment with
  | key name => exact Label.isVerbatim_of_isPlainKey h
  | _ => exact h

theorem readSegment_eq {segment : Segment} (h : IsVerbatim segment) :
    readSegment segment = segment := by
  cases segment with
  | index i => exact congrArg Segment.index (Nat.mod_eq_of_lt h)
  | _ => rfl

theorem step?_eq_enter {v : Value} (hv : v.Plain) {segment : Segment} (hs : segment.IsPlain)
    (hw : segment ≠ .wildcard) : (step? v segment).getD .null = v.enter segment := by
  cases segment with
  | wildcard => exact absurd rfl hw
  | key name =>
    cases v with
    | object fields =>
      have keys : ∀ entry ∈ fields, Text.IsPlainKey entry.1 := Value.Every.self hv
      have named := find?_names (Label.isVerbatim_of_isPlainKey hs) fun entry hentry =>
        Label.not_isPrefix_of_no_nul (keys entry hentry).printable.no_nul
      simp only [step?, Value.enter, named]
    | _ => rfl
  | index i => cases v <;> rfl

theorem every_of_step? {p : Value → Prop} {v w : Value} (hv : v.Every p) {segment : Segment}
    (h : step? v segment = some w) : w.Every p := by
  cases segment with
  | wildcard =>
    cases h
    exact hv
  | key name =>
    cases v with
    | object fields =>
      obtain ⟨entry, hentry, rfl⟩ := Option.map_eq_some_iff.1 h
      exact hv.field (List.mem_of_find?_eq_some hentry)
    | _ => cases h
  | index i =>
    cases v with
    | array items => exact hv.item (List.mem_of_getElem? h)
    | _ => cases h

theorem every_of_follow? {p : Value → Prop} {segments : List Segment} :
    ∀ {v w : Value}, v.Every p → follow? segments v = some w → w.Every p := by
  induction segments with
  | nil =>
    intro v w hv h
    cases h
    exact hv
  | cons segment rest ih =>
    intro v w hv h
    obtain ⟨u, hu, h⟩ := Option.bind_eq_some_iff.1 h
    exact ih (every_of_step? hv hu) h

theorem follow?_append (before after : List Segment) (v : Value) :
    follow? (before ++ after) v = (follow? before v).bind (follow? after) := by
  induction before generalizing v with
  | nil => rfl
  | cons segment rest ih =>
    simp only [List.cons_append, follow?, Option.bind_assoc]
    exact congrArg _ (funext fun w => ih w)

theorem follow?_singleton (segment : Segment) (v : Value) :
    follow? [segment] v = step? v segment := by
  rw [follow?]
  cases step? v segment <;> rfl

/-! ## Places -/

theorem pathCondition_cons (predicate : Predicate) {segment : Segment} (hw : segment ≠ .wildcard)
    (rest : List Segment) (place : Place) (depth : Nat) :
    pathCondition predicate place depth (segment :: rest) =
      pathCondition predicate ⟨place.element, place.segments ++ [segment]⟩ depth rest := by
  cases segment with
  | wildcard => exact absurd rfl hw
  | _ => rfl

/-- Without wildcards all of a path belongs to one place. -/
theorem pathCondition_eq (predicate : Predicate) {segments : List Segment}
    (hwildcard : .wildcard ∉ segments) (place : Place) (depth : Nat) :
    pathCondition predicate place depth segments =
      (Operand.ofPlace ⟨place.element, place.segments ++ segments⟩).positive predicate := by
  induction segments generalizing place with
  | nil => rw [pathCondition, List.append_nil]
  | cons segment rest ih =>
    rw [List.mem_cons, not_or] at hwildcard
    rw [pathCondition_cons _ (Ne.symm hwildcard.1), ih hwildcard.2, List.append_assoc,
      List.singleton_append]

namespace Env

/-- The place one segment further on. -/
theorem value?_snoc (env : Env) (place : Place) (segment : Segment) :
    env.value? ⟨place.element, place.segments ++ [segment]⟩ =
      (env.value? place).bind fun v => step? v (readSegment segment) := by
  have path : env.path ⟨place.element, place.segments ++ [segment]⟩ =
      env.path place ++ [readSegment segment] := by
    unfold Env.path
    simp only [List.map_append, List.map_cons, List.map_nil]
    cases place.element with
    | none => rfl
    | some depth => exact (List.append_assoc _ _ _).symm
  rw [value?, path, follow?_append]
  exact congrArg _ (funext fun v => follow?_singleton _ v)

/-- The element to which a range has come. -/
theorem value?_ofElement (env : Env) (array : Place) (depth i : Nat) :
    (env.ofElement array depth i).value? ⟨some depth, []⟩ =
      (env.value? array).bind fun v => step? v (.index i) := by
  have path : (env.ofElement array depth i).path ⟨some depth, []⟩ =
      env.path array ++ [.index i] := by
    simp [Env.path, ofElement, Keyed.get?]
  rw [value?, path, follow?_append]
  exact congrArg _ (funext fun v => follow?_singleton _ v)

end Env

/-! ## What is found -/

/-- The name of the type of what has been found. -/
def typeDatum : Option Value → Datum
  | some v => .text (typeName v)
  | none => .null

/-- What has been found. -/
def valueDatum : Option Value → Datum
  | some v => .ofValue v
  | none => .null

/-- The number that has been found, or that is denoted by what has been found. -/
def numberDatum : Option Value → Datum
  | some (.number n) => .ofNumber n
  | some (.string s) => .numberOfText s
  | _ => .null

/-- What a place that does not exist holds. -/
def orNull (found : Option Value) : Value := found.getD .null

theorem typeDatum_text (found : Option Value) :
    (typeDatum found == .text "text") = (orNull found).string?.isSome := by
  rcases found with _ | _ | (_ | _) | (_ | _) | _ | _ | _ <;> rfl

theorem typeDatum_number (found : Option Value) :
    (typeDatum found == .text "integer" || typeDatum found == .text "real") =
      (orNull found).number?.isSome := by
  rcases found with _ | _ | (_ | _) | (_ | _) | _ | _ | _ <;> rfl

theorem typeDatum_array (found : Option Value) :
    (typeDatum found == .text "array") = (orNull found).isArray := by
  rcases found with _ | _ | (_ | _) | (_ | _) | _ | _ | _ <;> rfl

theorem typeDatum_object (found : Option Value) :
    (typeDatum found == .text "object") = (orNull found).isObject := by
  rcases found with _ | _ | (_ | _) | (_ | _) | _ | _ | _ <;> rfl

theorem orNull_bind_step? {found : Option Value} (h : (orNull found).Plain) {segment : Segment}
    (hs : segment.IsPlain) (hw : segment ≠ .wildcard) :
    orNull (found.bind fun v => step? v segment) = (orNull found).enter segment := by
  cases found with
  | none => cases segment <;> rfl
  | some v => exact step?_eq_enter h hs hw

theorem plain_value? {env : Env} (h : env.row.payload.Plain) (place : Place) :
    (orNull (env.value? place)).Plain := by
  cases hfound : env.value? place with
  | none => exact Value.plain_null
  | some v => exact every_of_follow? h hfound

end Sql

end RecordStore
