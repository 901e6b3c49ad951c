import RecordStore.Proofs.Pattern.Literal
import RecordStore.Proofs.Value.Every
import RecordStore.Value.Order

/-!
# The meaning of payload predicates

What it means for a payload to satisfy a predicate at a path, without regard to any backend. A path
without wildcards is read step by step (`Path.read`), and what is missing reads as null. A wildcard
asks for some element of an array (`Path.holds`). The positive form of a predicate is a test of one
value (`Predicate.test`), and negation stands outside all wildcards (`Predicate.holdsAt`).
-/

namespace RecordStore

/-! ## Reading -/

/-- One step into a value: a key into an object or an index into an array. Anything else, and what
is missing, is null. -/
def Value.enter : Segment → Value → Value
  | .key name, .object fields => (Keyed.get? name fields).getD .null
  | .index i, .array items => (items[i]?).getD .null
  | _, _ => .null

/-- What every value inside a value has, every value inside what is read from it has, if null has
it. -/
theorem Value.Every.enter {p : Value → Prop} (hnull : p .null) {v : Value} (h : v.Every p)
    (segment : Segment) : (v.enter segment).Every p := by
  have null : Value.null.Every p := hnull
  cases segment with
  | wildcard => exact null
  | key name =>
    cases v with
    | object fields =>
      cases hname : Keyed.get? name fields with
      | none => simpa [Value.enter, hname] using null
      | some w => simpa [Value.enter, hname] using h.field (Keyed.mem_of_get? hname)
    | _ => exact null
  | index i =>
    cases v with
    | array items =>
      cases hi : items[i]? with
      | none => simpa [Value.enter, hi] using null
      | some w => simpa [Value.enter, hi] using h.item (List.mem_of_getElem? hi)
    | _ => exact null

theorem any_congr_of_mem {α : Type} {f g : α → Bool} {items : List α}
    (h : ∀ a ∈ items, f a = g a) : items.any f = items.any g := by
  rw [Bool.eq_iff_iff, List.any_eq_true, List.any_eq_true]
  exact exists_congr fun a => and_congr_right fun ha => by rw [h a ha]

/-- What always holds can be left out of a conjunction. -/
theorem all_filter_of_forall {α : Type} {keep g : α → Bool} {parts : List α}
    (h : ∀ a ∈ parts, keep a = false → g a = true) : (parts.filter keep).all g = parts.all g := by
  rw [List.all_filter, Bool.eq_iff_iff, List.all_eq_true, List.all_eq_true]
  refine forall₂_congr fun a ha => ?_
  cases hkeep : keep a with
  | false => simp [h a ha hkeep]
  | true => simp

namespace Path

variable (step : Segment → Value → Value) (test : Value → Bool)

/-- The value at the end of some segments. -/
def read (segments : List Segment) (v : Value) : Value :=
  segments.foldl (fun v segment => step segment v) v

/-- Whether a value passes a test at the end of some segments, where a wildcard asks for some
element of an array. -/
def holds : List Segment → Value → Bool
  | [], v => test v
  | .wildcard :: rest, v => match v with
    | .array items => items.any (holds rest)
    | _ => false
  | segment :: rest, v => holds rest (step segment v)

variable {step test}

theorem holds_step {segment : Segment} (h : segment ≠ .wildcard) (rest : List Segment) (v : Value) :
    holds step test (segment :: rest) v = holds step test rest (step segment v) := by
  cases segment with
  | wildcard => exact absurd rfl h
  | _ => rfl

/-- Without wildcards the test is of the value that is read. -/
theorem holds_of_splitAtWildcard?_none {segments : List Segment}
    (h : splitAtWildcard? segments = none) (v : Value) :
    holds step test segments v = test (read step segments v) := by
  induction segments generalizing v with
  | nil => rfl
  | cons segment rest ih =>
    have ne_wildcard : segment ≠ .wildcard := by
      rintro rfl
      simp [splitAtWildcard?] at h
    have rest_none : splitAtWildcard? rest = none := by
      cases segment <;> simp_all [splitAtWildcard?]
    rw [holds_step ne_wildcard, ih rest_none]
    rfl

/-- Two readings of segments agree at a path if they agree about its steps on the values that are
reached, all of which have a property. -/
theorem holds_congr {step' : Segment → Value → Value} {p : Value → Prop} {segments : List Segment}
    (hitem : ∀ items, p (.array items) → ∀ element ∈ items, p element)
    (hstep : ∀ segment v, p v → p (step' segment v))
    (hsame : ∀ segment ∈ segments, segment ≠ .wildcard →
      ∀ v, p v → step segment v = step' segment v)
    {v : Value} (h : p v) : holds step test segments v = holds step' test segments v := by
  induction segments generalizing v with
  | nil => rfl
  | cons segment rest ih =>
    have hrest := fun s hs => hsame s (List.mem_cons_of_mem segment hs)
    by_cases hs : segment = .wildcard
    · subst hs
      cases v with
      | array items =>
        exact any_congr_of_mem fun element helement => ih hrest (hitem items h element helement)
      | _ => rfl
    · rw [holds_step hs, holds_step hs, hsame segment List.mem_cons_self hs v h]
      exact ih hrest (hstep segment v h)

end Path

/-! ## Tests -/

/-- The number that a value is, or that a string denotes. -/
def Value.numeric? : Value → Option Double
  | .number n => some n.toDouble
  | .string s => Numeral.double? s
  | _ => none

/-- The order of a number and a bound. A bound that is not finite is null once it is written, and
null is below all numbers. -/
def Double.compareBound (d : Double) : Float64 → Ordering
  | .finite bound => d.compare bound
  | _ => .gt

/-- The positive form of a predicate on one value. A value that is read exists. -/
def Predicate.test : Predicate → Value → Bool
  | .eq w, v => v.equal w
  | .neq w, v => v.equal w
  | .isIn values, v => values.any v.equal
  | .notIn values, v => values.any v.equal
  | .compare op bound, v => v.numeric?.any fun d => op.holds (d.compareBound bound)
  | .between low high, v => v.numeric?.any fun d =>
    Comparison.gte.holds (d.compareBound low) && Comparison.lte.holds (d.compareBound high)
  | .like needle caseSensitive, v => v.string?.any (Text.holds needle caseSensitive)
  | .exists flag, _ => flag

/-- Whether a payload satisfies a predicate at a path. -/
def Predicate.holdsAt (predicate : Predicate) (path : Path) (payload : Value) : Bool :=
  predicate.isNegative != Path.holds Value.enter predicate.test path.segments payload

end RecordStore
