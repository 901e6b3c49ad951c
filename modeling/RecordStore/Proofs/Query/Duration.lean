import RecordStore.Query

/-!
# Instants relative to another one

A duration leads from a reference to the instant that is its milliseconds away, within the 64-bit
range. The milliseconds are cut to this range before they are added, and so is the sum, so that the
instant need not be the exact sum cut once. Both cuts keep the order of integers
(`clampInstant_mono`), change nothing in the range (`clampInstant_of_isInstant`) and stay between a
number of the range and what is cut (`clampInstant_above`, `clampInstant_below`). What holds of the
instant follows from these (`RelativeDuration.resolve_monotone_exact_between`).
-/

namespace RecordStore

/-! ## The range of instants -/

/-- The integers that are instants. -/
def IsInstant (n : Int) : Prop := -2 ^ 63 ≤ n ∧ n < 2 ^ 63

instance (n : Int) : Decidable (IsInstant n) := inferInstanceAs (Decidable (_ ∧ _))

theorem isInstant_toInt (instant : Instant) : IsInstant instant.toInt :=
  ⟨instant.le_toInt, instant.toInt_lt⟩

section

variable {m n : Int}

theorem isInstant_clampInstant (n : Int) : IsInstant (clampInstant n) := by
  unfold IsInstant clampInstant
  omega

theorem clampInstant_of_isInstant (h : IsInstant n) : clampInstant n = n := by
  unfold IsInstant at h
  unfold clampInstant
  omega

theorem clampInstant_mono (h : m ≤ n) : clampInstant m ≤ clampInstant n := by
  unfold clampInstant
  omega

/-- What lies above a number of the range is cut to something between them. -/
theorem clampInstant_above (hm : IsInstant m) (h : m ≤ n) :
    m ≤ clampInstant n ∧ clampInstant n ≤ n := by
  unfold IsInstant at hm
  unfold clampInstant
  omega

/-- What lies below a number of the range is cut to something between them. -/
theorem clampInstant_below (hm : IsInstant m) (h : n ≤ m) :
    n ≤ clampInstant n ∧ clampInstant n ≤ m := by
  unfold IsInstant at hm
  unfold clampInstant
  omega

end

/-! ## Durations -/

theorem DurationUnit.millis_pos (unit : DurationUnit) : 0 < unit.millis := by
  cases unit <;> decide

namespace RelativeDuration

variable {duration : RelativeDuration} {reference : Instant}

/-- The milliseconds of a duration, of which there may be more than the range of instants has. -/
def span (duration : RelativeDuration) : Int := duration.amount.toInt * duration.unit.millis

theorem span_mono {amount amount' : Int64} (h : amount ≤ amount') (unit : DurationUnit) :
    span ⟨amount, unit⟩ ≤ span ⟨amount', unit⟩ :=
  Int.mul_le_mul_of_nonneg_right (Int64.le_iff_toInt_le.1 h) (Int.le_of_lt unit.millis_pos)

theorem span_nonneg (h : 0 ≤ duration.amount) : 0 ≤ duration.span :=
  Int.mul_nonneg (Int64.le_iff_toInt_le.1 h) (Int.le_of_lt duration.unit.millis_pos)

theorem span_nonpos (h : duration.amount ≤ 0) : duration.span ≤ 0 :=
  Int.mul_nonpos_of_nonpos_of_nonneg (Int64.le_iff_toInt_le.1 h)
    (Int.le_of_lt duration.unit.millis_pos)

/-- The milliseconds are cut before they are added, and the sum is cut once more. -/
theorem toInt_resolve (duration : RelativeDuration) (reference : Instant) :
    (duration.resolve reference).toInt =
      clampInstant (reference.toInt + clampInstant duration.span) := by
  have bounds := isInstant_clampInstant (reference.toInt + clampInstant duration.span)
  exact Int64.toInt_ofInt_of_le bounds.1 bounds.2

theorem resolve_mono_span {other : RelativeDuration} (h : duration.span ≤ other.span)
    (reference : Instant) : duration.resolve reference ≤ other.resolve reference := by
  rw [Int64.le_iff_toInt_le, toInt_resolve, toInt_resolve]
  exact clampInstant_mono (Int.add_le_add_left (clampInstant_mono h) _)

theorem resolve_mono_reference {reference' : Instant} (h : reference ≤ reference')
    (duration : RelativeDuration) : duration.resolve reference ≤ duration.resolve reference' := by
  rw [Int64.le_iff_toInt_le, toInt_resolve, toInt_resolve]
  exact clampInstant_mono (Int.add_le_add_right (Int64.le_iff_toInt_le.1 h) _)

theorem toInt_resolve_of_isInstant (hspan : IsInstant duration.span)
    (hsum : IsInstant (reference.toInt + duration.span)) :
    (duration.resolve reference).toInt = reference.toInt + duration.span := by
  rw [toInt_resolve, clampInstant_of_isInstant hspan, clampInstant_of_isInstant hsum]

theorem le_resolve (h : 0 ≤ duration.amount) (reference : Instant) :
    reference ≤ duration.resolve reference ∧
      (duration.resolve reference).toInt ≤ reference.toInt + duration.span := by
  obtain ⟨hlow, hhigh⟩ := clampInstant_above (by decide) (span_nonneg h)
  have forward : reference.toInt ≤ reference.toInt + clampInstant duration.span := by omega
  obtain ⟨hreference, hsum⟩ := clampInstant_above (isInstant_toInt reference) forward
  rw [Int64.le_iff_toInt_le, toInt_resolve]
  exact ⟨hreference, Int.le_trans hsum (Int.add_le_add_left hhigh _)⟩

theorem resolve_le (h : duration.amount ≤ 0) (reference : Instant) :
    reference.toInt + duration.span ≤ (duration.resolve reference).toInt ∧
      duration.resolve reference ≤ reference := by
  obtain ⟨hlow, hhigh⟩ := clampInstant_below (by decide) (span_nonpos h)
  have back : reference.toInt + clampInstant duration.span ≤ reference.toInt := by omega
  obtain ⟨hsum, hreference⟩ := clampInstant_below (isInstant_toInt reference) back
  rw [Int64.le_iff_toInt_le, toInt_resolve]
  exact ⟨Int.le_trans (Int.add_le_add_left hlow _) hsum, hreference⟩

/-- The instant to which a duration leads does not fall when the amount or the reference grows. It is
the exact sum if the range has the milliseconds and the sum, and lies between the reference and the
exact sum in any case. -/
theorem resolve_monotone_exact_between (duration : RelativeDuration) (reference : Instant) :
    (∀ amount, duration.amount ≤ amount →
      duration.resolve reference ≤ resolve ⟨amount, duration.unit⟩ reference) ∧
    (∀ reference', reference ≤ reference' →
      duration.resolve reference ≤ duration.resolve reference') ∧
    (IsInstant duration.span → IsInstant (reference.toInt + duration.span) →
      (duration.resolve reference).toInt = reference.toInt + duration.span) ∧
    (0 ≤ duration.amount → reference ≤ duration.resolve reference ∧
      (duration.resolve reference).toInt ≤ reference.toInt + duration.span) ∧
    (duration.amount ≤ 0 → reference.toInt + duration.span ≤ (duration.resolve reference).toInt ∧
      duration.resolve reference ≤ reference) :=
  ⟨fun _ h => resolve_mono_span (span_mono h duration.unit) reference,
    fun _ h => resolve_mono_reference h duration,
    toInt_resolve_of_isInstant, fun h => le_resolve h reference, fun h => resolve_le h reference⟩

/-- A week back is exact. As many weeks as there can be stop at the end of the range before they are
added, and so lead from an instant below zero to one below the end. -/
theorem resolve_monotone_exact_between_ends :
    (resolve ⟨-1, .weeks⟩ 1000).toInt = 1000 - 604800000 ∧
    resolve ⟨-1, .weeks⟩ 1000 ≤ 1000 ∧
    (-5 : Instant) ≤ resolve ⟨Int64.maxValue, .weeks⟩ (-5) ∧
    (resolve ⟨Int64.maxValue, .weeks⟩ (-5)).toInt ≤ -5 + (2 ^ 63 - 1) * 604800000 ∧
    resolve ⟨Int64.maxValue, .weeks⟩ (-5) ≤ resolve ⟨Int64.maxValue, .weeks⟩ 7 ∧
    resolve ⟨-1, .weeks⟩ (-5) ≤ resolve ⟨Int64.maxValue, .weeks⟩ (-5) ∧
    resolve ⟨Int64.maxValue, .weeks⟩ (-5) = Int64.maxValue - 5 := by
  obtain ⟨-, -, exact, -, before⟩ := resolve_monotone_exact_between ⟨-1, .weeks⟩ 1000
  obtain ⟨-, later, -, after, -⟩ := resolve_monotone_exact_between ⟨Int64.maxValue, .weeks⟩ (-5)
  obtain ⟨more, -, -, -, -⟩ := resolve_monotone_exact_between ⟨-1, .weeks⟩ (-5)
  exact ⟨exact (by decide) (by decide), (before (by decide)).2, (after (by decide)).1,
    (after (by decide)).2, later 7 (by decide), more _ (by decide), by decide⟩

end RelativeDuration

end RecordStore
