import RecordStore.Proofs.Numeral.Scale
import RecordStore.Proofs.Numeral.Text

/-!
# The text of a double is a numeral

The text of a double is that of a numeral (`Double.text_numeral`) that keeps to the grammar
(`Double.isWritten_numeral`). Its number is a double again (`Double.isSome_number?_numeral`): no decimal
that is written is too large, although the reader multiplies and divides inexactly.
-/

namespace RecordStore

/-! ## Digits -/

theorem all_isDigit_toDigits (n : Nat) : (Nat.toDigits 10 n).all Numeral.isDigit = true :=
  List.all_eq_true.2 fun _ hc => isDigit_of_mem_toDigits hc

theorem all_isDigit_replicate (n : Nat) : (List.replicate n '0').all Numeral.isDigit = true := by
  rw [List.all_eq_true]
  intro c hc
  rw [List.eq_of_mem_replicate hc]
  rfl

theorem toDigits_ne_spare_zero (n : Nat) (c : Char) (cs : List Char) :
    Nat.toDigits 10 n ≠ '0' :: c :: cs := by
  intro h
  have digits : ('0' :: c :: cs).all Numeral.isDigit = true := h ▸ all_isDigit_toDigits n
  refine (Numeral.toDigits_ofDigits_eq_iff digits).1 ?_ ⟨rfl, List.cons_ne_nil c cs⟩
  rw [← h, Numeral.ofDigits_toDigits]

theorem toDigits_ne_zero_cons {n : Nat} (hn : 0 < n) (cs : List Char) :
    Nat.toDigits 10 n ≠ '0' :: cs := by
  intro h
  cases cs with
  | nil =>
    have zero : n = 0 := by
      rw [← Numeral.ofDigits_toDigits n, h]
      rfl
    omega
  | cons c cs => exact toDigits_ne_spare_zero n c cs h

theorem ofDigits_zeros_append (n : Nat) (cs : List Char) :
    Numeral.ofDigits (List.replicate n '0' ++ cs) = Numeral.ofDigits cs := by
  induction n with
  | zero => rfl
  | succ n ih =>
    rw [List.replicate_succ, List.cons_append]
    exact ih

theorem length_toDigits_le {n : Nat} (h : n ≤ 10 ^ 17) : (Nat.toDigits 10 n).length ≤ 18 :=
  (Nat.length_toDigits_le_iff (by decide) (by decide)).2 (by omega)

namespace Double

/-! ## Numerals -/

def positionalNumeral (negative : Bool) (digits : List Char) (point : Int) : Numeral :=
  if point ≤ 0 then ⟨negative, ['0'], List.replicate (-point).toNat '0' ++ digits, none⟩
  else ⟨negative, digits.take point.toNat ++ List.replicate (point.toNat - digits.length) '0',
    if (digits.drop point.toNat).isEmpty then ['0'] else digits.drop point.toNat, none⟩

def scientificNumeral (negative : Bool) (digits : List Char) (exponent : Int) : Numeral :=
  ⟨negative, digits.take 1, digits.drop 1,
    some (decide (exponent < 0), Nat.toDigits 10 exponent.natAbs)⟩

def decimalNumeral (negative : Bool) (decimal : Decimal) : Numeral :=
  let digits := Nat.toDigits 10 decimal.digits
  let point := digits.length + decimal.exponent
  if -5 < point ∧ point ≤ 16 then positionalNumeral negative digits point
  else scientificNumeral negative digits (point - 1)

/-- The numeral that is the text of a double. -/
def numeral (d : Double) : Numeral :=
  if d.units = 0 then ⟨d.negative, ['0'], ['0'], none⟩
  else decimalNumeral d.negative (shortest d.units)

theorem text_positionalNumeral (negative : Bool) {digits : List Char} (h : digits ≠ [])
    (point : Int) : (positionalNumeral negative digits point).text =
      (if negative then ['-'] else []) ++ positional digits point := by
  obtain ⟨c, cs, rfl⟩ := List.exists_cons_of_ne_nil h
  rw [positionalNumeral, positional]
  by_cases hpoint : point ≤ 0
  · rw [if_pos hpoint, if_pos hpoint]
    obtain ⟨z, zs, hzeros⟩ : ∃ z zs, List.replicate (-point).toNat '0' ++ c :: cs = z :: zs :=
      List.exists_cons_of_ne_nil (by simp)
    simp [Numeral.text, Numeral.exponentText, hzeros, Numeral.fractionText]
  · rw [if_neg hpoint, if_neg hpoint]
    cases hfraction : (c :: cs).drop point.toNat <;>
      simp [Numeral.text, Numeral.exponentText, Numeral.fractionText]

theorem text_scientificNumeral (negative : Bool) {digits : List Char} (h : digits ≠ [])
    (exponent : Int) : (scientificNumeral negative digits exponent).text =
      (if negative then ['-'] else []) ++ scientific digits exponent := by
  obtain ⟨c, cs, rfl⟩ := List.exists_cons_of_ne_nil h
  cases cs <;> simp [Numeral.text, Numeral.exponentText, Numeral.fractionText, scientificNumeral,
    scientific]

theorem text_numeral (d : Double) : d.numeral.text = d.text := by
  have sign : d.text = (if d.negative then ['-'] else []) ++ magnitudeText d.units := by
    rw [text]
    cases d.negative <;> rfl
  rw [sign, numeral, magnitudeText]
  by_cases hzero : d.units = 0
  · rw [if_pos hzero, if_pos hzero]
    rfl
  rw [if_neg hzero, if_neg hzero, decimalNumeral]
  have nonempty : Nat.toDigits 10 (shortest d.units).digits ≠ [] := Nat.toDigits_ne_nil
  dsimp only
  split
  · exact text_positionalNumeral d.negative nonempty _
  · exact text_scientificNumeral d.negative nonempty _

/-! ## Grammar -/

/-- With a point behind a digit the digits in front of it are no other ones after a zero. -/
theorem isWritten_positionalNumeral (negative : Bool) {n : Nat} (hn : 0 < n) (point : Int) :
    (positionalNumeral negative (Nat.toDigits 10 n) point).IsWritten := by
  have digits := all_isDigit_toDigits n
  rw [List.all_eq_true] at digits
  rw [positionalNumeral]
  by_cases hpoint : point ≤ 0
  · rw [if_pos hpoint]
    refine ⟨rfl, List.cons_ne_nil _ _, fun _ _ => by simp, ?_, fun _ _ h => by cases h⟩
    rw [List.all_append, all_isDigit_replicate, all_isDigit_toDigits]
    rfl
  rw [if_neg hpoint]
  obtain ⟨c, cs, hcs⟩ := List.exists_cons_of_ne_nil (Nat.toDigits_ne_nil (n := n) (b := 10))
  obtain ⟨k, hk⟩ : ∃ k, point.toNat = k + 1 := ⟨point.toNat - 1, by omega⟩
  have front : (Nat.toDigits 10 n).take point.toNat = c :: cs.take k := by
    rw [hcs, hk, List.take_succ_cons]
  refine ⟨?_, ?_, fun d ds hwhole => ?_, ?_, fun _ _ h => by cases h⟩
  · rw [List.all_append, all_isDigit_replicate, Bool.and_true, List.all_eq_true]
    exact fun d hd => digits d (List.mem_of_mem_take hd)
  · rw [front]
    exact List.cons_ne_nil _ _
  · rw [front] at hwhole
    have zero : c = '0' := (List.cons.inj hwhole).1
    exact toDigits_ne_zero_cons hn cs (zero ▸ hcs)
  · show (if ((Nat.toDigits 10 n).drop point.toNat).isEmpty then ['0'] else _).all _ = true
    split
    · rfl
    · exact List.all_eq_true.2 fun d hd => digits d (List.mem_of_mem_drop hd)

theorem isWritten_scientificNumeral (negative : Bool) (n : Nat) (exponent : Int) :
    (scientificNumeral negative (Nat.toDigits 10 n) exponent).IsWritten := by
  have digits := all_isDigit_toDigits n
  rw [List.all_eq_true] at digits
  obtain ⟨c, cs, hcs⟩ := List.exists_cons_of_ne_nil (Nat.toDigits_ne_nil (n := n) (b := 10))
  refine ⟨?_, ?_, fun d ds hwhole => ?_, ?_, fun negative ds h => ?_⟩
  · exact List.all_eq_true.2 fun d hd => digits d (List.mem_of_mem_take hd)
  · simp [scientificNumeral, hcs]
  · simp [scientificNumeral, hcs] at hwhole
  · exact List.all_eq_true.2 fun d hd => digits d (List.mem_of_mem_drop hd)
  · cases h
    exact ⟨Nat.toDigits_ne_nil, all_isDigit_toDigits _⟩

theorem isWritten_numeral (d : Double) : d.numeral.IsWritten := by
  rw [numeral]
  by_cases hzero : d.units = 0
  · rw [if_pos hzero]
    exact ⟨rfl, List.cons_ne_nil _ _, fun _ _ => by simp, rfl, fun _ _ h => by cases h⟩
  rw [if_neg hzero, decimalNumeral]
  split
  · next hplace =>
    rcases fits_shortest hzero with fits | empty
    · exact isWritten_positionalNumeral d.negative fits.positive _
    · rw [empty] at hplace
      exact absurd hplace (by decide)
  · exact isWritten_scientificNumeral d.negative _ _

/-! ## Numbers -/

theorem ofDigits_lt_of_isWritten {numeral : Numeral} (h : numeral.IsWritten)
    (hlength : numeral.whole.length + numeral.fraction.length ≤ 18) :
    Numeral.ofDigits (numeral.whole ++ numeral.fraction) < 2 ^ 64 := by
  have digits : (numeral.whole ++ numeral.fraction).all Numeral.isDigit = true := by
    rw [List.all_append, h.whole, h.fraction]
    rfl
  refine Numeral.ofDigitsFrom_lt digits ?_
  rw [Nat.zero_add, Nat.one_mul, List.length_append]
  exact Nat.le_trans (Nat.pow_le_pow_right (by decide) hlength) (by decide)

/-- Digits around a point are divided by a power of ten. -/
theorem isSome_number?_positional (negative : Bool) {n : Nat} (hpos : 0 < n) (hn : n ≤ 10 ^ 17)
    {point : Int} (hpoint : point ≤ 16) :
    (positionalNumeral negative (Nat.toDigits 10 n) point).number?.isSome := by
  have written := isWritten_positionalNumeral negative hpos point
  have divided : ∀ numeral : Numeral, numeral.fraction ≠ [] → numeral.exponent = none →
      Numeral.ofDigits (numeral.whole ++ numeral.fraction) < 2 ^ 64 → numeral.number?.isSome := by
    intro numeral hfraction hexponent h
    have pos := List.length_pos_iff.2 hfraction
    rw [Numeral.number?_positional h hfraction hexponent, Option.isSome_map]
    exact Numeral.isSome_scale?_of_neg h (by omega)
  rw [positionalNumeral] at written ⊢
  by_cases hfront : point ≤ 0
  · rw [if_pos hfront]
    refine divided _ (by simp [Nat.toDigits_ne_nil]) rfl ?_
    have value : Numeral.ofDigits
        (['0'] ++ (List.replicate (-point).toNat '0' ++ Nat.toDigits 10 n)) = n := by
      rw [← List.append_assoc]
      exact (ofDigits_zeros_append ((-point).toNat + 1) _).trans (Numeral.ofDigits_toDigits n)
    show Numeral.ofDigits (['0'] ++ (List.replicate (-point).toNat '0' ++ Nat.toDigits 10 n)) < 2 ^ 64
    rw [value]
    exact Nat.lt_of_le_of_lt hn (by decide)
  · have few := length_toDigits_le hn
    rw [if_neg hfront] at written ⊢
    refine divided _ ?_ rfl (ofDigits_lt_of_isWritten written ?_)
    · show (if _ then ['0'] else _) ≠ []
      split
      · exact List.cons_ne_nil _ _
      · next hdrop => simpa using hdrop
    · show (_ ++ _ : List Char).length + (if _ then ['0'] else _ : List Char).length ≤ 18
      rw [List.length_append, List.length_take, List.length_replicate]
      split
      · rw [List.length_singleton]
        omega
      · next hdrop =>
        have behind : point.toNat < (Nat.toDigits 10 n).length := by simpa using hdrop
        rw [List.length_drop]
        omega

/-- Digits with an exponent are scaled by what is left of it behind the last one. -/
theorem isSome_number?_scientific (negative : Bool) {n : Nat} (hn : n ≤ 10 ^ 17) {exponent : Int}
    (hexponent : exponent.natAbs < 2 ^ 31)
    (h : (Numeral.scale? n (exponent - ((Nat.toDigits 10 n).length - 1 : Nat))).isSome) :
    (scientificNumeral negative (Nat.toDigits 10 n) exponent).number?.isSome := by
  have scaled : ∀ numeral : Numeral, numeral.whole ++ numeral.fraction = Nat.toDigits 10 n →
      numeral.fraction.length = (Nat.toDigits 10 n).length - 1 →
      numeral.exponent = some (decide (exponent < 0), Nat.toDigits 10 exponent.natAbs) →
      numeral.number?.isSome := by
    intro numeral hdigits hlength hpower
    have value : Numeral.ofDigits (numeral.whole ++ numeral.fraction) = n := by
      rw [hdigits, Numeral.ofDigits_toDigits]
    have power : Numeral.ofDigits (Nat.toDigits 10 exponent.natAbs) = exponent.natAbs :=
      Numeral.ofDigits_toDigits _
    have fits : Numeral.ofDigits (numeral.whole ++ numeral.fraction) < 2 ^ 64 :=
      value ▸ Nat.lt_of_le_of_lt hn (by decide)
    have left : (if decide (exponent < 0) = true then
          -(((Nat.toDigits 10 n).length - 1 : Nat) : Int) - (exponent.natAbs : Int)
        else -(((Nat.toDigits 10 n).length - 1 : Nat) : Int) + (exponent.natAbs : Int)) =
          exponent - ((Nat.toDigits 10 n).length - 1 : Nat) := by
      by_cases hneg : exponent < 0
      · rw [if_pos (decide_eq_true hneg)]
        omega
      · rw [if_neg (by simpa using hneg)]
        omega
    rw [Numeral.number?_scientific fits hpower (by rwa [power]), Option.isSome_map, value, power,
      hlength, left]
    exact h
  exact scaled _ (List.take_append_drop 1 _) List.length_drop rfl

/-- The number of a decimal that is safely below the limit is a double. -/
theorem isSome_number?_decimal (negative : Bool) {decimal : Decimal} {quarters : Nat}
    (h : decimal.Fits quarters) (hquarters : quarters ≤ safeQuarters) :
    (decimalNumeral negative decimal).number?.isSome := by
  have few := length_toDigits_le h.few
  have nonempty : 0 < (Nat.toDigits 10 decimal.digits).length := Nat.length_toDigits_pos
  have least := h.least
  have greatest := Numeral.exponent_lt h hquarters
  have scaled := Numeral.isSome_scale? h hquarters
  rw [decimalNumeral]
  split
  · next hplace => exact isSome_number?_positional negative h.positive h.few hplace.2
  · refine isSome_number?_scientific negative h.few (by omega) ?_
    have exponent : ((Nat.toDigits 10 decimal.digits).length + decimal.exponent - 1 : Int) -
        ((Nat.toDigits 10 decimal.digits).length - 1 : Nat) = decimal.exponent := by omega
    rwa [exponent]

/-! ## All doubles -/

/-- The greatest magnitude of a finite double. -/
@[irreducible]
def greatest : Nat := limit - 2 ^ 2045

theorem isSome_number?_greatest : ∀ negative, (numeral ⟨negative, greatest⟩).number?.isSome := by
  decide +kernel

/-- Whether a magnitude is one of those that 53 bits and 11 bits for their place make. -/
structure IsBinary64 (d : Double) : Prop where
  finite : d.units < limit
  exact : spacing d.units ∣ d.units

theorem exists_limits_eq : ∃ j, j = 2045 ∧ limit = 2 ^ 53 * 2 ^ j ∧
    safeQuarters = (4 * 2 ^ 53 - 6) * 2 ^ j ∧ greatest = (2 ^ 53 - 1) * 2 ^ j :=
  ⟨2045, rfl, by decide +kernel, by decide +kernel, by decide +kernel⟩

/-- What is rounded to a double below the greatest one is safely below the limit. -/
theorem roundingInterval_le {units : Nat} (hlimit : units < limit) (hexact : spacing units ∣ units)
    (hgreatest : units ≠ greatest) : (roundingInterval units).2 ≤ safeQuarters := by
  obtain ⟨j, hj, limit_eq, safe_eq, greatest_eq⟩ := exists_limits_eq
  rw [limit_eq] at hlimit
  rw [greatest_eq] at hgreatest
  show 4 * units + 2 * spacing units ≤ safeQuarters
  rw [safe_eq]
  by_cases htop : units < 2 ^ 52 * 2 ^ j
  · have step : spacing units ≤ 2 ^ j := by
      refine Nat.pow_le_pow_right (by decide) ?_
      by_cases hzero : units = 0
      · rw [hzero, Nat.log2_zero]
        exact Nat.zero_le _
      · rw [← Nat.pow_add, ← Nat.log2_lt hzero] at htop
        omega
    omega
  · have nonzero : units ≠ 0 := by
      have pos := Nat.two_pow_pos j
      omega
    have log : units.log2 = 52 + j := by
      rw [Nat.log2_eq_iff nonzero]
      constructor
      · rw [Nat.pow_add]
        omega
      · rw [Nat.pow_succ, Nat.pow_add]
        omega
    have step : spacing units = 2 ^ j := by rw [spacing, log, Nat.add_sub_cancel_left]
    obtain ⟨q, hq⟩ := hexact
    rw [step] at hq ⊢
    have pos := Nat.two_pow_pos j
    generalize 2 ^ j = s at *
    subst hq
    rw [Nat.mul_comm, Nat.mul_lt_mul_right pos] at hlimit
    have other : q ≠ 2 ^ 53 - 1 := fun h => hgreatest (by rw [h, Nat.mul_comm])
    have few : 4 * q + 2 ≤ 4 * 2 ^ 53 - 6 := by omega
    calc 4 * (s * q) + 2 * s = (4 * q + 2) * s := by
          rw [Nat.mul_comm s, ← Nat.mul_assoc, ← Nat.add_mul]
      _ ≤ (4 * 2 ^ 53 - 6) * s := Nat.mul_le_mul_right s few

/-- Every double is written as a numeral whose number is a double. -/
theorem isSome_number?_numeral {d : Double} (h : d.IsBinary64) : d.numeral.number?.isSome := by
  obtain ⟨negative, units⟩ := d
  by_cases hgreatest : units = greatest
  · rw [hgreatest]
    exact isSome_number?_greatest negative
  rw [numeral]
  by_cases hzero : units = 0
  · have zero : ∀ negative, (Numeral.mk negative ['0'] ['0'] none).number?.isSome := by
      decide +kernel
    rw [if_pos hzero]
    exact zero negative
  rw [if_neg hzero]
  rcases fits_shortest hzero with fits | empty
  · exact isSome_number?_decimal negative fits (roundingInterval_le h.finite h.exact hgreatest)
  · have none : ∀ negative, (decimalNumeral negative ⟨0, 17⟩).number?.isSome := by decide +kernel
    rw [empty]
    exact none negative

end Double

end RecordStore
