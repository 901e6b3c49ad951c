import RecordStore.Proofs.Numeral.Short
import RecordStore.Proofs.Path.Digits

/-!
# The text of numerals

A numeral has a text (`Numeral.text`), and is scanned in it if it keeps to the grammar, whatever comes
behind it, as long as this does not go on with the numeral (`Numeral.scan?_text`). All digits count for
its number if 64 bits hold the number that they denote (`Numeral.number?_positional`,
`Numeral.number?_scientific`).
-/

namespace RecordStore

namespace Numeral

/-! ## Writing -/

def fractionText : List Char → List Char
  | [] => []
  | digits => '.' :: digits

def exponentText : Option (Bool × List Char) → List Char
  | none => []
  | some (negative, digits) => 'e' :: (if negative then '-' else '+') :: digits

def text (numeral : Numeral) : List Char :=
  (if numeral.negative then ['-'] else []) ++
    (numeral.whole ++ (fractionText numeral.fraction ++ exponentText numeral.exponent))

/-- Whether a numeral keeps to the grammar. -/
structure IsWritten (numeral : Numeral) : Prop where
  whole : numeral.whole.all isDigit = true
  whole_ne_nil : numeral.whole ≠ []
  noSpareZero : ∀ c cs, numeral.whole ≠ '0' :: c :: cs
  fraction : numeral.fraction.all isDigit = true
  exponent : ∀ negative digits, numeral.exponent = some (negative, digits) →
    digits ≠ [] ∧ digits.all isDigit = true

/-- Whether a text does not go on with a numeral in front of it. -/
def EndsNumeral (rest : List Char) : Prop :=
  ∀ c, rest.head? = some c → isDigit c = false ∧ c ≠ '.' ∧ c ≠ 'e' ∧ c ≠ 'E'

theorem endsNumeral_cons {c : Char} (h : isDigit c = false ∧ c ≠ '.' ∧ c ≠ 'e' ∧ c ≠ 'E')
    (rest : List Char) : EndsNumeral (c :: rest) := by
  rintro d ⟨⟩
  exact h

/-! ## Scanning -/

theorem digits_append {ds rest : List Char} (hds : ds.all isDigit = true)
    (hrest : ∀ c, rest.head? = some c → isDigit c = false) : digits (ds ++ rest) = (ds, rest) := by
  rw [List.all_eq_true] at hds
  have none : rest.takeWhile isDigit = [] ∧ rest.dropWhile isDigit = rest := by
    cases rest with
    | nil => exact ⟨rfl, rfl⟩
    | cons c rest => simp [hrest c rfl]
  rw [digits, List.takeWhile_append_of_pos hds, List.dropWhile_append_of_pos hds, none.1, none.2,
    List.append_nil]

section

variable {rest : List Char} (hrest : EndsNumeral rest)

include hrest

theorem scanExponent?_text {exponent : Option (Bool × List Char)}
    (h : ∀ negative digits, exponent = some (negative, digits) →
      digits ≠ [] ∧ digits.all isDigit = true) :
    scanExponent? (exponentText exponent ++ rest) = some (exponent, rest) := by
  cases exponent with
  | none =>
    rw [exponentText, List.nil_append, scanExponent?]
    · rintro cs rfl
      exact (hrest 'e' rfl).2.2.1 rfl
    · rintro cs rfl
      exact (hrest 'E' rfl).2.2.2 rfl
  | some power =>
    obtain ⟨negative, ds⟩ := power
    obtain ⟨hne, hds⟩ := h negative ds rfl
    have found := digits_append hds fun c hc => (hrest c hc).1
    have sign : scanSign ((if negative then '-' else '+') :: (ds ++ rest)) = (negative, ds ++ rest) := by
      cases negative <;> rfl
    have power : scanPower? ((if negative then '-' else '+') :: (ds ++ rest)) =
        some ((negative, ds), rest) := by
      obtain ⟨d, ds, rfl⟩ := List.exists_cons_of_ne_nil hne
      rw [scanPower?, sign]
      dsimp only
      rw [found]
    show (scanPower? ((if negative then '-' else '+') :: (ds ++ rest))).map _ = _
    rw [power]
    rfl

theorem head?_exponentText (exponent : Option (Bool × List Char)) {c : Char}
    (h : (exponentText exponent ++ rest).head? = some c) : isDigit c = false ∧ c ≠ '.' := by
  cases exponent with
  | none => exact ⟨(hrest c h).1, (hrest c h).2.1⟩
  | some power =>
    cases h
    exact ⟨rfl, by decide⟩

theorem scanFraction?_text {fraction : List Char} (h : fraction.all isDigit = true)
    (exponent : Option (Bool × List Char)) :
    scanFraction? (fractionText fraction ++ (exponentText exponent ++ rest)) =
      some (fraction, exponentText exponent ++ rest) := by
  cases fraction with
  | nil =>
    rw [fractionText, List.nil_append, scanFraction?]
    intro cs hcs
    have head : (exponentText exponent ++ rest).head? = some '.' := by
      rw [hcs]
      rfl
    exact (head?_exponentText hrest exponent head).2 rfl
  | cons d ds =>
    have found := digits_append h fun c hc => (head?_exponentText hrest exponent hc).1
    have point : fractionText (d :: ds) ++ (exponentText exponent ++ rest) =
        '.' :: (d :: ds ++ (exponentText exponent ++ rest)) := rfl
    rw [point, scanFraction?, found]

theorem head?_fractionText (fraction : List Char) (exponent : Option (Bool × List Char)) {c : Char}
    (h : (fractionText fraction ++ (exponentText exponent ++ rest)).head? = some c) :
    isDigit c = false := by
  cases fraction with
  | nil => exact (head?_exponentText hrest exponent h).1
  | cons d ds =>
    cases h
    rfl

/-- A numeral is scanned in its text. -/
theorem scan?_text {numeral : Numeral} (h : numeral.IsWritten) :
    scan? (numeral.text ++ rest) = some (numeral, rest) := by
  obtain ⟨negative, whole, fraction, exponent⟩ := numeral
  obtain ⟨c, cs, rfl⟩ := List.exists_cons_of_ne_nil h.whole_ne_nil
  have wholes : scanWhole? (c :: cs ++ (fractionText fraction ++ (exponentText exponent ++ rest))) =
      some (c :: cs, fractionText fraction ++ (exponentText exponent ++ rest)) := by
    rw [scanWhole?, digits_append h.whole fun d hd => head?_fractionText hrest fraction exponent hd]
    split
    · next heq => cases heq
    · next heq =>
      cases heq
      exact absurd rfl (h.noSpareZero _ _)
    · rfl
  have fractions := scanFraction?_text hrest h.fraction exponent
  have exponents := scanExponent?_text hrest h.exponent
  rw [List.cons_append] at wholes
  cases negative with
  | true => simp [scan?, text, wholes, fractions, exponents]
  | false =>
    have minus : c ≠ '-' := by
      rintro rfl
      exact absurd (List.all_eq_true.1 h.whole '-' List.mem_cons_self) (by decide)
    simp [scan?, text, minus, wholes, fractions, exponents]

end

/-! ## Numbers -/

theorem ofDigits_append (a b : List Char) : ofDigits (a ++ b) = ofDigitsFrom (ofDigits a) b :=
  List.foldl_append

section

variable {numeral : Numeral} (h : ofDigits (numeral.whole ++ numeral.fraction) < 2 ^ 64)

include h

theorem accumulate_whole :
    accumulate 0 numeral.whole = (ofDigits numeral.whole, []) := by
  rw [ofDigits_append] at h
  exact accumulate_of_lt (Nat.lt_of_le_of_lt (le_ofDigitsFrom _ _) h)

theorem accumulate_fraction : accumulate (ofDigits numeral.whole) numeral.fraction =
    (ofDigits (numeral.whole ++ numeral.fraction), []) := by
  rw [ofDigits_append] at h ⊢
  exact accumulate_of_lt h

theorem number?_integer (hfraction : numeral.fraction = []) (hexponent : numeral.exponent = none) :
    numeral.number? = some (numeral.integer (ofDigits numeral.whole)) := by
  simp [number?, accumulate_whole h, hfraction, hexponent]

theorem number?_positional (hfraction : numeral.fraction ≠ [])
    (hexponent : numeral.exponent = none) : numeral.number? =
      (scale? (ofDigits (numeral.whole ++ numeral.fraction)) (-numeral.fraction.length)).map
        fun d => .double (numeral.signed d) := by
  simp [number?, accumulate_whole h, accumulate_fraction h, hfraction, hexponent]

theorem number?_scientific {negative : Bool} {ds : List Char}
    (hexponent : numeral.exponent = some (negative, ds)) (hds : ofDigits ds < 2 ^ 31) :
    numeral.number? =
      (scale? (ofDigits (numeral.whole ++ numeral.fraction))
        (if negative then -numeral.fraction.length - (ofDigits ds : Int)
          else -numeral.fraction.length + (ofDigits ds : Int))).map
        fun d => .double (numeral.signed d) := by
  simp [number?, accumulate_whole h, accumulate_fraction h, hexponent, hds]

end

end Numeral

end RecordStore
