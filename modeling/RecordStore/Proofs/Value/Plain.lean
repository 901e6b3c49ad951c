import RecordStore.Proofs.Numeral.Short
import RecordStore.Proofs.Value.Every
import RecordStore.Text.CaseFold
import RecordStore.Value.Order

/-!
# Plain values

The values on which the backends have to agree (`Value.Plain`): texts are printable ASCII, numbers
are integers that a double holds, a text that is a numeral is a short integer, and keys need no
escape. Plain values are equal only if they are the same (`Value.Plain.equal_iff`).
-/

namespace RecordStore

/-! ## Texts -/

/-- The printable ASCII characters. -/
def Text.IsPrintable (cs : List Char) : Prop := ∀ c ∈ cs, 0x20 ≤ c.toNat ∧ c.toNat ≤ 0x7e

/-- The keys that a path text can name as they are. -/
structure Text.IsPlainKey (key : String) : Prop where
  printable : IsPrintable key.toList
  no_quote : '"' ∉ key.toList
  no_backslash : '\\' ∉ key.toList

namespace Text

instance (cs : List Char) : Decidable (IsPrintable cs) :=
  decidable_of_iff (cs.all fun c => 0x20 ≤ c.toNat ∧ c.toNat ≤ 0x7e) (by simp [IsPrintable])

theorem isPlainKey_iff (key : String) :
    IsPlainKey key ↔ IsPrintable key.toList ∧ '"' ∉ key.toList ∧ '\\' ∉ key.toList :=
  ⟨fun h => ⟨h.printable, h.no_quote, h.no_backslash⟩, fun h => ⟨h.1, h.2.1, h.2.2⟩⟩

instance (key : String) : Decidable (IsPlainKey key) :=
  decidable_of_iff _ (isPlainKey_iff key).symm

theorem IsPrintable.of_cons {c : Char} {cs : List Char} (h : IsPrintable (c :: cs)) :
    (0x20 ≤ c.toNat ∧ c.toNat ≤ 0x7e) ∧ IsPrintable cs :=
  ⟨h c List.mem_cons_self, fun d hd => h d (List.mem_cons_of_mem _ hd)⟩

theorem IsPrintable.no_nul {cs : List Char} (h : IsPrintable cs) : '\x00' ∉ cs :=
  fun hnul => absurd (h _ hnul).1 (by decide)

theorem exists_lt_of_isPrintable {c : Char} (h : 0x20 ≤ c.toNat ∧ c.toNat ≤ 0x7e) :
    ∃ n < 127, c = Char.ofNat n :=
  ⟨c.toNat, by omega, (Char.ofNat_toNat c).symm⟩

/-- Of the runs of folded characters only the first has ASCII characters. -/
theorem findSome?_caseFoldings {n : Nat} (h : n < 127) :
    caseFoldings.findSome? (foldIn? n) = foldIn? n (0x41, 0x5a, 1, 0x61) := by
  have others : caseFoldings.tail.all (fun run => 127 < run.1) = true := by decide
  have none_of_others : caseFoldings.tail.findSome? (foldIn? n) = none := by
    refine List.findSome?_eq_none_iff.2 fun run hrun => ?_
    have above := of_decide_eq_true (List.all_eq_true.1 others run hrun)
    rw [foldIn?, if_neg (by omega)]
  have runs : caseFoldings = (0x41, 0x5a, 1, 0x61) :: caseFoldings.tail := rfl
  rw [runs, List.findSome?_cons, none_of_others]
  cases foldIn? n (0x41, 0x5a, 1, 0x61) <;> rfl

/-- Case folding of ASCII characters is that of SQLite. -/
theorem foldCase_eq_toLower {c : Char} (h : 0x20 ≤ c.toNat ∧ c.toNat ≤ 0x7e) :
    foldCase c = c.toLower := by
  have ascii : ∀ n < 127, (foldIn? (Char.ofNat n).toNat (0x41, 0x5a, 1, 0x61)).elim
      (Char.ofNat n) Char.ofNat = (Char.ofNat n).toLower := by decide
  obtain ⟨n, hn, rfl⟩ := exists_lt_of_isPrintable h
  rw [foldCase, findSome?_caseFoldings (by omega), ← ascii n hn]
  cases foldIn? (Char.ofNat n).toNat (0x41, 0x5a, 1, 0x61) <;> rfl

end Text

/-! ## Values -/

namespace Value

/-- What makes a value plain beside the values inside it. -/
def IsPlain : Value → Prop
  | .number n => ∃ i : Int, n = .int i ∧ i.natAbs ≤ 2 ^ 53
  | .string s => Text.IsPrintable s.toList ∧
    ∀ numeral, Numeral.ofText? s.toList = some numeral → numeral.IsShort
  | .object fields => ∀ entry ∈ fields, Text.IsPlainKey entry.1
  | _ => True

/-- Every value inside a value is plain, and so is the value. -/
def Plain (v : Value) : Prop := v.Every IsPlain

theorem plain_null : Plain .null := trivial

theorem Plain.number {n : Number} (h : (Value.number n).Plain) :
    ∃ i : Int, n = .int i ∧ i.natAbs ≤ 2 ^ 53 := h

theorem Plain.string {s : String} (h : (Value.string s).Plain) : Text.IsPrintable s.toList := h.1

theorem Plain.isShort {s : String} (h : (Value.string s).Plain) {numeral : Numeral}
    (hnumeral : Numeral.ofText? s.toList = some numeral) : numeral.IsShort :=
  h.2 numeral hnumeral

/-! ## Equality -/

theorem equal_int_iff {i j : Int} (hi : i.natAbs ≤ 2 ^ 53) (hj : j.natAbs ≤ 2 ^ 53) :
    (Number.int i).equal (.int j) = true ↔ i = j := by
  simp only [Number.equal, Number.toDouble, Double.equal, Double.signed_ofInt hi,
    Double.signed_ofInt hj, beq_iff_eq, Double.mul_one_inj]

mutual

/-- Plain values are equal exactly if they are the same value. -/
theorem equal_iff : ∀ {v w : Value}, v.Plain → w.Plain → (v.equal w = true ↔ v = w)
  | .null, w, _, _ => by cases w <;> simp [equal]
  | .bool a, w, _, _ => by cases w <;> simp [equal]
  | .number a, w, hv, hw => by
    cases w with
    | number b =>
      obtain ⟨i, rfl, hi⟩ := hv
      obtain ⟨j, rfl, hj⟩ := hw
      simpa [equal] using equal_int_iff hi hj
    | _ => simp [equal]
  | .string a, w, _, _ => by cases w <;> simp [equal]
  | .array a, w, hv, hw => by
    cases w with
    | array b => simpa [equal] using equalItems_iff hv.2 hw.2
    | _ => simp [equal]
  | .object a, w, hv, hw => by
    cases w with
    | object b => simpa [equal] using equalFields_iff hv.2 hw.2
    | _ => simp [equal]

theorem equalItems_iff : ∀ {a b : List Value}, EveryItem IsPlain a → EveryItem IsPlain b →
    (equalItems a b = true ↔ a = b)
  | [], b, _, _ => by cases b <;> simp [equalItems]
  | v :: a, b, ha, hb => by
    cases b with
    | nil => simp [equalItems]
    | cons w b => simp [equalItems, equal_iff ha.1 hb.1, equalItems_iff ha.2 hb.2]

theorem equalFields_iff : ∀ {a b : List (String × Value)}, EveryField IsPlain a →
    EveryField IsPlain b → (equalFields a b = true ↔ a = b)
  | [], b, _, _ => by cases b <;> simp [equalFields]
  | (j, v) :: a, b, ha, hb => by
    cases b with
    | nil => simp [equalFields]
    | cons entry b =>
      obtain ⟨k, w⟩ := entry
      simp [equalFields, equal_iff ha.1 hb.1, equalFields_iff ha.2 hb.2, and_assoc]

end

end Value

end RecordStore
