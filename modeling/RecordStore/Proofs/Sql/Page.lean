import RecordStore.Proofs.Sorting

/-!
# Pages in SQL

A statement asks for a slice by two counts, which are read as signed numbers: a negative limit is
none, and a negative offset is zero. A page that begins below `2 ^ 63` is shown as it is
(`Slice.rows_eq_pageOf`). One that begins behind is taken for the first page
(`Slice.rows_of_wrapped_skip`), where the slice itself shows the page (`Slice.of_eq_pageOf`).
-/

namespace RecordStore

/-- The items on a page, the first of which has number one. -/
def pageOf {α : Type} (page limit : UInt64) (items : List α) : List α :=
  items.extract ((page.toNat - 1) * limit.toNat) (page.toNat * limit.toNat)

namespace Slice

variable {α : Type}

/-! ## Signed counts -/

/-- The counts that 63 bits do not hold are read as negative numbers. -/
theorem parameter_neg {n : Nat} (hle : 2 ^ 63 ≤ n) (hlt : n < 2 ^ 64) : parameter n < 0 := by
  have wrapped : parameter n = (n : Int).bmod (2 ^ 64) := Int64.toInt_ofNat'
  rw [wrapped, Int.bmod_def]
  omega

/-- A limit that 63 bits do not hold is no limit. -/
theorem rows_of_wrapped_limit {slice : Slice} (hskip : slice.skip < 2 ^ 63)
    (hle : 2 ^ 63 ≤ slice.limit) (hlt : slice.limit < 2 ^ 64) (rows : List α) :
    slice.rows rows = rows.drop slice.skip := by
  have skip : parameter slice.skip = slice.skip := Int64.toInt_ofNat_of_lt hskip
  rw [Slice.rows, Sql.limited, if_pos (parameter_neg hle hlt), skip, Int.toNat_natCast]

/-- An offset that 63 bits do not hold is no offset. -/
theorem rows_of_wrapped_skip {slice : Slice} (hle : 2 ^ 63 ≤ slice.skip)
    (hlt : slice.skip < 2 ^ 64) (rows : List α) :
    slice.rows rows = (first slice.limit).rows rows := by
  have skip : (parameter slice.skip).toNat = 0 :=
    Int.toNat_of_nonpos (Int.le_of_lt (parameter_neg hle hlt))
  have none : (parameter (first slice.limit).skip).toNat = 0 := rfl
  rw [Slice.rows, Slice.rows, Sql.limited, Sql.limited, skip, none]
  rfl

/-! ## Pages -/

section

variable {page limit : UInt64} {slice : Slice} (h : ofPage page limit = .ok slice)

include h

/-- A page ends where its limit is reached. -/
theorem mul_limit_eq : page.toNat * limit.toNat = slice.skip + slice.limit := by
  obtain ⟨hpage, -, -, rfl⟩ := ofPage_eq_ok.1 h
  have pos : page.toNat ≠ 0 := fun hzero => hpage (UInt64.toNat_inj.1 hzero)
  rw [← Nat.succ_mul, Nat.succ_eq_add_one, Nat.sub_add_cancel (Nat.pos_of_ne_zero pos)]

theorem of_eq_pageOf (items : List α) : slice.of items = pageOf page limit items := by
  have ends := mul_limit_eq h
  obtain ⟨-, -, -, rfl⟩ := ofPage_eq_ok.1 h
  rw [of, pageOf, List.extract_eq_take_drop, ends, Nat.add_sub_cancel_left]

/-- A limit that 63 bits do not hold makes no difference to a list that ends on the page or before. -/
theorem rows_eq_pageOf (hskip : slice.skip < 2 ^ 63) {rows : List α}
    (hrows : slice.limit < 2 ^ 63 ∨ rows.length ≤ page.toNat * limit.toNat) :
    slice.rows rows = pageOf page limit rows := by
  rw [← of_eq_pageOf h]
  by_cases hlimit : slice.limit < 2 ^ 63
  · exact IsSigned.rows_eq_of ⟨hskip, hlimit⟩ rows
  · have ends : rows.length ≤ slice.skip + slice.limit :=
      mul_limit_eq h ▸ hrows.resolve_left hlimit
    have fits : slice.limit < 2 ^ 64 := by
      obtain ⟨-, -, -, rfl⟩ := ofPage_eq_ok.1 h
      exact UInt64.toNat_lt limit
    rw [rows_of_wrapped_limit hskip (Nat.le_of_not_lt hlimit) fits, of, List.take_of_length_le]
    rw [List.length_drop]
    omega

/-- A page that begins behind `2 ^ 63` is taken for the first one, and its limit for none if 63 bits do
not hold it either. -/
theorem rows_eq_first (hskip : 2 ^ 63 ≤ slice.skip) (rows : List α) :
    slice.rows rows = if slice.limit < 2 ^ 63 then rows.take slice.limit else rows := by
  obtain ⟨-, -, hfits, rfl⟩ := ofPage_eq_ok.1 h
  have begins : (first limit.toNat).skip < 2 ^ 63 := Nat.two_pow_pos 63
  rw [rows_of_wrapped_skip hskip hfits]
  split
  · next hlimit => exact IsSigned.rows_eq_of ⟨begins, hlimit⟩ rows
  · next hlimit =>
    exact rows_of_wrapped_limit begins (Nat.le_of_not_lt hlimit) (UInt64.toNat_lt limit) rows

end

/-- The two parameters of a page that is accepted select the items on it, like the slice, if the page
begins below `2 ^ 63`. If it begins behind they select what comes first. -/
theorem selects_page {page limit : UInt64} {slice : Slice} (h : ofPage page limit = .ok slice) :
    ∃ most skipped : Int, slice.fragment.params = [.integer most, .integer skipped] ∧
      ∀ {α : Type} (rows : List α),
        slice.of rows = pageOf page limit rows ∧
        ((page.toNat - 1) * limit.toNat < 2 ^ 63 →
          limit.toNat < 2 ^ 63 ∨ rows.length ≤ page.toNat * limit.toNat →
            Sql.limited most skipped rows = pageOf page limit rows) ∧
        (2 ^ 63 ≤ (page.toNat - 1) * limit.toNat → Sql.limited most skipped rows =
          if limit.toNat < 2 ^ 63 then rows.take limit.toNat else rows) := by
  obtain ⟨-, -, -, rfl⟩ := ofPage_eq_ok.1 h
  exact ⟨_, _, rfl, fun rows =>
    ⟨of_eq_pageOf h rows, fun hskip => rows_eq_pageOf h hskip,
      fun hskip => rows_eq_first h hskip rows⟩⟩

/-- The last of three pages is not full. -/
theorem selects_page_last : ∃ most skipped : Int,
    (Slice.mk 4 2).fragment.params = [.integer most, .integer skipped] ∧
      Sql.limited most skipped ["a", "b", "c", "d", "e"] = ["e"] := by
  obtain ⟨most, skipped, params, select⟩ :=
    @selects_page 3 2 ⟨4, 2⟩ rfl
  have selected := (select ["a", "b", "c", "d", "e"]).2.1 (by decide) (.inl (by decide))
  exact ⟨most, skipped, params, selected.trans (by decide)⟩

/-- A page far behind the end of a list, which its parameters take for the first one. -/
theorem selects_page_wrapped :
    ofPage 9223372036854775809 1 = .ok ⟨2 ^ 63, 1⟩ ∧
      (Slice.mk (2 ^ 63) 1).fragment.params = [.integer 1, .integer (-9223372036854775808)] ∧
      Sql.limited 1 (-9223372036854775808) ["a"] = ["a"] ∧
      pageOf 9223372036854775809 1 ["a"] = [] ∧ (Slice.mk (2 ^ 63) 1).of ["a"] = [] := by
  refine ⟨ofPage_eq_ok.2 (by decide +kernel), ?_, ?_, ?_, ?_⟩
  all_goals decide +kernel

end Slice

end RecordStore
