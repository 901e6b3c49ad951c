import RecordStore.Proofs.Value.Plain
import RecordStore.Value.Text

/-!
# The text of plain values

The text of a plain value tells the value and where it ends (`Value.text_append_inj`), so that plain
values have the same text only if they are the same (`Value.render_inj`). What follows a value
inside a text is a comma or a bracket, which matters for numbers alone.
-/

namespace RecordStore

/-- What may follow a number: the text does not go on with a digit. -/
def NoDigit (cs : List Char) : Prop := ∀ c, cs.head? = some c → c.isDigit = false

theorem noDigit_cons {c : Char} (h : c.isDigit = false) (cs : List Char) : NoDigit (c :: cs) := by
  rintro d hd
  cases hd
  exact h

/-! ## Numbers -/

theorem takeWhile_append_noDigit {ds a : List Char} (hds : ∀ c ∈ ds, c.isDigit = true)
    (ha : NoDigit a) : (ds ++ a).takeWhile Char.isDigit = ds := by
  rw [List.takeWhile_append_of_pos hds]
  cases a with
  | nil => simp
  | cons c cs =>
    have hc : c.isDigit = false := ha c rfl
    simp [hc]

theorem toDigits_append_inj {m n : Nat} {a b : List Char} (ha : NoDigit a) (hb : NoDigit b)
    (h : Nat.toDigits 10 m ++ a = Nat.toDigits 10 n ++ b) : m = n ∧ a = b := by
  have isDigit : ∀ k, ∀ c ∈ Nat.toDigits 10 k, c.isDigit = true :=
    fun k c hc => Nat.isDigit_of_mem_toDigits (by decide) (by decide) hc
  have digits : Nat.toDigits 10 m = Nat.toDigits 10 n := by
    have taken := congrArg (List.takeWhile Char.isDigit) h
    rwa [takeWhile_append_noDigit (isDigit m) ha, takeWhile_append_noDigit (isDigit n) hb] at taken
  refine ⟨?_, ?_⟩
  · rw [← Nat.ofDigitChars_ten_toDigits (n := m), digits, Nat.ofDigitChars_ten_toDigits]
  · rw [digits] at h
    exact List.append_cancel_left h

theorem exists_cons_toDigits (n : Nat) :
    ∃ c cs, Nat.toDigits 10 n = c :: cs ∧ c.isDigit = true := by
  cases h : Nat.toDigits 10 n with
  | nil => exact absurd h Nat.toDigits_ne_nil
  | cons c cs =>
    have hc : c ∈ Nat.toDigits 10 n := h ▸ List.mem_cons_self
    exact ⟨c, cs, rfl, Nat.isDigit_of_mem_toDigits (by decide) (by decide) hc⟩

theorem toDigits_ne_minus {m : Nat} {a b : List Char} : Nat.toDigits 10 m ++ a ≠ '-' :: b := by
  obtain ⟨c, cs, hm, hc⟩ := exists_cons_toDigits m
  intro h
  rw [hm, List.cons_append] at h
  cases h
  exact absurd hc (by decide)

theorem intText_append_inj {i j : Int} {a b : List Char} (ha : NoDigit a) (hb : NoDigit b)
    (h : intText i ++ a = intText j ++ b) : i = j ∧ a = b := by
  rw [intText, intText] at h
  by_cases hi : i < 0 <;> by_cases hj : j < 0
  · rw [if_pos hi, if_pos hj, List.cons_append, List.cons_append, List.cons.injEq] at h
    obtain ⟨abs, rest⟩ := toDigits_append_inj ha hb h.2
    exact ⟨by omega, rest⟩
  · rw [if_pos hi, if_neg hj, List.cons_append] at h
    exact absurd h.symm toDigits_ne_minus
  · rw [if_neg hi, if_pos hj, List.cons_append] at h
    exact absurd h toDigits_ne_minus
  · rw [if_neg hi, if_neg hj] at h
    obtain ⟨abs, rest⟩ := toDigits_append_inj ha hb h
    exact ⟨by omega, rest⟩

/-! ## Strings -/

theorem escapeChar_of_isPrintable {c : Char} (h : 0x20 ≤ c.toNat ∧ c.toNat ≤ 0x7e) :
    escapeChar c = if c = '"' ∨ c = '\\' then ['\\', c] else [c] := by
  obtain ⟨n, hn, rfl⟩ := Text.exists_lt_of_isPrintable h
  have all : ∀ n < 127, 0x20 ≤ (Char.ofNat n).toNat →
      escapeChar (Char.ofNat n) =
        if Char.ofNat n = '"' ∨ Char.ofNat n = '\\' then ['\\', Char.ofNat n]
        else [Char.ofNat n] := by decide
  exact all n hn h.1

theorem escapeChar_ne_quote {c : Char} (h : 0x20 ≤ c.toNat ∧ c.toNat ≤ 0x7e) {a b : List Char} :
    escapeChar c ++ a ≠ '"' :: b := by
  rw [escapeChar_of_isPrintable h]
  by_cases hc : c = '"' ∨ c = '\\'
  · rw [if_pos hc]
    intro h
    exact absurd (List.cons.inj h).1 (by decide)
  · rw [if_neg hc]
    intro h
    exact hc (Or.inl (List.cons.inj h).1)

theorem escapeChar_append_inj {c d : Char} (hc : 0x20 ≤ c.toNat ∧ c.toNat ≤ 0x7e)
    (hd : 0x20 ≤ d.toNat ∧ d.toNat ≤ 0x7e) {a b : List Char}
    (h : escapeChar c ++ a = escapeChar d ++ b) : c = d ∧ a = b := by
  rw [escapeChar_of_isPrintable hc, escapeChar_of_isPrintable hd] at h
  by_cases hc : c = '"' ∨ c = '\\' <;> by_cases hd : d = '"' ∨ d = '\\'
  · rw [if_pos hc, if_pos hd] at h
    simpa using h
  · rw [if_pos hc, if_neg hd] at h
    exact absurd (Or.inr (List.cons.inj h).1.symm) hd
  · rw [if_neg hc, if_pos hd] at h
    exact absurd (Or.inr (List.cons.inj h).1) hc
  · rw [if_neg hc, if_neg hd] at h
    simpa using h

theorem escaped_append_inj {cs : List Char} (hcs : Text.IsPrintable cs) :
    ∀ {ds a b : List Char}, Text.IsPrintable ds →
      cs.flatMap escapeChar ++ '"' :: a = ds.flatMap escapeChar ++ '"' :: b → cs = ds ∧ a = b := by
  induction cs with
  | nil =>
    intro ds a b hds h
    cases ds with
    | nil => exact ⟨rfl, (List.cons.inj h).2⟩
    | cons d ds =>
      rw [List.flatMap_cons, List.append_assoc] at h
      exact absurd h.symm (escapeChar_ne_quote hds.of_cons.1)
  | cons c cs ih =>
    intro ds a b hds h
    rw [List.flatMap_cons, List.append_assoc] at h
    cases ds with
    | nil => exact absurd h (escapeChar_ne_quote hcs.of_cons.1)
    | cons d ds =>
      rw [List.flatMap_cons, List.append_assoc] at h
      obtain ⟨rfl, rest⟩ := escapeChar_append_inj hcs.of_cons.1 hds.of_cons.1 h
      obtain ⟨rfl, hab⟩ := ih hcs.of_cons.2 hds.of_cons.2 rest
      exact ⟨rfl, hab⟩

theorem quotedText_append_inj {s t : String} (hs : Text.IsPrintable s.toList)
    (ht : Text.IsPrintable t.toList) {a b : List Char}
    (h : quotedText s ++ a = quotedText t ++ b) : s = t ∧ a = b := by
  simp only [quotedText, List.cons_append, List.append_assoc, List.nil_append, List.cons.injEq,
    true_and] at h
  obtain ⟨hst, hab⟩ := escaped_append_inj hs ht h
  exact ⟨String.toList_inj.1 hst, hab⟩

/-! ## Values -/

namespace Value

/-- The kind of the values whose text begins with a character. None begins with a bracket that
closes another one. -/
def kindOfLead (c : Char) : Nat :=
  if c = 'n' then 0 else if c = '"' then 2 else if c = '\x7b' then 3 else if c = '[' then 4
  else if c = 't' ∨ c = 'f' then 5 else if c = ']' ∨ c = '\x7d' then 6 else 1

theorem kindOfLead_of_isDigit {c : Char} (h : c.isDigit = true) : kindOfLead c = 1 := by
  have ne : ∀ d : Char, d.isDigit = false → c ≠ d := by
    rintro d hd rfl
    simp [h] at hd
  simp [kindOfLead, ne 'n' rfl, ne '"' rfl, ne '\x7b' rfl, ne '[' rfl, ne 't' rfl, ne 'f' rfl,
    ne ']' rfl, ne '\x7d' rfl]

/-- The first character of a text tells the kind of the value. -/
theorem exists_cons_text {v : Value} (h : v.Plain) :
    ∃ c cs, v.text = c :: cs ∧ kindOfLead c = v.kindRank := by
  cases v with
  | null => exact ⟨_, _, rfl, rfl⟩
  | bool b => cases b <;> exact ⟨_, _, rfl, rfl⟩
  | string s => exact ⟨_, _, rfl, rfl⟩
  | array items => exact ⟨_, _, rfl, rfl⟩
  | object fields => exact ⟨_, _, rfl, rfl⟩
  | number n =>
    obtain ⟨i, rfl, -⟩ := h.number
    have text_eq : (Value.number (.int i)).text = intText i := rfl
    rw [text_eq, intText]
    by_cases hi : i < 0
    · rw [if_pos hi]
      exact ⟨_, _, rfl, rfl⟩
    · rw [if_neg hi]
      obtain ⟨c, cs, hcs, hc⟩ := exists_cons_toDigits i.natAbs
      exact ⟨c, cs, hcs, kindOfLead_of_isDigit hc⟩

theorem kindRank_eq_of_text_append {v w : Value} (hv : v.Plain) (hw : w.Plain) {a b : List Char}
    (h : v.text ++ a = w.text ++ b) : v.kindRank = w.kindRank := by
  obtain ⟨c, cs, hc, hv⟩ := exists_cons_text hv
  obtain ⟨d, ds, hd, hw⟩ := exists_cons_text hw
  rw [hc, hd] at h
  rw [← hv, ← hw, (List.cons.inj h).1]

theorem text_append_ne_close {v : Value} (h : v.Plain) {c : Char} (hc : c = ']' ∨ c = '\x7d')
    {a b : List Char} : v.text ++ a ≠ c :: b := by
  obtain ⟨d, ds, hd, kind⟩ := exists_cons_text h
  intro h
  rw [hd] at h
  have close : kindOfLead d = 6 := by
    rw [(List.cons.inj h).1]
    rcases hc with rfl | rfl <;> rfl
  have below : v.kindRank < 6 := by cases v <;> simp [kindRank]
  omega

/-- What follows the first element of an array. -/
def itemsTail : List Value → List Char
  | [] => []
  | items => ',' :: itemsText items

theorem itemsText_cons (v : Value) (rest : List Value) :
    itemsText (v :: rest) = v.text ++ itemsTail rest := by
  cases rest <;> simp [itemsText, itemsTail]

/-- What follows the first field of an object. -/
def fieldsTail : List (String × Value) → List Char
  | [] => []
  | fields => ',' :: fieldsText fields

theorem fieldsText_cons (k : String) (v : Value) (rest : List (String × Value)) :
    fieldsText ((k, v) :: rest) = quotedText k ++ ':' :: (v.text ++ fieldsTail rest) := by
  cases rest <;> simp [fieldsText, fieldsTail]

theorem noDigit_itemsTail (rest : List Value) (a : List Char) :
    NoDigit (itemsTail rest ++ ']' :: a) := by
  cases rest <;> exact noDigit_cons (by decide) _

theorem noDigit_fieldsTail (rest : List (String × Value)) (a : List Char) :
    NoDigit (fieldsTail rest ++ '\x7d' :: a) := by
  cases rest <;> exact noDigit_cons (by decide) _

mutual

/-- The text of a plain value tells the value and where it ends. -/
theorem text_append_inj : ∀ {v w : Value} {a b : List Char}, v.Plain → w.Plain →
    NoDigit a → NoDigit b → v.text ++ a = w.text ++ b → v = w ∧ a = b
  | .null, w, a, b, hv, hw, ha, hb, h => by
    have kind := kindRank_eq_of_text_append hv hw h
    cases w with
    | null => exact ⟨rfl, List.append_cancel_left h⟩
    | _ => simp [kindRank] at kind
  | .bool c, w, a, b, hv, hw, ha, hb, h => by
    have kind := kindRank_eq_of_text_append hv hw h
    cases w with
    | bool d => cases c <;> cases d <;> simp_all [text]
    | _ => simp [kindRank] at kind
  | .number m, w, a, b, hv, hw, ha, hb, h => by
    have kind := kindRank_eq_of_text_append hv hw h
    cases w with
    | number n =>
      obtain ⟨i, rfl, -⟩ := hv.number
      obtain ⟨j, rfl, -⟩ := hw.number
      obtain ⟨rfl, rest⟩ := intText_append_inj ha hb h
      exact ⟨rfl, rest⟩
    | _ => simp [kindRank] at kind
  | .string s, w, a, b, hv, hw, ha, hb, h => by
    have kind := kindRank_eq_of_text_append hv hw h
    cases w with
    | string t =>
      obtain ⟨rfl, rest⟩ := quotedText_append_inj hv.string hw.string h
      exact ⟨rfl, rest⟩
    | _ => simp [kindRank] at kind
  | .array items, w, a, b, hv, hw, ha, hb, h => by
    have kind := kindRank_eq_of_text_append hv hw h
    cases w with
    | array others =>
      have inner : itemsText items ++ ']' :: a = itemsText others ++ ']' :: b := by
        simpa [text] using h
      obtain ⟨rfl, rest⟩ := itemsText_append_inj hv.2 hw.2 inner
      exact ⟨rfl, rest⟩
    | _ => simp [kindRank] at kind
  | .object fields, w, a, b, hv, hw, ha, hb, h => by
    have kind := kindRank_eq_of_text_append hv hw h
    cases w with
    | object others =>
      have inner : fieldsText fields ++ '\x7d' :: a = fieldsText others ++ '\x7d' :: b := by
        simpa [text] using h
      obtain ⟨rfl, rest⟩ := fieldsText_append_inj hv.1 hv.2 hw.1 hw.2 inner
      exact ⟨rfl, rest⟩
    | _ => simp [kindRank] at kind

theorem itemsText_append_inj : ∀ {items others : List Value} {a b : List Char},
    EveryItem IsPlain items → EveryItem IsPlain others →
    itemsText items ++ ']' :: a = itemsText others ++ ']' :: b → items = others ∧ a = b
  | [], others, a, b, _, hw, h => by
    cases others with
    | nil => exact ⟨rfl, (List.cons.inj h).2⟩
    | cons w others =>
      rw [itemsText_cons, List.append_assoc] at h
      exact absurd h.symm (text_append_ne_close hw.1 (Or.inl rfl))
  | v :: items, others, a, b, hv, hw, h => by
    rw [itemsText_cons, List.append_assoc] at h
    cases others with
    | nil => exact absurd h (text_append_ne_close hv.1 (Or.inl rfl))
    | cons w others =>
      rw [itemsText_cons, List.append_assoc] at h
      obtain ⟨rfl, tail⟩ := text_append_inj hv.1 hw.1 (noDigit_itemsTail items a)
        (noDigit_itemsTail others b) h
      have rest : items = others ∧ a = b := by
        cases items <;> cases others <;>
          simp only [itemsTail, List.cons_append, List.nil_append, List.cons.injEq] at tail
        · exact ⟨rfl, tail.2⟩
        · exact absurd tail.1 (by decide)
        · exact absurd tail.1 (by decide)
        · exact itemsText_append_inj hv.2 hw.2 tail.2
      exact ⟨by rw [rest.1], rest.2⟩

theorem fieldsText_append_inj : ∀ {fields others : List (String × Value)} {a b : List Char},
    (∀ entry ∈ fields, Text.IsPlainKey entry.1) → EveryField IsPlain fields →
    (∀ entry ∈ others, Text.IsPlainKey entry.1) → EveryField IsPlain others →
    fieldsText fields ++ '\x7d' :: a = fieldsText others ++ '\x7d' :: b → fields = others ∧ a = b
  | [], others, a, b, _, _, _, _, h => by
    cases others with
    | nil => exact ⟨rfl, (List.cons.inj h).2⟩
    | cons entry others =>
      obtain ⟨k, w⟩ := entry
      rw [fieldsText_cons] at h
      exact absurd (List.cons.inj h).1 (by decide)
  | (j, v) :: fields, others, a, b, hjs, hv, hks, hw, h => by
    rw [fieldsText_cons] at h
    cases others with
    | nil => exact absurd (List.cons.inj h).1 (by decide)
    | cons entry others =>
      obtain ⟨k, w⟩ := entry
      rw [fieldsText_cons] at h
      simp only [List.append_assoc, List.cons_append] at h
      obtain ⟨rfl, value⟩ := quotedText_append_inj (hjs _ List.mem_cons_self).printable
        (hks _ List.mem_cons_self).printable h
      obtain ⟨rfl, tail⟩ := text_append_inj hv.1 hw.1 (noDigit_fieldsTail fields a)
        (noDigit_fieldsTail others b) (List.cons.inj value).2
      have rest : fields = others ∧ a = b := by
        cases fields <;> cases others <;>
          simp only [fieldsTail, List.cons_append, List.nil_append, List.cons.injEq] at tail
        · exact ⟨rfl, tail.2⟩
        · exact absurd tail.1 (by decide)
        · exact absurd tail.1 (by decide)
        · exact fieldsText_append_inj (fun entry h => hjs entry (List.mem_cons_of_mem _ h)) hv.2
            (fun entry h => hks entry (List.mem_cons_of_mem _ h)) hw.2 tail.2
      exact ⟨by rw [rest.1], rest.2⟩

end

/-- Plain values have the same text exactly if they are the same value. -/
theorem render_inj {v w : Value} (hv : v.Plain) (hw : w.Plain) : v.render = w.render ↔ v = w := by
  have nil : NoDigit [] := by
    rintro c ⟨⟩
  constructor
  · intro h
    have text : v.text ++ [] = w.text ++ [] := by rw [String.ofList_injective h]
    exact (text_append_inj hv hw nil nil text).1
  · rintro rfl
    rfl

theorem render_beq {v w : Value} (hv : v.Plain) (hw : w.Plain) :
    (v.render == w.render) = v.equal w := by
  rw [Bool.eq_iff_iff, beq_iff_eq, render_inj hv hw, equal_iff hv hw]

end Value

end RecordStore
