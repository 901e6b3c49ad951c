import RecordStore.Proofs.Double.Text
import RecordStore.Proofs.Value.Every
import RecordStore.Proofs.Value.Text
import RecordStore.Value.Reader

/-!
# Values are read back from their text

The text of a value is read as the value again, with each double as it is read back from its own text
(`Value.reread`), unless the value has more levels than may be opened (`Value.read?_render`).
-/

namespace RecordStore

/-! ## Numbers -/

namespace Number

/-- Whether a number is one that a payload can have. -/
def IsStored : Number → Prop
  | .int n => -2 ^ 63 ≤ n ∧ n < 2 ^ 64
  | .double d => d.IsBinary64

/-- The numeral that is the text of a number. -/
def numeral : Number → Numeral
  | .int n => ⟨decide (n < 0), Nat.toDigits 10 n.natAbs, [], none⟩
  | .double d => d.numeral

/-- A number as it is read back from its text. -/
def reread : Number → Number
  | .int n => .int n
  | .double d => d.numeral.number?.getD (.double d)

theorem text_numeral (n : Number) : n.numeral.text = n.text := by
  cases n with
  | int n =>
    show _ = intText n
    rw [intText]
    by_cases hneg : n < 0 <;>
      simp [numeral, Numeral.text, Numeral.fractionText, Numeral.exponentText, hneg]
  | double d => exact d.text_numeral

theorem isWritten_numeral (n : Number) : n.numeral.IsWritten := by
  cases n with
  | int n =>
    exact ⟨all_isDigit_toDigits _, Nat.toDigits_ne_nil, toDigits_ne_spare_zero _, rfl,
      fun _ _ h => by cases h⟩
  | double d => exact d.isWritten_numeral

theorem number?_numeral {n : Number} (h : n.IsStored) : n.numeral.number? = some n.reread := by
  cases n with
  | int n =>
    obtain ⟨low, high⟩ := h
    have value : Numeral.ofDigits (Nat.toDigits 10 n.natAbs) = n.natAbs :=
      Numeral.ofDigits_toDigits _
    have fits : Numeral.ofDigits ((numeral (.int n)).whole ++ (numeral (.int n)).fraction) < 2 ^ 64 := by
      show Numeral.ofDigits (Nat.toDigits 10 n.natAbs ++ []) < 2 ^ 64
      rw [List.append_nil, value]
      omega
    rw [Numeral.number?_integer fits rfl rfl]
    show some (Numeral.integer (numeral (.int n)) (Numeral.ofDigits (Nat.toDigits 10 n.natAbs))) =
      some (.int n)
    rw [value, Numeral.integer, numeral]
    by_cases hneg : n < 0
    · have small : ¬ (n.natAbs = 0 ∨ 2 ^ 63 < n.natAbs) := by omega
      have whole : -(n.natAbs : Int) = n := by omega
      simp only [hneg, decide_true, Bool.not_true, Bool.false_eq_true, if_false, if_neg small, whole]
    · have whole : (n.natAbs : Int) = n := by omega
      simp [hneg, whole]
  | double d =>
    obtain ⟨m, hm⟩ := Option.isSome_iff_exists.1 (Double.isSome_number?_numeral h)
    show d.numeral.number? = some (d.numeral.number?.getD _)
    rw [hm]
    rfl

/-- Whether a numeral can begin with a character. -/
def IsLead (c : Char) : Prop := c = '-' ∨ Numeral.isDigit c = true

instance (c : Char) : Decidable (IsLead c) := inferInstanceAs (Decidable (_ ∨ _))

theorem IsLead.not_space {c : Char} (h : IsLead c) : Numeral.isSpace c = false := by
  rw [Bool.eq_false_iff]
  intro hspace
  simp only [Numeral.isSpace, Bool.or_eq_true, beq_iff_eq] at hspace
  rcases hspace with ((rfl | rfl) | rfl) | rfl <;> exact absurd h (by decide)

theorem exists_cons_text (n : Number) : ∃ c cs, n.text = c :: cs ∧ IsLead c := by
  have written := n.isWritten_numeral
  obtain ⟨c, cs, hwhole⟩ := List.exists_cons_of_ne_nil written.whole_ne_nil
  have digit : Numeral.isDigit c = true := List.all_eq_true.1 written.whole c (by simp [hwhole])
  rw [← text_numeral, Numeral.text, hwhole]
  cases n.numeral.negative with
  | false => exact ⟨_, _, rfl, .inr digit⟩
  | true => exact ⟨_, _, rfl, .inl rfl⟩

end Number

namespace Value

/-! ## Strings -/

theorem escapeChar_control : ∀ n < 32, n ∈ [8, 9, 10, 12, 13] ∨
    (escapeChar (Char.ofNat n) = ['\\', 'u', '0', '0', hexDigit (n / 16), hexDigit (n % 16)] ∧
      hexWord? '0' '0' (hexDigit (n / 16)) (hexDigit (n % 16)) = some n) := by
  decide +kernel

/-- A character is read back from its text in a string. -/
theorem readString?_escapeChar (c : Char) (rest : List Char) :
    readString? (escapeChar c ++ rest) = consChar c (readString? rest) := by
  by_cases hcontrol : c.toNat < 32
  · rcases escapeChar_control c.toNat hcontrol with named | ⟨text, value⟩
    · simp only [List.mem_cons, List.not_mem_nil, or_false] at named
      rcases named with code | code | code | code | code <;>
        rw [← Char.ofNat_toNat c, code] <;> rfl
    · have below : c.toNat < 0xd800 := by omega
      rw [Char.ofNat_toNat] at text
      rw [text, List.cons_append, List.cons_append, List.cons_append, List.cons_append,
        List.cons_append, List.cons_append, List.nil_append, readString?, value]
      dsimp only
      rw [if_pos (.inl below), Char.ofNat_toNat]
  · by_cases hquote : c = '"'
    · subst hquote
      rfl
    by_cases hescape : c = '\\'
    · subst hescape
      rfl
    have text : escapeChar c = [c] := by
      unfold escapeChar
      split <;> first | exact absurd rfl hquote | exact absurd rfl hescape |
        exact absurd (by decide) hcontrol | exact if_neg hcontrol
    rw [text, List.singleton_append, readString?, if_neg hcontrol]
    · exact hquote
    · exact fun _ _ _ _ _ h _ => hescape h
    · exact fun _ _ h _ => hescape h

theorem readString?_escaped (cs rest : List Char) :
    readString? (cs.flatMap escapeChar ++ '"' :: rest) = some (cs, rest) := by
  induction cs with
  | nil => rfl
  | cons c cs ih =>
    rw [List.flatMap_cons, List.append_assoc, readString?_escapeChar, ih]
    rfl

/-! ## Values -/

mutual

/-- A value as it is read back from its text: its doubles are those that their texts are read as. -/
def reread : Value → Value
  | .number n => .number n.reread
  | .array items => .array (rereadItems items)
  | .object fields => .object (rereadFields fields)
  | v => v
termination_by structural v => v

def rereadItems : List Value → List Value
  | [] => []
  | v :: rest => v.reread :: rereadItems rest
termination_by structural items => items

def rereadFields : List (String × Value) → List (String × Value)
  | [] => []
  | (k, v) :: rest => (k, v.reread) :: rereadFields rest
termination_by structural fields => fields

end

theorem keys_rereadFields (fields : Fields) : Keyed.keys (rereadFields fields) = Keyed.keys fields := by
  induction fields with
  | nil => rfl
  | cons field rest ih => exact congrArg (field.1 :: ·) ih

theorem ofFields_rereadFields {fields : Fields} (h : Keyed.Sorted fields) :
    ofFields (rereadFields fields) = .object (rereadFields fields) := by
  have sorted : Keyed.Sorted (rereadFields fields) := by
    rw [Keyed.Sorted, keys_rereadFields]
    exact h
  exact congrArg Value.object (Keyed.ofList_eq_self sorted)

/-- Whether the numbers in a value are such as a payload can have. -/
def HasStoredNumbers : Value → Prop := Every fun v => ∀ n, v = .number n → n.IsStored

theorem hasStoredNumbers_nested (n : Nat) : (nested n).HasStoredNumbers := by
  induction n with
  | zero => exact fun _ h => by cases h
  | succ n ih => exact ⟨fun _ h => (by cases h), ih, trivial⟩

/-- A text begins neither with white space nor with a bracket that closes another one. -/
theorem exists_lead (v : Value) :
    ∃ c cs, v.text = c :: cs ∧ Numeral.isSpace c = false ∧ c ≠ ']' := by
  cases v with
  | number n =>
    obtain ⟨c, cs, text, lead⟩ := n.exists_cons_text
    refine ⟨c, cs, text, lead.not_space, ?_⟩
    rintro rfl
    exact absurd lead (by decide)
  | bool b => cases b <;> exact ⟨_, _, rfl, rfl, by decide⟩
  | _ => exact ⟨_, _, rfl, rfl, by decide⟩

theorem skipSpace_cons {c : Char} (h : Numeral.isSpace c = false) (cs : List Char) :
    skipSpace (c :: cs) = c :: cs := by
  rw [skipSpace, List.dropWhile_cons_of_neg]
  rw [h]
  exact Bool.false_ne_true

theorem readValue_numeral (depth fuel : Nat) {c : Char} (h : Number.IsLead c) (cs : List Char) :
    readValue depth (fuel + 1) (c :: cs) = (do
      let (numeral, rest) ← Numeral.scan? (c :: cs)
      some (.number (← numeral.number?), rest)) := by
  rw [readValue, skipSpace_cons h.not_space]
  split <;> first | (next heq => cases heq; exact absurd h (by decide)) | rfl

/-- A number is read in its text, and what comes behind it is left. -/
theorem readValue_number (depth fuel : Nat) {n : Number} (h : n.IsStored) {rest : List Char}
    (hrest : Numeral.EndsNumeral rest) :
    readValue depth (fuel + 1) (n.text ++ rest) = some (.number n.reread, rest) := by
  obtain ⟨c, cs, text, lead⟩ := n.exists_cons_text
  have scanned := Numeral.scan?_text hrest n.isWritten_numeral
  rw [Number.text_numeral, text, List.cons_append] at scanned
  rw [text, List.cons_append, readValue_numeral depth fuel lead, scanned]
  simp [Number.number?_numeral h]

theorem endsNumeral_itemsTail (items : List Value) (rest : List Char) :
    Numeral.EndsNumeral (itemsTail items ++ ']' :: rest) := by
  cases items <;> exact Numeral.endsNumeral_cons (by decide) _

theorem endsNumeral_fieldsTail (fields : Fields) (rest : List Char) :
    Numeral.EndsNumeral (fieldsTail fields ++ '\x7d' :: rest) := by
  cases fields <;> exact Numeral.endsNumeral_cons (by decide) _

/-- Whether a value is read in its text, and what comes behind it is left, unless it has too many
levels. -/
def IsReadBack (v : Value) : Prop :=
  ∀ (depth fuel : Nat) (rest : List Char), 2 * v.text.length ≤ fuel + 1 →
    Numeral.EndsNumeral rest →
    readValue depth fuel (v.text ++ rest) = if v.depth ≤ depth then some (v.reread, rest) else none

theorem text_length_pos (v : Value) : 0 < v.text.length := by
  obtain ⟨c, cs, text, -⟩ := v.exists_lead
  rw [text]
  exact Nat.succ_pos _

section

variable {v : Value} {depth fuel : Nat} {cs rest : List Char}

theorem readItems_of_none (h : readValue depth fuel cs = none) :
    readItems depth (fuel + 1) cs = none := by
  simp [readItems, h]

theorem readItems_of_comma (h : readValue depth fuel cs = some (v, ',' :: rest)) :
    readItems depth (fuel + 1) cs =
      (readItems depth fuel rest).map fun read => (v :: read.1, read.2) := by
  simp [readItems, skipSpace_cons, Numeral.isSpace, h]

theorem readItems_of_bracket (h : readValue depth fuel cs = some (v, ']' :: rest)) :
    readItems depth (fuel + 1) cs = some ([v], rest) := by
  simp [readItems, skipSpace_cons, Numeral.isSpace, h]

end

/-- The elements of an array are read up to its closing bracket. -/
theorem readItems_text {items : List Value} :
    ∀ (v : Value) (depth fuel : Nat) (rest : List Char), (∀ w ∈ v :: items, w.IsReadBack) →
      2 * (itemsText (v :: items)).length ≤ fuel →
      readItems depth fuel (itemsText (v :: items) ++ ']' :: rest) =
        if depthOfItems (v :: items) ≤ depth then some (rereadItems (v :: items), rest) else none := by
  induction items with
  | nil =>
    intro v depth fuel rest h hfuel
    have text : itemsText [v] = v.text := rfl
    have pos := v.text_length_pos
    rw [text] at hfuel
    obtain ⟨fuel, rfl⟩ : ∃ n, fuel = n + 1 := ⟨fuel - 1, by omega⟩
    have read := h v List.mem_cons_self depth fuel (']' :: rest) (by omega)
      (endsNumeral_itemsTail [] rest)
    have levels : depthOfItems [v] = v.depth := Nat.max_zero _
    rw [text, levels]
    by_cases hdepth : v.depth ≤ depth
    · rw [if_pos hdepth] at read ⊢
      exact readItems_of_bracket read
    · rw [if_neg hdepth] at read ⊢
      exact readItems_of_none read
  | cons next items ih =>
    intro v depth fuel rest h hfuel
    obtain ⟨back, back_rest⟩ := List.forall_mem_cons.1 h
    have tail : itemsTail (next :: items) = ',' :: itemsText (next :: items) := rfl
    have pos := v.text_length_pos
    rw [itemsText_cons, tail, List.length_append, List.length_cons] at hfuel
    obtain ⟨fuel, rfl⟩ : ∃ n, fuel = n + 1 := ⟨fuel - 1, by omega⟩
    have read := back depth fuel (',' :: (itemsText (next :: items) ++ ']' :: rest)) (by omega)
      (endsNumeral_itemsTail (next :: items) rest)
    have others := ih next depth fuel rest back_rest (by omega)
    have levels : depthOfItems (v :: next :: items) ≤ depth ↔
        v.depth ≤ depth ∧ depthOfItems (next :: items) ≤ depth := Nat.max_le
    rw [itemsText_cons, tail, List.append_assoc, List.cons_append]
    by_cases hdepth : v.depth ≤ depth
    · rw [if_pos hdepth] at read
      rw [readItems_of_comma read, others]
      by_cases hrest : depthOfItems (next :: items) ≤ depth
      · rw [if_pos hrest, if_pos (levels.2 ⟨hdepth, hrest⟩)]
        rfl
      · rw [if_neg hrest, if_neg fun h => hrest (levels.1 h).2]
        rfl
    · rw [if_neg hdepth] at read
      rw [readItems_of_none read, if_neg fun h => hdepth (levels.1 h).1]

section

variable {k : String} {v : Value} {depth fuel : Nat} {cs rest : List Char}

theorem skipSpace_quotedText : skipSpace (quotedText k ++ cs) =
    '"' :: (k.toList.flatMap escapeChar ++ '"' :: cs) := by
  rw [quotedText, List.cons_append, skipSpace_cons rfl, List.append_assoc]
  rfl

theorem readFields_of_none (h : readValue depth fuel cs = none) :
    readFields depth (fuel + 1) (quotedText k ++ ':' :: cs) = none := by
  rw [readFields, skipSpace_quotedText]
  simp [readString?_escaped, skipSpace_cons, Numeral.isSpace, h]

theorem readFields_of_comma (h : readValue depth fuel cs = some (v, ',' :: rest)) :
    readFields depth (fuel + 1) (quotedText k ++ ':' :: cs) =
      (readFields depth fuel rest).map fun read => ((k, v) :: read.1, read.2) := by
  rw [readFields, skipSpace_quotedText]
  simp [readString?_escaped, skipSpace_cons, Numeral.isSpace, h]

theorem readFields_of_brace (h : readValue depth fuel cs = some (v, '\x7d' :: rest)) :
    readFields depth (fuel + 1) (quotedText k ++ ':' :: cs) = some ([(k, v)], rest) := by
  rw [readFields, skipSpace_quotedText]
  simp [readString?_escaped, skipSpace_cons, Numeral.isSpace, h]

end

/-- The fields of an object are read up to its closing brace. -/
theorem readFields_text {fields : Fields} :
    ∀ (k : String) (v : Value) (depth fuel : Nat) (rest : List Char),
      (∀ entry ∈ (k, v) :: fields, entry.2.IsReadBack) →
      2 * (fieldsText ((k, v) :: fields)).length ≤ fuel →
      readFields depth fuel (fieldsText ((k, v) :: fields) ++ '\x7d' :: rest) =
        if depthOfFields ((k, v) :: fields) ≤ depth then
          some (rereadFields ((k, v) :: fields), rest) else none := by
  induction fields with
  | nil =>
    intro k v depth fuel rest h hfuel
    have text : fieldsText [(k, v)] = quotedText k ++ ':' :: v.text := rfl
    rw [text, List.length_append, List.length_cons] at hfuel
    obtain ⟨fuel, rfl⟩ : ∃ n, fuel = n + 1 := ⟨fuel - 1, by omega⟩
    have back : v.IsReadBack := h (k, v) List.mem_cons_self
    have read := back depth fuel ('\x7d' :: rest) (by omega) (endsNumeral_fieldsTail [] rest)
    have levels : depthOfFields [(k, v)] = v.depth := Nat.max_zero _
    rw [text, List.append_assoc, List.cons_append, levels]
    by_cases hdepth : v.depth ≤ depth
    · rw [if_pos hdepth] at read ⊢
      exact readFields_of_brace read
    · rw [if_neg hdepth] at read ⊢
      exact readFields_of_none read
  | cons next fields ih =>
    intro k v depth fuel rest h hfuel
    obtain ⟨j, w⟩ := next
    have tail : fieldsTail ((j, w) :: fields) = ',' :: fieldsText ((j, w) :: fields) := rfl
    rw [fieldsText_cons, tail, List.length_append, List.length_cons, List.length_append,
      List.length_cons] at hfuel
    obtain ⟨fuel, rfl⟩ : ∃ n, fuel = n + 1 := ⟨fuel - 1, by omega⟩
    have back : v.IsReadBack := h (k, v) List.mem_cons_self
    have read := back depth fuel (',' :: (fieldsText ((j, w) :: fields) ++ '\x7d' :: rest)) (by omega)
      (endsNumeral_fieldsTail ((j, w) :: fields) rest)
    have others := ih j w depth fuel rest
      (fun entry hentry => h entry (List.mem_cons_of_mem _ hentry)) (by omega)
    have levels : depthOfFields ((k, v) :: (j, w) :: fields) ≤ depth ↔
        v.depth ≤ depth ∧ depthOfFields ((j, w) :: fields) ≤ depth := Nat.max_le
    rw [fieldsText_cons, tail, List.append_assoc, List.cons_append, List.append_assoc,
      List.cons_append]
    by_cases hdepth : v.depth ≤ depth
    · rw [if_pos hdepth] at read
      rw [readFields_of_comma read, others]
      by_cases hrest : depthOfFields ((j, w) :: fields) ≤ depth
      · rw [if_pos hrest, if_pos (levels.2 ⟨hdepth, hrest⟩)]
        rfl
      · rw [if_neg hrest, if_neg fun h => hrest (levels.1 h).2]
        rfl
    · rw [if_neg hdepth] at read
      rw [readFields_of_none read, if_neg fun h => hdepth (levels.1 h).1]

theorem readValue_bracket (depth fuel : Nat) {c : Char} (hspace : Numeral.isSpace c = false)
    (hc : c ≠ ']') (cs : List Char) :
    readValue (depth + 1) (fuel + 1) ('[' :: c :: cs) =
      (readItems depth fuel (c :: cs)).map fun read => (.array read.1, read.2) := by
  have skipped := skipSpace_cons hspace cs
  rw [readValue, skipSpace_cons rfl]
  simp only [Nat.succ_ne_zero, if_false, skipped]
  split
  · next heq => exact absurd (List.cons.inj heq).1 hc
  · rfl

theorem readValue_quote (depth fuel : Nat) (cs : List Char) :
    readValue (depth + 1) (fuel + 1) ('\x7b' :: '"' :: cs) =
      (readFields depth fuel ('"' :: cs)).map fun read => (ofFields read.1, read.2) := by
  rw [readValue, skipSpace_cons rfl]
  rfl

theorem isReadBack_array {items : List Value} (h : ∀ v ∈ items, v.IsReadBack) :
    (Value.array items).IsReadBack := by
  intro depth fuel rest hfuel _
  have text : (Value.array items).text ++ rest = '[' :: (itemsText items ++ ']' :: rest) := by
    simp [Value.text]
  have length : (Value.array items).text.length = (itemsText items).length + 2 := by
    simp [Value.text]
  rw [length] at hfuel
  obtain ⟨fuel, rfl⟩ : ∃ n, fuel = n + 1 := ⟨fuel - 1, by omega⟩
  rw [text]
  cases depth with
  | zero =>
    rw [readValue, skipSpace_cons rfl]
    rfl
  | succ depth =>
    have levels : (Value.array items).depth ≤ depth + 1 ↔ depthOfItems items ≤ depth :=
      Nat.succ_le_succ_iff
    cases items with
    | nil =>
      rw [readValue, skipSpace_cons rfl, if_pos (levels.2 (Nat.zero_le _))]
      rfl
    | cons v items =>
      obtain ⟨c, cs, hv, hspace, hc⟩ := v.exists_lead
      have head : itemsText (v :: items) ++ ']' :: rest =
          c :: (cs ++ (itemsTail items ++ ']' :: rest)) := by
        rw [itemsText_cons, hv, List.append_assoc, List.cons_append]
      have items_read := readItems_text v depth fuel rest h (by omega)
      rw [head] at items_read ⊢
      rw [readValue_bracket depth fuel hspace hc, items_read]
      by_cases hdepth : depthOfItems (v :: items) ≤ depth
      · rw [if_pos hdepth, if_pos (levels.2 hdepth)]
        rfl
      · rw [if_neg hdepth, if_neg (mt levels.1 hdepth)]
        rfl

theorem isReadBack_object {fields : Fields} (hsorted : Keyed.Sorted fields)
    (h : ∀ entry ∈ fields, entry.2.IsReadBack) : (Value.object fields).IsReadBack := by
  intro depth fuel rest hfuel _
  have text : (Value.object fields).text ++ rest =
      '\x7b' :: (fieldsText fields ++ '\x7d' :: rest) := by
    simp [Value.text]
  have length : (Value.object fields).text.length = (fieldsText fields).length + 2 := by
    simp [Value.text]
  rw [length] at hfuel
  obtain ⟨fuel, rfl⟩ : ∃ n, fuel = n + 1 := ⟨fuel - 1, by omega⟩
  rw [text]
  cases depth with
  | zero =>
    rw [readValue, skipSpace_cons rfl]
    rfl
  | succ depth =>
    have levels : (Value.object fields).depth ≤ depth + 1 ↔ depthOfFields fields ≤ depth :=
      Nat.succ_le_succ_iff
    cases fields with
    | nil =>
      rw [readValue, skipSpace_cons rfl, if_pos (levels.2 (Nat.zero_le _))]
      rfl
    | cons field fields =>
      obtain ⟨k, v⟩ := field
      have head : fieldsText ((k, v) :: fields) ++ '\x7d' :: rest =
          '"' :: ((k.toList.flatMap escapeChar ++ ['"']) ++
            ':' :: (v.text ++ fieldsTail fields) ++ '\x7d' :: rest) := by
        rw [fieldsText_cons, quotedText, List.cons_append, List.cons_append]
      have fields_read := readFields_text k v depth fuel rest h (by omega)
      rw [head] at fields_read ⊢
      rw [readValue_quote, fields_read]
      by_cases hdepth : depthOfFields ((k, v) :: fields) ≤ depth
      · rw [if_pos hdepth, if_pos (levels.2 hdepth)]
        exact congrArg (fun v => some (v, rest)) (ofFields_rereadFields hsorted)
      · rw [if_neg hdepth, if_neg (mt levels.1 hdepth)]
        rfl

/-- A value in the form that payloads have is read in its text. -/
theorem isReadBack {v : Value} : v.Canonical → v.HasStoredNumbers → v.IsReadBack := by
  induction v using Value.induction with
  | leaf v harray hobject =>
    intro _ hnumbers depth fuel rest hfuel hrest
    have pos := v.text_length_pos
    obtain ⟨fuel, rfl⟩ : ∃ n, fuel = n + 1 := ⟨fuel - 1, by omega⟩
    cases v with
    | null => rfl
    | bool b => cases b <;> rfl
    | number n => exact readValue_number depth fuel (hnumbers n rfl) hrest
    | string s =>
      have text : (Value.string s).text ++ rest =
          '"' :: (s.toList.flatMap escapeChar ++ '"' :: rest) := by
        simp [Value.text, quotedText]
      have read := readString?_escaped s.toList rest
      rw [text, readValue, skipSpace_cons rfl]
      simp only [read, Option.map_some, String.ofList_toList]
      rfl
    | array items => cases harray
    | object fields => cases hobject
  | array items ih =>
    intro hcanonical hnumbers
    exact isReadBack_array fun v hv => ih v hv (hcanonical.item hv) (Every.item hnumbers hv)
  | object fields ih =>
    intro hcanonical hnumbers
    refine isReadBack_object hcanonical.1 fun entry hentry => ?_
    exact ih entry hentry (hcanonical.field hentry) (Every.field hnumbers hentry)

/-- The text of a value is read as the value, unless it has more levels than may be opened. -/
theorem read?_render {v : Value} (hcanonical : v.Canonical) (hnumbers : v.HasStoredNumbers) :
    read? v.render = if v.depth ≤ maxDepth then some v.reread else none := by
  have read := isReadBack hcanonical hnumbers maxDepth (2 * v.text.length + 2) [] (by omega)
    (fun _ h => by cases h)
  rw [List.append_nil] at read
  rw [read?, render, String.toList_ofList, read]
  by_cases hdepth : v.depth ≤ maxDepth
  · rw [if_pos hdepth, if_pos hdepth]
    rfl
  · rw [if_neg hdepth, if_neg hdepth]

end Value

end RecordStore
