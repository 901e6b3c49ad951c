import RecordStore.Proofs.Path.Text
import RecordStore.Sql.Condition

/-!
# Which texts are paths

A text is a path if it and every part between its points hold something, and no double quote. Then it is
read part by part (`Path.parse_eq_ok_iff`). In SQL a key stands between quotes and an index between
brackets, and neither holds the mark behind it, so that segments without wildcards are told by their
SQL text (`Sql.eq_of_pathText_eq`). In both forms a text has one path (`Path.parse_unambiguous`).
-/

namespace RecordStore

/-! ## Parts -/

namespace Segment

variable {raw : String} {part : List Char} {segment : Segment}

theorem parse_eq_ok_iff :
    parse raw part = .ok segment ↔ (part ≠ [] ∧ '"' ∉ part) ∧ ofPart part = segment := by
  by_cases hempty : part = []
  · subst hempty
    exact iff_of_false (fun h => by cases h) fun h => h.1.1 rfl
  by_cases hquote : '"' ∈ part
  · refine iff_of_false ?_ fun h => h.1.2 hquote
    intro h
    rw [parse, if_neg (by simpa using hempty), if_pos (by simpa using hquote)] at h
    cases h
  · rw [parse, if_neg (by simpa using hempty), if_neg (by simpa using hquote), Except.ok.injEq]
    exact (and_iff_right ⟨hempty, hquote⟩).symm

end Segment

/-! ## Texts -/

namespace Path

variable {raw : String} {path : Path}

theorem parse_eq_ok_iff :
    parse raw = .ok path ↔
      (raw ≠ "" ∧ ∀ part ∈ raw.toList.splitOn '.', part ≠ [] ∧ '"' ∉ part) ∧
        (raw.toList.splitOn '.').map Segment.ofPart = path.segments := by
  rw [← splitDots_eq_splitOn, parse]
  by_cases hempty : raw = ""
  · subst hempty
    exact iff_of_false (fun h => by cases h) fun h => h.1.1 rfl
  rw [if_neg (by simpa using hempty), bind_eq_ok]
  constructor
  · rintro ⟨segments, hsegments, h⟩
    cases h
    obtain ⟨hparts, hmap⟩ := (mapM_eq_ok_iff fun _ _ => Segment.parse_eq_ok_iff).1 hsegments
    exact ⟨⟨hempty, hparts⟩, hmap⟩
  · rintro ⟨⟨-, hparts⟩, hmap⟩
    exact ⟨path.segments, (mapM_eq_ok_iff fun _ _ => Segment.parse_eq_ok_iff).2 ⟨hparts, hmap⟩, rfl⟩

theorem exists_parse_iff : (∃ path, parse raw = .ok path) ↔
    raw ≠ "" ∧ ∀ part ∈ raw.toList.splitOn '.', part ≠ [] ∧ '"' ∉ part :=
  ⟨fun ⟨_, h⟩ => (parse_eq_ok_iff.1 h).1,
    fun h => ⟨⟨(raw.toList.splitOn '.').map Segment.ofPart⟩, parse_eq_ok_iff.2 ⟨h, rfl⟩⟩⟩

theorem hasWildcard_iff (h : parse raw = .ok path) :
    path.hasWildcard = true ↔ "[*]".toList ∈ raw.toList.splitOn '.' := by
  rw [hasWildcard, List.contains_iff_mem, ← (parse_eq_ok_iff.1 h).2, List.mem_map]
  simp only [Segment.ofPart_eq_wildcard_iff]
  exact ⟨fun ⟨part, hpart, heq⟩ => heq ▸ hpart, fun hpart => ⟨_, hpart, rfl⟩⟩

theorem parse_text (h : parse raw = .ok path) : parse path.text = .ok path :=
  let ⟨hne, hreadable⟩ := isReadable_of_parse h
  parse_joined_readable hne hreadable

end Path

/-! ## Texts in SQL -/

/-- What stands before a mark, and does not hold it, is told by a text, and so is what stands behind. -/
theorem append_mark_inj {mark : Char} {a b r s : List Char} (ha : mark ∉ a) (hb : mark ∉ b)
    (h : a ++ mark :: r = b ++ mark :: s) : a = b ∧ r = s := by
  have before : ∀ {cs : List Char} (rest : List Char), mark ∉ cs →
      (cs ++ mark :: rest).takeWhile (· != mark) = cs := by
    intro cs rest hcs
    rw [List.takeWhile_append_of_pos, List.takeWhile_cons_of_neg (by simp), List.append_nil]
    exact fun c hc => bne_iff_ne.2 fun heq => hcs (heq ▸ hc)
  have same := congrArg (List.takeWhile (· != mark)) h
  rw [before r ha, before s hb] at same
  subst same
  exact ⟨rfl, (List.cons.inj (List.append_cancel_left h)).2⟩

namespace Sql

variable {segment other : Segment} {segments others : List Segment}

/-- What a segment adds to the text of a path. -/
def segmentText : Segment → List Char
  | .key name => '.' :: '"' :: (name.toList ++ ['"'])
  | .index i => '[' :: ((Segment.indexText i).toList ++ [']'])
  | .wildcard => []

theorem toList_pathText (segments : List Segment) :
    (pathText segments).toList = segments.flatMap segmentText := by
  induction segments with
  | nil => rfl
  | cons segment rest ih => cases segment <;> simp [pathText, segmentText, ih]

/-- The text of a segment that is no wildcard tells the segment and where the text ends. -/
theorem segmentText_append_inj (h : segment.IsPart) (hplain : segment ≠ .wildcard)
    (hother : other.IsPart) (hplain' : other ≠ .wildcard) {r s : List Char}
    (heq : segmentText segment ++ r = segmentText other ++ s) : segment = other ∧ r = s := by
  cases segment with
  | wildcard => exact absurd rfl hplain
  | key name =>
    cases other with
    | wildcard => exact absurd rfl hplain'
    | index j => cases heq
    | key name' =>
      simp only [segmentText, List.cons_append, List.append_assoc, List.nil_append,
        List.cons.injEq, true_and] at heq
      obtain ⟨hname, hrest⟩ := append_mark_inj h.no_quote hother.no_quote heq
      exact ⟨congrArg Segment.key (String.toList_inj.1 hname), hrest⟩
  | index i =>
    cases other with
    | wildcard => exact absurd rfl hplain'
    | key name' => cases heq
    | index j =>
      simp only [segmentText, List.cons_append, List.append_assoc, List.nil_append,
        List.cons.injEq, true_and] at heq
      have bracket := fun k => Segment.not_mem_indexText (c := ']') rfl k
      obtain ⟨hindex, hrest⟩ := append_mark_inj (bracket i) (bracket j) heq
      exact ⟨congrArg Segment.index (Segment.indexText_inj (String.toList_inj.1 hindex)), hrest⟩

theorem segmentText_ne_nil (h : segment ≠ .wildcard) : segmentText segment ≠ [] := by
  cases segment with
  | wildcard => exact absurd rfl h
  | _ => exact List.cons_ne_nil _ _

/-- Segments without wildcards are told by their text in SQL. -/
theorem eq_of_pathText_eq (h : ∀ segment ∈ segments, segment.IsPart) (hplain : .wildcard ∉ segments)
    (hothers : ∀ segment ∈ others, segment.IsPart) (hplain' : .wildcard ∉ others)
    (heq : pathText segments = pathText others) : segments = others := by
  replace heq := congrArg String.toList heq
  rw [toList_pathText, toList_pathText] at heq
  induction segments generalizing others with
  | nil =>
    cases others with
    | nil => rfl
    | cons other rest' =>
      rw [List.mem_cons, not_or] at hplain'
      have nothing := (List.append_eq_nil_iff.1 heq.symm).1
      exact absurd nothing (segmentText_ne_nil (Ne.symm hplain'.1))
  | cons segment rest ih =>
    obtain ⟨hsegment, hrest⟩ := List.forall_mem_cons.1 h
    rw [List.mem_cons, not_or] at hplain
    cases others with
    | nil =>
      have nothing := (List.append_eq_nil_iff.1 heq).1
      exact absurd nothing (segmentText_ne_nil (Ne.symm hplain.1))
    | cons other rest' =>
      obtain ⟨hother, hrest'⟩ := List.forall_mem_cons.1 hothers
      rw [List.mem_cons, not_or] at hplain'
      obtain ⟨rfl, htexts⟩ := segmentText_append_inj hsegment (Ne.symm hplain.1) hother
        (Ne.symm hplain'.1) heq
      rw [ih hrest hplain.2 hrest' hplain'.2 htexts]

end Sql

namespace Path

/-- Exactly the texts are paths that hold something, as do all of their parts, and no double quote. A
path is read back from its text, has a wildcard if the text has one for a part, and is the only path
without wildcards that is written as it is in SQL. -/
theorem parse_unambiguous (raw : String) :
    ((∃ path, parse raw = .ok path) ↔
      raw ≠ "" ∧ ∀ part ∈ raw.toList.splitOn '.', part ≠ [] ∧ '"' ∉ part) ∧
    ∀ path, parse raw = .ok path →
      parse path.text = .ok path ∧
      (path.hasWildcard = true ↔ "[*]".toList ∈ raw.toList.splitOn '.') ∧
      (path.hasWildcard = false → ∀ raw' other, parse raw' = .ok other → other.hasWildcard = false →
        Sql.rootPathText path.segments = Sql.rootPathText other.segments → path = other) := by
  refine ⟨exists_parse_iff, fun path h => ⟨parse_text h, hasWildcard_iff h,
    fun hplain raw' other hother hplain' heq => ?_⟩⟩
  have parts := fun {raw path} (h : parse raw = .ok path) segment hsegment =>
    ((isReadable_of_parse h).2 segment hsegment).isPart
  have segments := Sql.eq_of_pathText_eq (parts h) (by simpa [hasWildcard] using hplain)
    (parts hother) (by simpa [hasWildcard] using hplain') (String.append_right_inj _ |>.1 heq)
  cases path
  cases other
  exact congrArg Path.mk segments

/-- An index with a spare zero, and a key that looks like one in SQL. -/
theorem parse_unambiguous_brackets :
    let path : Path := ⟨[.key "a", .index 7, .key "[0]"]⟩
    parse "a.07.[0]" = .ok path ∧ parse "a.7.[0]" = .ok path ∧
      Sql.rootPathText path.segments = "$.\"a\"[7].\"[0]\"" ∧ path.hasWildcard = false ∧
      "[*]".toList ∉ "a.07.[0]".toList.splitOn '.' ∧
      Sql.rootPathText [.key "a", .index 7, .index 0] ≠ Sql.rootPathText path.segments := by
  intro path
  have parsed : parse "a.07.[0]" = .ok path := rfl
  have parsed' : parse "a.7.0" = .ok ⟨[.key "a", .index 7, .index 0]⟩ := rfl
  obtain ⟨again, wildcard, only⟩ := (parse_unambiguous "a.07.[0]").2 path parsed
  refine ⟨parsed, again, by decide +kernel, rfl, fun h => ?_, fun heq => ?_⟩
  · exact absurd (wildcard.2 h) (by decide +kernel)
  · have same := only rfl "a.7.0" _ parsed' rfl heq.symm
    exact absurd same (by decide +kernel)

end Path

end RecordStore
