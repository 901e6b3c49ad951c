import RecordStore.Backend.Collection
import RecordStore.Proofs.Document.Traversal
import RecordStore.Proofs.Sql.Decided
import RecordStore.Proofs.Sql.Place

/-!
# Queries for existence

A query for existence at a path without wildcards is decided by what the path finds where documents
are evaluated, and by what its segments lead to where SQL is (`Record.exists_decided`). A query for
absence selects the other records. SQL fails on payloads with too many levels. The two find the same
on a straight way, but not everywhere (`Record.exists_decided_apart`).
-/

namespace RecordStore

namespace Sql

/-! ## Exact places -/

theorem IsVerbatim.holdsNul_eq_false {segment : Segment} (h : IsVerbatim segment) :
    holdsNul segment = false := by
  cases segment with
  | key name => simpa [holdsNul] using h.no_nul
  | _ => rfl

/-- One step of SQL is the way that a segment leads. -/
theorem step?_eq_some_iff {v w : Value} {segment : Segment} (hsegment : IsVerbatim segment)
    (hcanonical : v.Canonical) (hkeys : v.EveryKey fun key => '\x00' ∉ key.toList)
    (hwildcard : segment ≠ .wildcard) :
    step? v segment = some w ↔ Path.Leads v [segment] w := by
  cases segment with
  | key name =>
    cases v with
    | object fields =>
      rw [step?, find?_names hsegment fun entry hentry =>
        Label.not_isPrefix_of_no_nul (hkeys.key hentry)]
      constructor
      · exact fun hget => .key (Keyed.mem_of_get? hget) (.here w)
      · rintro (_ | ⟨hfield, ⟨⟩⟩)
        exact (Keyed.mem_iff_get? hcanonical.1).1 hfield
    | _ =>
      constructor
      · rintro ⟨⟩
      · rintro ⟨⟩
  | index i =>
    cases v with
    | array items =>
      constructor
      · exact fun hitem => .index hitem (.here w)
      · rintro (_ | _ | ⟨hitem, ⟨⟩⟩)
        exact hitem
    | _ =>
      constructor
      · rintro ⟨⟩
      · rintro ⟨⟩
  | wildcard => exact absurd rfl hwildcard

section

variable {segments : List Segment} (hsegments : ∀ segment ∈ segments, IsVerbatim segment)

include hsegments

/-- What SQL finds at a place is what the segments lead to. -/
theorem follow?_eq_some_iff {v x : Value} (hcanonical : v.Canonical)
    (hkeys : v.EveryKey fun key => '\x00' ∉ key.toList) (hwildcard : .wildcard ∉ segments) :
    follow? (segments.map readSegment) v = some x ↔ Path.Leads v segments x := by
  induction segments generalizing v with
  | nil =>
    rw [List.map_nil, follow?]
    constructor
    · rintro ⟨⟩
      exact .here _
    · rintro ⟨⟩
      rfl
  | cons segment rest ih =>
    obtain ⟨hsegment, hrest⟩ := List.forall_mem_cons.1 hsegments
    rw [List.mem_cons, not_or] at hwildcard
    rw [List.map_cons, follow?, Option.bind_eq_some_iff, readSegment_eq hsegment,
      Path.leads_cons_iff]
    refine exists_congr fun w => ?_
    rw [step?_eq_some_iff hsegment hcanonical hkeys (Ne.symm hwildcard.1)]
    refine and_congr_right fun hw => ?_
    exact ih hrest (hw.canonical hcanonical) (hw.every hkeys) hwildcard.2

/-- No label ends the text of the path. -/
theorem comesToNul_of_verbatim (v : Value) : comesToNul (segments.map readSegment) v = false :=
  comesToNul_eq_false (fun segment hsegment => (hsegments segment hsegment).holdsNul_eq_false) v

end

/-! ## Conditions -/

section

variable {path : Path} (hwildcard : .wildcard ∉ path.segments) (r : Record) (flag : Bool)

include hwildcard

/-- The condition for existence, or its negation, is decided by whether anything is found. -/
theorem eval_exists : (payload path (.exists flag)).eval ⟨r, []⟩ =
    some ((follow? (path.segments.map readSegment) r.payload).isSome == flag) := by
  have positive : (Condition.isNotNull (.payloadType ⟨none, path.segments⟩)).eval ⟨r, []⟩ =
      some (follow? (path.segments.map readSegment) r.payload).isSome := by
    rw [Condition.eval, Term.eval, Env.value?, Env.path]
    cases follow? (path.segments.map readSegment) r.payload <;> rfl
  rw [payload, pathCondition_eq _ hwildcard]
  cases flag with
  | true => exact positive.trans (by rw [beq_true])
  | false =>
    have negated : ofPositive (.exists false)
        ((Operand.ofPlace ⟨none, [] ++ path.segments⟩).positive (.exists false)) =
          .not (.isNotNull (.payloadType ⟨none, path.segments⟩)) := rfl
    rw [negated, Condition.eval, positive, Option.map_some, beq_false]

/-- Computing the condition for existence follows one path. -/
theorem fails_exists : (payload path (.exists flag)).fails ⟨r, []⟩ =
    (isTooDeep r.payload || comesToNul (path.segments.map readSegment) r.payload) := by
  rw [payload, pathCondition_eq _ hwildcard]
  cases flag <;> rfl

/-- What SQL decides of existence and of absence, unless it fails. -/
theorem decision?_exists : (payload path (.exists flag)).decision? r =
    if isTooDeep r.payload || comesToNul (path.segments.map readSegment) r.payload then none
    else some ((follow? (path.segments.map readSegment) r.payload).isSome == flag) := by
  rw [Condition.decision?, fails_exists hwildcard, Condition.selects, eval_exists hwildcard,
    Option.some_beq_some, beq_true]

end

end Sql

/-! ## Queries -/

/-- The queries for existence and for absence at a path are accepted, whatever the present and the
option that is not for them, and what is decided of a record: existence where documents are evaluated,
existence where SQL is unless it fails, and absence where the other is not. -/
def Record.AnswersExists (r : Record) (field : String) (byDocument : Bool) (bySql : Option Bool) :
    Prop :=
  ∀ flag reference caseSensitive, ∃ clause,
    PartItem.clause ⟨.exists, field, .bool flag, caseSensitive⟩ reference = .ok clause ∧
      Collection.satisfies clause.document r = .ok (byDocument == flag) ∧
      clause.condition.decision? r = bySql.map (· == flag)

/-- What SQL decides of existence at the end of a path, unless it fails. -/
def Record.existsBySql (r : Record) (path : Path) : Option Bool :=
  if Sql.isTooDeep r.payload || Sql.comesToNul (path.segments.map Sql.readSegment) r.payload then
    none
  else some (Sql.follow? (path.segments.map Sql.readSegment) r.payload).isSome

theorem Record.answersExists (r : Record) {field : String} {path : Path}
    (hpath : Path.parse field = .ok path) (hwildcard : .wildcard ∉ path.segments) :
    r.AnswersExists field
      ((Document.reachedAt (Document.payloadKey path) r.toValue).any Option.isSome)
      (r.existsBySql path) := by
  intro flag reference caseSensitive
  refine ⟨.payload path (.exists flag), ?_, ?_, ?_⟩
  · rw [PartItem.clause, hpath]
    rfl
  · rw [Collection.satisfies, Document.satisfies_clause]
    rfl
  · rw [Clause.condition, Sql.decision?_exists hwildcard, existsBySql]
    split <;> rfl

/-- Where documents are evaluated existence is decided by what the path finds, as far as no key of
it has a sign; where SQL is, by what its segments lead to, as far as the text of the path names these
and the keys of the payload hold no NUL. SQL fails on payloads with more than 1000 levels. On others,
what SQL selects the evaluator of documents selects, too, and on a straight way nothing else. -/
theorem Record.exists_decided {r : Record} (hcanonical : r.payload.Canonical) {field : String}
    {path : Path} (hpath : Path.parse field = .ok path) (hwildcard : path.hasWildcard = false) :
    ∃ byDocument bySql, r.AnswersExists field byDocument bySql ∧
      ((∀ segment ∈ path.segments, segment.IsUnsigned) →
        (byDocument = true ↔ ∃ x, Path.Finds r.payload path.segments x)) ∧
      ((∀ segment ∈ path.segments, Sql.IsVerbatim segment) →
        (bySql = none ↔ Sql.maxLevels < r.payload.depth) ∧
        ((r.payload.EveryKey fun key => '\x00' ∉ key.toList) → r.payload.depth ≤ Sql.maxLevels →
          (bySql = some true ↔ ∃ x, Path.Leads r.payload path.segments x) ∧
          ((∀ segment ∈ path.segments, segment.IsUnsigned) →
            (bySql = some true → byDocument = true) ∧
            (Path.IsStraight r.payload path.segments → bySql = some byDocument)))) := by
  have hplain : .wildcard ∉ path.segments := by simpa [Path.hasWildcard] using hwildcard
  obtain ⟨hne, hreadable⟩ := Path.isReadable_of_parse hpath
  have found := Document.exists_mem_reachedAt_iff hcanonical hne hreadable
  refine ⟨_, _, r.answersExists hpath hplain, fun hunsigned => found hunsigned hplain,
    fun hverbatim => ?_⟩
  have decided : r.existsBySql path = if Sql.isTooDeep r.payload then none
      else some (Sql.follow? (path.segments.map Sql.readSegment) r.payload).isSome := by
    rw [existsBySql, Sql.comesToNul_of_verbatim hverbatim, Bool.or_false]
  refine ⟨?_, fun hkeys hdepth => ?_⟩
  · rw [decided]
    simp [Sql.isTooDeep]
  have shallow : ¬ Sql.isTooDeep r.payload = true := by
    simpa [Sql.isTooDeep] using hdepth
  rw [decided, if_neg shallow, Option.some.injEq]
  have led : (Sql.follow? (path.segments.map Sql.readSegment) r.payload).isSome = true ↔
      ∃ x, Path.Leads r.payload path.segments x :=
    Option.isSome_iff_exists.trans
      (exists_congr fun x => Sql.follow?_eq_some_iff hverbatim hcanonical hkeys hplain)
  refine ⟨led, fun hunsigned => ?_⟩
  have finds : (∃ x, Path.Leads r.payload path.segments x) →
      ∃ x, Path.Finds r.payload path.segments x :=
    fun ⟨x, hx⟩ => ⟨x, hx.finds hplain⟩
  refine ⟨fun hsql => (found hunsigned hplain).2 (finds (led.1 hsql)), fun hstraight => ?_⟩
  rw [Option.some.injEq, Bool.eq_iff_iff, found hunsigned hplain, led]
  exact ⟨finds, fun ⟨x, hx⟩ => ⟨x, hx.leads hstraight hplain⟩⟩

/-- A null in an object in an array. -/
theorem Record.exists_decided_null :
    let r : Record := { (default : Record) with
      payload := .object [("a", .array [.object [("b", .null)]])] }
    r.AnswersExists "a.0.b" true (some true) := by
  intro r
  have hcanonical : r.payload.Canonical := by
    simp [r, Value.Canonical, Value.CanonicalItems, Value.CanonicalFields, Keyed.Sorted,
      Keyed.keys]
  have hkeys : r.payload.EveryKey fun key => '\x00' ∉ key.toList := by
    simp [r, Value.EveryKey, Value.Every, Value.EveryItem, Value.EveryField]
  have hverbatim : ∀ segment ∈ [Segment.key "a", .index 0, .key "b"], Sql.IsVerbatim segment := by
    have a : Sql.Label.IsVerbatim "a" := ⟨by decide, by decide⟩
    have b : Sql.Label.IsVerbatim "b" := ⟨by decide, by decide⟩
    simp [Sql.IsVerbatim, a, b]
  have hunsigned : ∀ segment ∈ [Segment.key "a", .index 0, .key "b"], segment.IsUnsigned := by
    have a : position? "a" = none := rfl
    have b : position? "b" = none := rfl
    simp [Segment.IsUnsigned, a, b]
  have hleads : Path.Leads r.payload [.key "a", .index 0, .key "b"] .null :=
    .key List.mem_cons_self (.index (w := .object [("b", .null)]) rfl
      (.key List.mem_cons_self (.here _)))
  have hstraight : Path.IsStraight r.payload [.key "a", .index 0, .key "b"] := by
    refine ⟨?_, fun v hv => ?_⟩
    · rintro ⟨i, w, ⟨⟩, -⟩
    obtain rfl : v = .array [.object [("b", .null)]] := by
      rcases hv with _ | ⟨hfield, ⟨⟩⟩
      simpa using hfield
    refine ⟨?_, fun v hv => ?_⟩
    · rintro ⟨fields, w, hitem, hfield⟩
      obtain rfl : fields = [("b", .null)] := by simpa using hitem
      exact absurd hfield (by simp [Segment.text, Segment.indexText])
    obtain rfl : v = .object [("b", .null)] := by
      rcases hv with _ | _ | ⟨hitem, ⟨⟩⟩
      simpa using hitem.symm
    refine ⟨?_, fun _ _ => trivial⟩
    rintro ⟨i, w, ⟨⟩, -⟩
  have parsed : Path.parse "a.0.b" = .ok ⟨[.key "a", .index 0, .key "b"]⟩ := rfl
  obtain ⟨byDocument, bySql, answers, -, decided⟩ := Record.exists_decided hcanonical parsed rfl
  obtain ⟨led, agree⟩ := (decided hverbatim).2 hkeys (by decide)
  have same := (agree hunsigned).2 hstraight
  obtain rfl : bySql = some true := led.2 ⟨.null, hleads⟩
  rwa [← Option.some.inj same] at answers

/-- Documents enter an array through its objects, and take a number for a key and a key with a sign
for a position. SQL reads an index modulo `2 ^ 32`, resolves escapes in a key, and does not compare
what a key of the payload holds behind a NUL; at a key with a NUL on the path it fails, and so it does
on a payload with more than 1000 levels. -/
theorem Record.exists_decided_apart :
    let holding := fun payload => { (default : Record) with payload := payload }
    (holding (.object [("a", .array [.object [("b", .int 1)]])])).AnswersExists
        "a.b" true (some false) ∧
      (holding (.object [("a", .object [("0", .int 1)])])).AnswersExists
        "a.0" true (some false) ∧
      (holding (.object [("a", .array [.int 1])])).AnswersExists "a.+0" true (some false) ∧
      (holding (.object [("a", .array [.int 1])])).AnswersExists
        "a.4294967296" false (some true) ∧
      (holding (.object [("b", .int 1)])).AnswersExists "\\u0062" false (some true) ∧
      (holding (.object [("a\x00b", .int 1)])).AnswersExists "a" false (some true) ∧
      (holding (.object [("a\x00b", .int 1)])).AnswersExists "a\x00b" true none ∧
      (holding (.object [("a", .nested 1000)])).AnswersExists "a" true none := by
  intro holding
  have decided : ∀ {r : Record} {field : String} {byDocument : Bool} {bySql : Option Bool}
      (path : Path), Path.parse field = .ok path → .wildcard ∉ path.segments →
      (Document.reachedAt (Document.payloadKey path) r.toValue).any Option.isSome = byDocument →
      r.existsBySql path = bySql → r.AnswersExists field byDocument bySql := by
    rintro r field byDocument bySql path hpath hwildcard rfl rfl
    exact r.answersExists hpath hwildcard
  have deep : Sql.isTooDeep (.object [("a", .nested 1000)]) = true := by
    rw [Sql.isTooDeep, Value.depth, Value.depthOfFields, Value.depth_nested]
    rfl
  have deepest : (holding (.object [("a", .nested 1000)])).AnswersExists "a" true none :=
    decided ⟨[.key "a"]⟩ rfl (by decide) rfl (by rw [existsBySql, deep, Bool.true_or, if_pos rfl])
  refine ⟨decided ⟨[.key "a", .key "b"]⟩ ?_ ?_ ?_ ?_, decided ⟨[.key "a", .index 0]⟩ ?_ ?_ ?_ ?_,
    decided ⟨[.key "a", .key "+0"]⟩ ?_ ?_ ?_ ?_,
    decided ⟨[.key "a", .index 4294967296]⟩ ?_ ?_ ?_ ?_,
    decided ⟨[.key "\\u0062"]⟩ ?_ ?_ ?_ ?_, decided ⟨[.key "a"]⟩ ?_ ?_ ?_ ?_,
    decided ⟨[.key "a\x00b"]⟩ ?_ ?_ ?_ ?_, deepest⟩
  all_goals decide +kernel

end RecordStore
