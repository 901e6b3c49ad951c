import RecordStore.Proofs.Backend.Collection

/-!
# How collections evolve

What an operation may do to the records that are there. Either it keeps all of them and changes live
ones only (`Collection.Kept`), or it removes some of a kind and changes nothing else
(`Collection.Thinned`). In the first case no record loses what was set at its creation
(`Record.SameOrigin`), and a deleted record stays as it is (`Record.Continues`).
-/

namespace RecordStore

namespace Record

/-! ## Records -/

/-- What is set when a record is created is the same. -/
structure SameOrigin (r s : Record) : Prop where
  id : s.id = r.id
  appId : s.appId = r.appId
  groupId : s.groupId = r.groupId
  tag : s.tag = r.tag
  createdAt : s.createdAt = r.createdAt
  createdBy : s.createdBy = r.createdBy
  shouldIndex : s.shouldIndex = r.shouldIndex
  fieldsToIndex : s.fieldsToIndex = r.fieldsToIndex

/-- The marks of a deletion are all there or all missing. -/
structure MarksAgree (r : Record) : Prop where
  deletedBy : r.deletedBy.isSome = r.deletedAt.isSome
  deletedByType : r.deletedByType.isSome = r.deletedAt.isSome

/-- What may become of a record: its origin stays, and if it is deleted all of it stays. -/
structure Continues (r s : Record) : Prop where
  origin : SameOrigin r s
  deleted : r.isDeleted = true → s = r

/-- The same record up to the payload and the marks of the last update. -/
def Rewrites (r s : Record) : Prop :=
  s = { r with payload := s.payload, updatedAt := s.updatedAt, updatedBy := s.updatedBy }

variable {r s t : Record}

theorem SameOrigin.refl (r : Record) : SameOrigin r r := ⟨rfl, rfl, rfl, rfl, rfl, rfl, rfl, rfl⟩

theorem SameOrigin.trans (h : SameOrigin r s) (h' : SameOrigin s t) : SameOrigin r t where
  id := h'.id.trans h.id
  appId := h'.appId.trans h.appId
  groupId := h'.groupId.trans h.groupId
  tag := h'.tag.trans h.tag
  createdAt := h'.createdAt.trans h.createdAt
  createdBy := h'.createdBy.trans h.createdBy
  shouldIndex := h'.shouldIndex.trans h.shouldIndex
  fieldsToIndex := h'.fieldsToIndex.trans h.fieldsToIndex

theorem Continues.refl (r : Record) : Continues r r := ⟨.refl r, fun _ => rfl⟩

theorem Continues.trans (h : Continues r s) (h' : Continues s t) : Continues r t := by
  refine ⟨h.origin.trans h'.origin, fun hr => ?_⟩
  obtain rfl := h.deleted hr
  exact h'.deleted hr

theorem Rewrites.refl (r : Record) : Rewrites r r := rfl

theorem Rewrites.trans (h : Rewrites r s) (h' : Rewrites s t) : Rewrites r t := by
  unfold Rewrites at h h' ⊢
  rw [h', h]

theorem Rewrites.id_eq (h : Rewrites r s) : s.id = r.id := by
  unfold Rewrites at h
  rw [h]

theorem Rewrites.continues (h : Rewrites r s) (hr : r.isDeleted = false) : Continues r s := by
  unfold Rewrites at h
  refine ⟨?_, fun hdeleted => ?_⟩
  · rw [h]
    exact ⟨rfl, rfl, rfl, rfl, rfl, rfl, rfl, rfl⟩
  · rw [hr] at hdeleted
    cases hdeleted

theorem Rewrites.marksAgree (h : Rewrites r s) (hr : r.MarksAgree) : s.MarksAgree := by
  unfold Rewrites at h
  rw [h]
  exact ⟨hr.deletedBy, hr.deletedByType⟩

theorem marksAgree_ofDraft (draft : Draft) (id : String) (instant : Instant) (actor : Actor) :
    (ofDraft draft id instant actor).MarksAgree := ⟨rfl, rfl⟩

theorem marksAgree_markDeleted (r : Record) (mark : DeletionMark) :
    (r.markDeleted mark).MarksAgree := ⟨rfl, rfl⟩

theorem continues_markDeleted (hr : r.isDeleted = false) (mark : DeletionMark) :
    Continues r (r.markDeleted mark) := by
  refine ⟨⟨rfl, rfl, rfl, rfl, rfl, rfl, rfl, rfl⟩, fun hdeleted => ?_⟩
  rw [hr] at hdeleted
  cases hdeleted

end Record

namespace Collection

open Record

/-! ## Relations -/

/-- In every record the marks of a deletion agree. -/
def Marked (records : Collection) : Prop :=
  ∀ k r, Keyed.get? k records = some r → r.MarksAgree

/-- All records are still there, deleted ones as they were. -/
structure Kept (old new : Collection) : Prop where
  continues : ∀ k r, Keyed.get? k old = some r → ∃ s, Keyed.get? k new = some s ∧ r.Continues s
  marked : old.Marked → new.Marked

/-- Nothing has been changed or added, and only records of a kind have been removed. -/
def Thinned (lost : Record → Prop) (old new : Collection) : Prop :=
  ∀ k, Keyed.get? k new = Keyed.get? k old ∨
    Keyed.get? k new = none ∧ ∃ r, Keyed.get? k old = some r ∧ lost r

variable {records old middle new : Collection} {lost : Record → Prop}

theorem Kept.refl (records : Collection) : Kept records records :=
  ⟨fun _ r h => ⟨r, h, .refl r⟩, id⟩

theorem Kept.trans (h : Kept old middle) (h' : Kept middle new) : Kept old new := by
  refine ⟨fun k r hr => ?_, fun hmarked => h'.marked (h.marked hmarked)⟩
  obtain ⟨s, hs, first⟩ := h.continues k r hr
  obtain ⟨t, ht, second⟩ := h'.continues k s hs
  exact ⟨t, ht, first.trans second⟩

theorem Thinned.refl (records : Collection) : Thinned lost records records := fun _ => Or.inl rfl

theorem Thinned.trans (h : Thinned lost old middle) (h' : Thinned lost middle new) :
    Thinned lost old new := by
  intro k
  rcases h k with hsame | ⟨hgone, hlost⟩
  · rw [← hsame]
    exact h' k
  · right
    refine ⟨?_, hlost⟩
    rcases h' k with hsame | ⟨hgone', -⟩
    · rw [hsame, hgone]
    · exact hgone'

theorem Thinned.marked (h : Thinned lost old new) (hmarked : old.Marked) : new.Marked := by
  intro k r hr
  rcases h k with hsame | ⟨hgone, -⟩
  · exact hmarked k r (hsame ▸ hr)
  · rw [hgone] at hr
    cases hr

/-! ## Operations -/

theorem Kept.insertOne {r : Record} (h : Kept old new)
    (hold : ∀ s, Keyed.get? r.id old = some s → s.Continues r)
    (hmarks : old.Marked → r.MarksAgree) : Kept old (Keyed.insert r.id r new) := by
  refine ⟨fun k s hs => ?_, fun hmarked k s hs => ?_⟩
  · by_cases hk : k = r.id
    · subst hk
      exact ⟨r, Keyed.get?_insert_self _ _ _, hold s hs⟩
    · rw [Keyed.get?_insert_of_ne hk]
      exact h.continues k s hs
  · by_cases hk : k = r.id
    · rw [hk, Keyed.get?_insert_self] at hs
      cases hs
      exact hmarks hmarked
    · rw [Keyed.get?_insert_of_ne hk] at hs
      exact h.marked hmarked k s hs

/-- What insertion adds was not there, and everything that was there still is. -/
theorem get?_of_insert {batch : List Record} (h : insert records batch = .ok new) {k : String}
    {r : Record} (hr : Keyed.get? k records = some r) : Keyed.get? k new = some r := by
  induction batch generalizing records with
  | nil =>
    cases h
    exact hr
  | cons first rest ih =>
    rw [insert] at h
    split at h
    · cases h
    · next habsent =>
      refine ih h ?_
      have hk : k ≠ first.id := by
        rintro rfl
        exact habsent (by rw [Keyed.contains, hr, Option.isSome_some])
      rw [Keyed.get?_insert_of_ne hk, hr]

theorem WellFormed.insert (h : records.WellFormed) {batch : List Record}
    (hinsert : insert records batch = .ok new) : new.WellFormed := by
  induction batch generalizing records with
  | nil =>
    cases hinsert
    exact h
  | cons first rest ih =>
    rw [Collection.insert] at hinsert
    split at hinsert
    · cases hinsert
    · exact ih (h.insertOne first) hinsert

theorem kept_insert {batch : List Record} (hmarks : ∀ r ∈ batch, r.MarksAgree)
    (h : insert records batch = .ok new) : Kept records new := by
  refine ⟨fun k r hr => ⟨r, get?_of_insert h hr, .refl r⟩, ?_⟩
  induction batch generalizing records with
  | nil =>
    cases h
    exact id
  | cons first rest ih =>
    intro hmarked
    rw [insert] at h
    split at h
    · cases h
    · refine ih (fun r hr => hmarks r (List.mem_cons_of_mem _ hr)) h fun k r hr => ?_
      by_cases hk : k = first.id
      · rw [hk, Keyed.get?_insert_self] at hr
        cases hr
        exact hmarks _ List.mem_cons_self
      · rw [Keyed.get?_insert_of_ne hk] at hr
        exact hmarked k r hr

/-! ### Replacing -/

theorem WellFormed.replace (h : records.WellFormed) (replacements : List Record) :
    (Collection.replace replacements records).2.WellFormed :=
  replace_induction h fun _ r _ _ hcurrent => hcurrent.insertOne r

/-- Replacements that rewrite live records keep everything else. -/
theorem kept_replace {replacements : List Record}
    (h : ∀ s ∈ replacements, ∃ r, Keyed.get? s.id records = some r ∧ r.isDeleted = false ∧
      r.Rewrites s) : Kept records (replace replacements records).2 := by
  refine replace_induction (P := Kept records) (.refl records) fun current s hs _ hcurrent => ?_
  obtain ⟨r, hr, hlive, hrewrites⟩ := h s hs
  refine hcurrent.insertOne (fun r' hr' => ?_) fun hmarked => hrewrites.marksAgree (hmarked _ r hr)
  rw [hr] at hr'
  cases hr'
  exact hrewrites.continues hlive

/-! ### Marking -/

theorem markDeleted_document (clause : Clause) (mark : DeletionMark) (records : Collection) :
    markDeleted clause.document mark records =
      (.ok (passing (fun r => clause.holds r) records).length,
        Keyed.mapValues (changeIf (fun r => clause.holds r) (·.markDeleted mark)) records) := by
  induction records with
  | nil => rfl
  | cons entry rest ih =>
    obtain ⟨k, r⟩ := entry
    rw [markDeleted, satisfies, Document.satisfies_clause, ih, passing_cons]
    cases hr : clause.holds r with
    | false => simp [Keyed.mapValues, changeIf, hr]
    | true => simp [Keyed.mapValues, changeIf, hr, Except.map]

theorem kept_markDeleted {p : Record → Bool} (mark : DeletionMark)
    (h : ∀ k r, Keyed.get? k records = some r → p r = true → r.isDeleted = false) :
    Kept records (Keyed.mapValues (changeIf p (·.markDeleted mark)) records) := by
  refine ⟨fun k r hr => ⟨changeIf p (·.markDeleted mark) r, ?_, ?_⟩, fun hmarked k s hs => ?_⟩
  · rw [Keyed.get?_mapValues, hr]
    rfl
  · unfold changeIf
    split
    · next hp => exact continues_markDeleted (h k r hr hp) mark
    · exact .refl r
  · rw [Keyed.get?_mapValues] at hs
    obtain ⟨r, hr, rfl⟩ := Option.map_eq_some_iff.1 hs
    unfold changeIf
    split
    · exact marksAgree_markDeleted r mark
    · exact hmarked k r hr

/-! ### Removing -/

theorem WellFormed.remove (h : records.WellFormed) (ids : List String) :
    (Collection.remove ids records).2.WellFormed := by
  unfold Collection.remove
  generalize 0 = n
  induction ids generalizing n records with
  | nil => exact h
  | cons id rest ih =>
    rw [List.foldl_cons]
    unfold removeOne
    split
    · exact ih (h.eraseOne id) _
    · exact ih h _

/-- To remove records of a kind removes nothing else. -/
theorem thinned_remove (hrecords : records.WellFormed) {ids : List String}
    (h : ∀ id ∈ ids, ∀ r, Keyed.get? id records = some r → lost r) :
    Thinned lost records (remove ids records).2 := by
  suffices ∀ (current : Collection) (n : Nat), current.WellFormed → Thinned lost records current →
      Thinned lost records (ids.foldl removeOne (n, current)).2 from
    this records 0 hrecords (.refl records)
  induction ids with
  | nil => exact fun _ _ _ hcurrent => hcurrent
  | cons id rest ih =>
    intro current n hwellFormed hcurrent
    rw [List.foldl_cons, removeOne]
    split
    · next hfound =>
      refine ih (fun id hid => h id (List.mem_cons_of_mem _ hid)) _ _ (hwellFormed.eraseOne id)
        (hcurrent.trans fun k => ?_)
      by_cases hk : k = id
      · obtain ⟨r, hr⟩ := Option.isSome_iff_exists.1 hfound
        have stored : Keyed.get? id records = some r := by
          rcases hcurrent id with hsame | ⟨hgone, -⟩
          · rw [← hsame, hr]
          · rw [hr] at hgone
            cases hgone
        right
        subst hk
        exact ⟨Keyed.get?_erase_self hwellFormed.sorted, r, hr, h k List.mem_cons_self r stored⟩
      · exact Or.inl (Keyed.get?_erase_of_ne hk current)
    · exact ih (fun id hid => h id (List.mem_cons_of_mem _ hid)) _ _ hwellFormed hcurrent

end Collection

end RecordStore
