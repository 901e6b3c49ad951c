import RecordStore.Proofs.Backend.Application
import RecordStore.Proofs.Lifecycle
import RecordStore.Proofs.Store.Coupling

/-!
# Writes carry the time

Whatever an operation writes, it writes it at the instant that the clock shows: a live record that is
there afterwards either has been there before, exactly as it is, or has been updated now
(`Operation.stamps`). The clock, the catalog and the indexing job stay as they are. This is an invariant
of the worlds that an operation goes through (`Coupling.couples_stamps`).
-/

namespace RecordStore

open Collection

/-! ## Collections -/

namespace Collection

variable {records new : Collection} {r : Record}

theorem mem_of_insert {batch : List Record} (h : insert records batch = .ok new)
    (hr : r ∈ Keyed.values new) : r ∈ batch ∨ r ∈ Keyed.values records := by
  induction batch generalizing records with
  | nil =>
    cases h
    exact Or.inr hr
  | cons first rest ih =>
    rw [insert] at h
    split at h
    · cases h
    · rcases ih h with hmem | hmem
      · exact Or.inl (List.mem_cons_of_mem _ hmem)
      · exact (Keyed.mem_values_insert hmem).imp_left fun (heq : r = first) => heq ▸ List.mem_cons_self

theorem mem_of_replace {replacements : List Record}
    (hr : r ∈ Keyed.values (replace replacements records).2) :
    r ∈ replacements ∨ r ∈ Keyed.values records := by
  refine replace_induction (P := fun current => r ∈ Keyed.values current →
    r ∈ replacements ∨ r ∈ Keyed.values records) Or.inr (fun current s hs _ ih hmem => ?_) hr
  rcases Keyed.mem_values_insert hmem with rfl | hold
  · exact Or.inl hs
  · exact ih hold

theorem mem_of_remove {ids : List String} (hr : r ∈ Keyed.values (remove ids records).2) :
    r ∈ Keyed.values records :=
  ((remove_sublist ids records).map Prod.snd).subset hr

/-- A live record has not been marked. -/
theorem mem_of_markDeleted {clause : Clause} {mark : DeletionMark}
    (hr : r ∈ Keyed.values (markDeleted clause.document mark records).2)
    (hlive : r.isDeleted = false) : r ∈ Keyed.values records := by
  rw [markDeleted_document, Keyed.values, Keyed.mapValues, List.map_map] at hr
  obtain ⟨entry, hentry, rfl⟩ := List.mem_map.1 hr
  dsimp only [Function.comp, changeIf] at hlive ⊢
  split at hlive
  · cases hlive
  · next hclause =>
    rw [if_neg hclause]
    exact List.mem_map_of_mem hentry

end Collection

/-! ## Worlds -/

/-- Since a world nothing has happened but writes of records at the instant that it shows, and removals.
-/
structure World.Stamps (start w : World collectionBackend) : Prop where
  clock : w.clock = start.clock
  job : w.job = start.job
  fields : w.fields = start.fields
  live : ∀ r ∈ Keyed.values w.records, r.isDeleted = false →
    r.updatedAt = start.clock ∨ r ∈ Keyed.values start.records

namespace World.Stamps

variable {start w : World collectionBackend}

theorem refl (w : World collectionBackend) : w.Stamps w := ⟨rfl, rfl, rfl, fun _ hr _ => .inr hr⟩

theorem withRecords (h : start.Stamps w) {records : Collection}
    (hlive : ∀ r ∈ Keyed.values records, r.isDeleted = false →
      r.updatedAt = start.clock ∨ r ∈ Keyed.values w.records) :
    start.Stamps (w.withRecords records) where
  clock := h.clock
  job := h.job
  fields := h.fields
  live r hr hrlive := by
    rcases hlive r hr hrlive with hnow | hold
    · exact .inl hnow
    · exact h.live r hold hrlive

end World.Stamps

/-! ## Operations -/

namespace Coupling

/-- A store writes at the instant that the clock shows. -/
theorem couples_stamps (start : World collectionBackend) (store : Store collectionBackend) :
    (invariant start.Stamps (· = start.clock) (·.updatedAt = start.clock)).Couples store store where
  config_eq := rfl
  size_eq := fun _ _ h => h.1 ▸ rfl
  now := matches_invariant fun w hw => ⟨hw, fun _ hnow => Except.ok.inj hnow ▸ hw.clock⟩
  freshId := matches_invariant fun w hw =>
    ⟨⟨hw.clock, hw.job, hw.fields, hw.live⟩, fun _ _ => trivial⟩
  find _ _ _ := matches_invariant fun _ hw => ⟨hw, fun _ _ => trivial⟩
  countClause _ := matches_invariant fun _ hw => ⟨hw, fun _ _ => trivial⟩
  insert batch hbatch := matches_invariant fun w hw => by
    refine ⟨?_, fun _ _ => trivial⟩
    rw [Store.result_insert]
    cases hinsert : w.records.insert batch with
    | error e => exact hw
    | ok records =>
      exact hw.withRecords fun r hr _ => (mem_of_insert hinsert hr).imp_left (hbatch r)
  replace batch hbatch := matches_invariant fun w hw => by
    rw [Store.result_replace]
    exact ⟨hw.withRecords fun r hr _ => (mem_of_replace hr).imp_left (hbatch r),
      fun _ _ => trivial⟩
  markDeleted clause mark := matches_invariant fun w hw => by
    rw [Store.result_markDeleted]
    exact ⟨hw.withRecords fun r hr hlive => .inr (mem_of_markDeleted hr hlive), fun _ _ => trivial⟩
  remove ids := matches_invariant fun w hw => by
    rw [Store.result_remove]
    exact ⟨hw.withRecords fun r hr _ => .inr (mem_of_remove hr), fun _ _ => trivial⟩
  allows_ofDraft _ _ _ _ hnow := hnow
  allows_updated _ _ _ _ _ hnow := hnow
  allows_payload _ _ hr := hr

end Coupling

/-- An operation that brings no records of its own writes at the instant that the clock shows. -/
theorem Operation.stamps (store : Store collectionBackend) (w : World collectionBackend)
    {op : Operation} (hop : (Call.operation op).Guarded) : w.Stamps ((op.run store).result w).2 := by
  have couples := Coupling.couples_stamps w store
  have brings : (Coupling.invariant w.Stamps (· = w.clock) (·.updatedAt = w.clock)).AllowsOperation
      op := by
    cases op with
    | insert | replace => cases hop
    | _ => trivial
  exact (couples.operation op brings).keeps (.refl w)

/-- A cleanup without the catalog only removes records. -/
theorem Store.stamps_cleanup (store : Store collectionBackend) (w : World collectionBackend)
    (request : CleanupRequest) : w.Stamps ((store.cleanup request false).result w).2 :=
  ((Coupling.couples_stamps w store).cleanup request).keeps (.refl w)

end RecordStore
