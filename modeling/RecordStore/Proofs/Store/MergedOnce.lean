import RecordStore.Operation
import RecordStore.Proofs.Payload.Idempotent
import RecordStore.Proofs.Store.Access
import RecordStore.Proofs.Upsert.Batch

/-!
# Payloads that are merged once

However often operations merge a payload into the stored ones in the same way, each stored payload is
what it was or what comes of merging it once (`Collection.MergesOnce`), unless arrays are appended. So
to repeat an update or an upsert leaves what it has written before as it is
(`Value.merge_again_unchanged`).
-/

namespace RecordStore

open Collection Evolution

variable {way : UpdateWay} {incoming : Value}

/-! ## Payloads and collections -/

/-- What a canonical payload has become, if another one has been merged into it at most once. -/
def Value.MergesOnce (way : UpdateWay) (incoming old new : Value) : Prop :=
  old.Canonical → new.Canonical ∧ (new = old ∨ new = old.merge way incoming)

/-- Each record is still there, with the payload that it had or with another one merged into it. -/
def Collection.MergesOnce (way : UpdateWay) (incoming : Value) (old new : Collection) : Prop :=
  ∀ k r, Keyed.get? k old = some r →
    ∃ s, Keyed.get? k new = some s ∧ Value.MergesOnce way incoming r.payload s.payload

namespace Value.MergesOnce

variable {old middle new : Value}

theorem refl (way : UpdateWay) (incoming v : Value) : MergesOnce way incoming v v :=
  fun h => ⟨h, .inl rfl⟩

theorem merge (hincoming : incoming.Canonical) (v : Value) :
    MergesOnce way incoming v (v.merge way incoming) :=
  fun h => ⟨canonical_merge h hincoming, .inr rfl⟩

/-- Merging twice is merging once. -/
theorem trans (hway : way ≠ .mergeButConcatArrays) (hincoming : incoming.Canonical)
    (h : MergesOnce way incoming old middle) (h' : MergesOnce way incoming middle new) :
    MergesOnce way incoming old new := by
  intro hold
  obtain ⟨hmiddle, first⟩ := h hold
  obtain ⟨hnew, second⟩ := h' hmiddle
  refine ⟨hnew, ?_⟩
  rcases first with rfl | rfl
  · exact second
  · rw [merge_again hway hold hincoming, or_self] at second
    exact .inr second

end Value.MergesOnce

namespace Collection.MergesOnce

variable {records old middle new : Collection}

theorem refl (way : UpdateWay) (incoming : Value) (records : Collection) :
    MergesOnce way incoming records records :=
  fun _ r hr => ⟨r, hr, .refl way incoming r.payload⟩

theorem trans (hway : way ≠ .mergeButConcatArrays) (hincoming : incoming.Canonical)
    (h : MergesOnce way incoming old middle) (h' : MergesOnce way incoming middle new) :
    MergesOnce way incoming old new := by
  intro k r hr
  obtain ⟨s, hs, first⟩ := h k r hr
  obtain ⟨t, ht, second⟩ := h' k s hs
  exact ⟨t, ht, first.trans hway hincoming second⟩

end Collection.MergesOnce

theorem Collection.mergesOnce_insert {records new : Collection} {batch : List Record}
    (h : insert records batch = .ok new) : MergesOnce way incoming records new :=
  fun _ r hr => ⟨r, get?_of_insert h hr, .refl way incoming r.payload⟩

theorem Collection.mergesOnce_replace {records : Collection} {replacements : List Record}
    (h : ∀ s ∈ replacements, ∃ r, Keyed.get? s.id records = some r ∧
      Value.MergesOnce way incoming r.payload s.payload) :
    MergesOnce way incoming records (replace replacements records).2 := by
  refine replace_induction (.refl way incoming records) fun current s hs _ hcurrent k r hr => ?_
  rw [Keyed.get?_insert]
  split
  · next hk =>
    obtain ⟨r', hr', merged⟩ := h s hs
    rw [hk, hr'] at hr
    cases hr
    exact ⟨s, rfl, merged⟩
  · exact hcurrent k r hr

/-! ## Operations -/

/-- The operations that merge a payload into stored ones in a way. -/
def Operation.Merges (way : UpdateWay) (incoming : Value) : Operation → Prop
  | .update request => request.way = way ∧ request.update = incoming
  | .bulkUpdate request => request.way = way ∧ request.update = incoming
  | .upsert drafts options =>
    options.onConflict = .combine way ∧ ∀ draft ∈ drafts, draft.payload = incoming
  | _ => False

section

variable (hway : way ≠ .mergeButConcatArrays) (hincoming : incoming.Canonical)
  (store : Store collectionBackend)

/-- Collections evolve by merging a payload at most once. -/
def Evolution.mergingOnce : Evolution :=
  ⟨MergesOnce way incoming, .refl way incoming, .trans hway hincoming⟩

include hway hincoming

namespace Store

theorem mergesOnce_updatePage (actor : Actor) (page : List Record) {p : Collection → Prop}
    (h : ∀ records, p records → ∀ r ∈ page, records.Stores r) :
    (mergingOnce hway hincoming).Upholds p (store.updatePage incoming way actor page)
      fun _ _ => True := by
  refine upholds_now.bind fun now => ?_
  have replaced : (mergingOnce hway hincoming).Upholds p
      (store.replace (page.map (updated incoming way now actor))) fun _ _ => True := by
    intro w hw hp
    rw [result_replace]
    refine ⟨hw.replace _, mergesOnce_replace fun s hs => ?_, fun _ _ => trivial⟩
    obtain ⟨r, hr, rfl⟩ := List.mem_map.1 hs
    exact ⟨r, h _ hp r hr, .merge hincoming r.payload⟩
  exact replaced.bind fun _ => upholds_pure fun _ _ => trivial

theorem mergesOnce_update (request : UpdateRequest) (hrequest : request.way = way)
    (hupdate : request.update = incoming) :
    (mergingOnce hway hincoming).Admits (store.update request) := by
  subst hrequest hupdate
  exact store.admits_update_of_page request fun _ page _ =>
    store.mergesOnce_updatePage hway hincoming _ page fun _ hp r hr => (hp r hr).1

theorem mergesOnce_bulkUpdate (request : BulkUpdateRequest) (hrequest : request.way = way)
    (hupdate : request.update = incoming) :
    (mergingOnce hway hincoming).Admits (store.bulkUpdate request) := by
  subst hrequest hupdate
  exact store.admits_bulkUpdate_of_page request fun _ page _ =>
    store.mergesOnce_updatePage hway hincoming _ page fun _ hp r hr => (hp r hr).1

/-- A target that is not new takes the place of a record, which has been merged at most once. -/
theorem mergesOnce_upsertBatch {options : UpsertOptions} (hoptions : options.onConflict = .combine way)
    (keys : List Path) (result : UpsertResult) {drafts : List Draft}
    (hdrafts : ∀ draft ∈ drafts, draft.payload = incoming) :
    (mergingOnce hway hincoming).Admits (store.upsertBatch options keys result drafts) := by
  intro w hw _
  refine ⟨(store.admits_upsertBatch options keys result drafts w hw trivial).1, ?_, fun _ _ => trivial⟩
  have targets : ∀ target ∈
      (UpsertBatch.ofDrafts w.records options keys w.clock result w.ids drafts).1.targets,
      target.isNew = false → ∃ r, Keyed.get? target.record.id w.records = some r ∧
        Value.MergesOnce way incoming r.payload target.record.payload := by
    refine UpsertBatch.forall_mem_ofDrafts (fun _ _ _ _ hnew => nomatch hnew)
      (fun key r hr _ => ⟨r, (stores_of_first? hw hr).1, .refl way incoming r.payload⟩)
      fun draft hdraft way' hway' target htarget hnew => ?_
    obtain ⟨r, hr, merged⟩ := htarget hnew
    rw [hoptions] at hway'
    cases hway'
    have hold : target.isNew = false := hnew
    rw [UpsertTarget.combine, hdrafts draft hdraft, if_neg (by rw [hold]; exact Bool.false_ne_true)]
    exact ⟨r, hr, merged.trans hway hincoming (.merge hincoming _)⟩
  rw [result_upsertBatch]
  dsimp only
  generalize UpsertBatch.ofDrafts w.records options keys w.clock result w.ids drafts = final
    at targets
  cases hinsert : World.records { w with ids := final.2 } |>.insert final.1.newRecords with
  | error e => exact .refl way incoming w.records
  | ok inserted =>
    have inserts : MergesOnce way incoming w.records inserted := mergesOnce_insert hinsert
    refine inserts.trans hway hincoming (mergesOnce_replace fun s hs => ?_)
    obtain ⟨target, htarget, hold, -, rfl⟩ := UpsertBatch.mem_changedRecords.1 hs
    obtain ⟨r, hr, merged⟩ := targets target htarget hold
    exact ⟨r, get?_of_insert hinsert hr, merged⟩

theorem mergesOnce_upsert {options : UpsertOptions} (hoptions : options.onConflict = .combine way)
    {drafts : List Draft} (hdrafts : ∀ draft ∈ drafts, draft.payload = incoming) :
    (mergingOnce hway hincoming).Admits (store.upsert drafts options) :=
  store.admits_upsert_of_batch options drafts fun keys result _ hpiece =>
    store.mergesOnce_upsertBatch hway hincoming hoptions keys result fun draft hdraft =>
      hdrafts draft (hpiece draft hdraft)

end Store

theorem Operation.mergesOnce_run (op : Operation) (hop : op.Merges way incoming) :
    (mergingOnce hway hincoming).Admits (op.run store) := by
  cases op with
  | update request =>
    exact (store.mergesOnce_update hway hincoming request hop.1 hop.2).bind fun _ => admits_pure _
  | bulkUpdate request =>
    exact (store.mergesOnce_bulkUpdate hway hincoming request hop.1 hop.2).bind fun _ => admits_pure _
  | upsert drafts options =>
    exact (store.mergesOnce_upsert hway hincoming hop.1 hop.2).bind fun _ => admits_pure _
  | _ => exact absurd hop id

end

/-! ## Runs -/

/-- The collections that operations which merge a payload in a way can make of one, whatever else of
the world changes between them. -/
inductive Collection.RepeatedFrom (way : UpdateWay) (incoming : Value) (start : Collection) :
    Collection → Prop
  | start : RepeatedFrom way incoming start start
  | run {w : World collectionBackend} {op : Operation} (store : Store collectionBackend) :
    RepeatedFrom way incoming start w.records → op.Merges way incoming →
      RepeatedFrom way incoming start ((op.run store).result w).2.records

theorem Collection.RepeatedFrom.mergesOnce {start records : Collection}
    (h : RepeatedFrom way incoming start records) (hway : way ≠ .mergeButConcatArrays)
    (hincoming : incoming.Canonical) (hstart : start.WellFormed) :
    records.WellFormed ∧ MergesOnce way incoming start records := by
  induction h with
  | start => exact ⟨hstart, .refl way incoming start⟩
  | @run w op store _ hop ih =>
    obtain ⟨hw, before⟩ := ih
    obtain ⟨wellFormed, merges, -⟩ := op.mergesOnce_run hway hincoming store hop w hw trivial
    exact ⟨wellFormed, before.trans hway hincoming merges⟩

/-- To merge a payload again changes nothing, unless arrays are appended. So however often updates and
upserts merge it into stored payloads, each of them is what it was, or what comes of merging it once;
and it is what it was if the payload has been merged into it before. -/
theorem Value.merge_again_unchanged (hway : way ≠ .mergeButConcatArrays)
    (hincoming : incoming.Canonical) :
    (∀ existing : Value, existing.Canonical →
      (existing.merge way incoming).merge way incoming = existing.merge way incoming) ∧
    incoming.merge way incoming = incoming ∧
    ∀ start records : Collection, start.WellFormed → RepeatedFrom way incoming start records →
      ∀ r, start.Stores r → r.payload.Canonical →
        ∃ s, records.Stores s ∧ s.id = r.id ∧
          (s.payload = r.payload ∨ s.payload = r.payload.merge way incoming) ∧
          ∀ earlier : Value, earlier.Canonical → r.payload = earlier.merge way incoming →
            s.payload = r.payload := by
  refine ⟨fun existing hexisting => merge_again hway hexisting hincoming,
    merge_self hway hincoming, fun start records hstart hrun r hr hcanonical => ?_⟩
  obtain ⟨hrecords, merges⟩ := hrun.mergesOnce hway hincoming hstart
  obtain ⟨s, hs, merged⟩ := merges r.id r hr
  have hid : s.id = r.id := hrecords.id_of_get? hs
  obtain ⟨-, hpayload⟩ := merged hcanonical
  refine ⟨s, by rwa [Stores, hid], hid, hpayload, fun earlier hearlier heq => ?_⟩
  rcases hpayload with hsame | hmerged
  · exact hsame
  · rw [hmerged, heq, merge_again hway hearlier hincoming]

/-- An update that has been made before leaves the payload as it is. -/
theorem Value.merge_again_unchanged_update :
    let incoming : Value := .object [("a", .object [("b", .int 2)]), ("l", .array [.int 3])]
    let earlier : Value :=
      .object [("a", .object [("c", .int 1)]), ("l", .array [.int 1, .int 2])]
    let r : Record := { (default : Record) with id := "r", payload := earlier.merge .merge incoming }
    let w : World collectionBackend := ⟨⟨[("r", r)], []⟩, 7, default, none⟩
    let request : UpdateRequest := ⟨⟨"", ""⟩, .empty, incoming, .merge, default⟩
    incoming.Canonical ∧ earlier.Canonical ∧ w.records.WellFormed ∧
      (earlier.merge .merge incoming).merge .merge incoming = earlier.merge .merge incoming ∧
      ∃ s, (((Operation.update request).run ⟨(), .default⟩).result w).2.records.Stores s ∧
        s.id = "r" ∧ s.payload = earlier.merge .merge incoming := by
  intro incoming earlier r w request
  have sorted : (["a", "l"] : List String).Pairwise (· < ·) := by decide
  have hincoming : incoming.Canonical := by
    refine ⟨sorted, ?_⟩
    simp [Value.Canonical, Value.CanonicalItems, Value.CanonicalFields, Keyed.Sorted, Keyed.keys,
      Value.int]
  have hearlier : earlier.Canonical := by
    refine ⟨sorted, ?_⟩
    simp [Value.Canonical, Value.CanonicalItems, Value.CanonicalFields, Keyed.Sorted, Keyed.keys,
      Value.int]
  have wellFormed : w.records.WellFormed := wellFormed_nil.insertOne r
  have hway : UpdateWay.merge ≠ .mergeButConcatArrays := by decide
  have canonical : (earlier.merge .merge incoming).Canonical := canonical_merge hearlier hincoming
  obtain ⟨again, -, repeated⟩ := merge_again_unchanged hway hincoming
  have run : RepeatedFrom .merge incoming w.records
      (((Operation.update request).run ⟨(), .default⟩).result w).2.records :=
    .run ⟨(), .default⟩ .start ⟨rfl, rfl⟩
  obtain ⟨s, hs, hid, -, unchanged⟩ :=
    repeated _ _ wellFormed run r rfl canonical
  exact ⟨hincoming, hearlier, wellFormed, again earlier hearlier, s, hs, hid,
    unchanged earlier hearlier rfl⟩

end RecordStore
