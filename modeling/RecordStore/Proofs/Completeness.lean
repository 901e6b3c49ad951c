import RecordStore.Proofs.Store.Cleanup
import RecordStore.Proofs.Store.Indexing

/-!
# Completeness of the catalog

An indexing job looks only at records that have been updated since its last successful run has started.
After each successful run the catalog nevertheless covers every live record that is to be indexed
(`Routine.catalog_complete`), whatever has been done since the memory was empty: what an earlier run has
covered has been updated since, or is covered still (`World.Tracks`).
-/

namespace RecordStore

open Collection

/-! ## The invariant -/

namespace World

/-- The clock has reached an instant, and the catalog covers all that is live and to be indexed and has
been updated before it. -/
structure CoveredBefore (settings : IndexSettings) (t : Instant) (w : World collectionBackend) :
    Prop where
  reached : t ≤ w.clock
  covers : ∀ r ∈ Keyed.values w.records, r.isDeleted = false → r.shouldIndex = true →
    r.updatedAt < t → w.fields.CoversRecord settings r

/-- The job of a world has missed nothing before the instant at which its next run begins to look. -/
structure Tracks (settings : IndexSettings) (w : World collectionBackend) : Prop where
  wellFormed : w.records.WellFormed
  inPlace : w.fields.InPlace
  job : ∃ store since, w.job = some ⟨store, settings, since⟩ ∧
    ∀ t, since = some t → w.CoveredBefore settings t

variable {settings : IndexSettings} {w v : World collectionBackend} {t : Instant}

theorem CoveredBefore.follows (h : w.CoveredBefore settings t) (hv : w.Follows v) :
    v.CoveredBefore settings t where
  reached := hv.clock ▸ h.reached
  covers r hr hlive hindex hbefore := by
    -- What has been updated now has not been updated before an instant that the clock has reached.
    have notNow : r.updatedAt ≠ w.clock := by
      have reached := Int64.le_iff_toInt_le.1 h.reached
      have before := Int64.lt_iff_toInt_lt.1 hbefore
      intro hnow
      rw [hnow] at before
      omega
    have hold := (hv.live r hr hlive).resolve_left notNow
    intro d hd
    rw [CatalogMap.Covers, hv.rowsOf r hr]
    exact h.covers r hold hlive hindex hbefore d hd

theorem Tracks.follows (h : w.Tracks settings) (hv : w.Follows v)
    (hwellFormed : v.records.WellFormed) : v.Tracks settings where
  wellFormed := hwellFormed
  inPlace := hv.inPlace h.inPlace
  job := by
    obtain ⟨store, since, hjob, hsince⟩ := h.job
    exact ⟨store, since, hv.job.trans hjob, fun t ht => (hsince t ht).follows hv⟩

theorem Tracks.call (h : w.Tracks settings) (store : Store collectionBackend) {call : Call}
    (hcall : call.Guarded) : Tracks settings ((call.run store).result w).2 :=
  h.follows (call.follows store w hcall) (call.admits_run store w h.wellFormed trivial).1

theorem Tracks.advance (h : w.Tracks settings) (ht : w.clock ≤ t) :
    Tracks settings { w with clock := t } where
  wellFormed := h.wellFormed
  inPlace := h.inPlace
  job := by
    obtain ⟨store, since, hjob, hsince⟩ := h.job
    refine ⟨store, since, hjob, fun s hs => ⟨?_, (hsince s hs).covers⟩⟩
    exact Int64.le_trans (hsince s hs).reached ht

/-! ## Runs of the job -/

/-- After an indexing run from an instant up to which all is covered, all is covered. -/
theorem Indexed.coversRecord {since : Option Instant}
    (h : w.Indexed settings (passing (fun r => (Store.indexClause since).holds r) w.records) v)
    (hsince : ∀ t, since = some t → w.CoveredBefore settings t) {r : Record}
    (hr : r ∈ Keyed.values v.records) (hlive : r.isDeleted = false) (hindex : r.shouldIndex = true) :
    v.fields.CoversRecord settings r := by
  rw [h.records_eq] at hr
  obtain ⟨fields, rfl, hextends⟩ := h
  by_cases hbefore : ∃ t, since = some t ∧ r.updatedAt < t
  · obtain ⟨t, ht, hlt⟩ := hbefore
    exact fun d hd => hextends.kept _ d ((hsince t ht).covers r hr hlive hindex hlt d hd)
  · have updated : ∀ t, since = some t → t ≤ r.updatedAt :=
      fun t ht => Int64.not_lt.1 fun hlt => hbefore ⟨t, ht, hlt⟩
    exact hextends.added r (List.mem_filter.2 ⟨hr, Store.holds_indexClause hindex hlive updated⟩)

end World

theorem IndexingJob.run_run (job : IndexingJob collectionBackend) (w : World collectionBackend) :
    job.run.run w = match (job.store.index job.lastSuccessAt job.settings).result w with
      | (.ok stats, v) => ((.ok stats, { job with lastSuccessAt := some stats.startedAt }), v)
      | (.error e, v) => ((.error e, job), v) := by
  have indexed : (job.store.index job.lastSuccessAt job.settings).run.run w =
      (job.store.index job.lastSuccessAt job.settings).result w := rfl
  rw [run, StateT.run_bind, indexed]
  rcases (job.store.index job.lastSuccessAt job.settings).result w with ⟨_ | _, _⟩ <;> rfl

theorem run_runJob {w : World collectionBackend} {job : IndexingJob collectionBackend}
    (hjob : w.job = some job) :
    runJob.run w =
      let ((stats, next), v) := job.run.run w
      (.ok (.jobRun stats next.lastSuccessAt), { v with job := some next }) := by
  obtain ⟨storage, clock, ids, _⟩ := w
  cases hjob
  rfl

namespace World

variable {settings : IndexSettings} {w v : World collectionBackend}

/-- The catalog covers all that is live and to be indexed. -/
def Covered (settings : IndexSettings) (w : World collectionBackend) : Prop :=
  ∀ r ∈ Keyed.values w.records, r.isDeleted = false → r.shouldIndex = true →
    w.fields.CoversRecord settings r

/-- A run of the job keeps the invariant, and if it succeeds, nothing is missed. -/
theorem Tracks.runJob (h : w.Tracks settings) :
    Tracks settings (runJob.run w).2 ∧
      ∀ stats since, (runJob.run w).1 = .ok (.jobRun (.ok stats) since) →
        Covered settings (runJob.run w).2 := by
  obtain ⟨store, since, hjob, hsince⟩ := h.job
  rw [run_runJob hjob, IndexingJob.run_run]
  by_cases hsize : store.config.indexBatch = 0
  · rw [store.result_index_zero w since settings hsize]
    refine ⟨⟨h.wellFormed, h.inPlace, store, since, rfl, fun t ht => ?_⟩, fun _ _ hok => by cases hok⟩
    exact ⟨(hsince t ht).reached, (hsince t ht).covers⟩
  · obtain ⟨stats, v, hindex, hstarted, hindexed⟩ :=
      store.result_index h.wellFormed h.inPlace since settings hsize
    have covered : Covered settings v := fun r => hindexed.coversRecord hsince
    have wellFormed : v.records.WellFormed := hindexed.records_eq ▸ h.wellFormed
    obtain ⟨fields, rfl, hextends⟩ := hindexed
    rw [hindex]
    refine ⟨⟨wellFormed, hextends.inPlace, store, some stats.startedAt, rfl, ?_⟩,
      fun _ _ _ => covered⟩
    rintro t ⟨⟩
    refine ⟨?_, fun r hr hlive hindex _ => covered r hr hlive hindex⟩
    rw [hstarted]
    exact Int64.le_refl w.clock

end World

/-! ## Runs -/

/-- The steps of a session that leaves the records to the store, and the catalog to its indexing job and
to cleanups. The clock does not go back, as it does if it is advanced by a negative duration or past its
greatest instant. -/
def Step.IsRoutine {N : Type} (clock : Instant) : Step N → Prop
  | .operation op => (Call.operation op).Guarded
  | .upkeep (.ok (.cleanup _ _)) => True
  | .upkeep (.ok .runJob) => True
  | .advanceClock duration => clock ≤ clock + duration
  | _ => False

/-- The worlds that routine steps lead to, from an empty memory with an indexing job. -/
inductive Routine (settings : IndexSettings) : World collectionBackend → Prop
  | start (store : Store collectionBackend) (clock : Instant) (ids : IdSource) :
    Routine settings ⟨Memory.empty, clock, ids, some (.new store settings)⟩
  | step {N : Type} {native : N → Action collectionBackend Answer} {w : World collectionBackend}
    {step : Step N} (store : Store collectionBackend) :
    Routine settings w → step.IsRoutine w.clock →
      Routine settings ((step.run native store false).run w).2

theorem World.Tracks.step {settings : IndexSettings} {w : World collectionBackend}
    (h : w.Tracks settings) {N : Type} {native : N → Action collectionBackend Answer} {step : Step N}
    (store : Store collectionBackend) (hstep : step.IsRoutine w.clock) :
    Tracks settings ((step.run native store false).run w).2 := by
  match step, hstep with
  | .operation op, hstep => exact h.call store (show (Call.operation op).Guarded from hstep)
  | .upkeep (.ok (.cleanup request withCatalog)), _ =>
    exact h.call store (show (Call.cleanup request withCatalog).Guarded from rfl)
  | .upkeep (.ok .runJob), _ => exact h.runJob.1
  | .advanceClock duration, hstep => exact h.advance hstep

theorem Routine.tracks {settings : IndexSettings} {w : World collectionBackend}
    (h : Routine settings w) : w.Tracks settings := by
  induction h with
  | start store clock ids =>
    exact ⟨wellFormed_nil, CatalogMap.inPlace_nil, store, none, rfl, fun t ht => by cases ht⟩
  | step store _ hstep ih => exact ih.step store hstep

/-- A job that reads batches of some size succeeds. -/
theorem Routine.runJob_succeeds {settings : IndexSettings} {w : World collectionBackend}
    (h : Routine settings w)
    (hsize : ∀ job, w.job = some job → job.store.config.indexBatch ≠ 0) :
    ∃ stats since v, runJob.run w = (.ok (.jobRun (.ok stats) since), v) := by
  obtain ⟨store, since, hjob, -⟩ := h.tracks.job
  obtain ⟨stats, v, hindex, -⟩ := store.result_index h.tracks.wellFormed h.tracks.inPlace since
    settings (hsize _ hjob)
  refine ⟨stats, some stats.startedAt,
    { v with job := some ⟨store, settings, some stats.startedAt⟩ }, ?_⟩
  rw [run_runJob hjob, IndexingJob.run_run, hindex]

/-- After a successful run of the indexing job the catalog has, for every live record that is to be
indexed and every descriptor of its payload at the paths to be indexed, a row of the path in the
partition of the record that knows all types of the descriptor. -/
theorem Routine.catalog_complete {settings : IndexSettings} {w v : World collectionBackend}
    {stats : IndexStats} {since : Option Instant} (h : Routine settings w)
    (hrun : runJob.run w = (.ok (.jobRun (.ok stats) since), v)) {r : Record}
    (hr : r ∈ Keyed.values v.records) (hlive : r.isDeleted = false) (hindex : r.shouldIndex = true)
    {d : Descriptor} (hd : d ∈ r.descriptors settings) :
    ∃ rows, (memoryCatalog.rows (.ofRecord r)).result v.fields = (.ok rows, v.fields) ∧
      ∃ row ∈ rows, row.Covers (.ofRecord r) d := by
  have covered := h.tracks.runJob.2 stats since
  rw [hrun] at covered
  obtain ⟨row, hrow, hcovers⟩ := covered rfl r hr hlive hindex d hd
  exact ⟨_, rfl, row, List.mem_map_of_mem (f := Prod.snd) (Keyed.mem_of_get? hrow), hcovers⟩

/-- A record is created and indexed, and later updated: the next run sees what the update has added. -/
theorem Routine.catalog_complete_updated :
    let store : Store collectionBackend := ⟨(), .default⟩
    let run (w : World collectionBackend) (step : Step Unit) : World collectionBackend :=
      ((step.run (fun _ => pure .done) store false).run w).2
    let draft : Draft := ⟨"app", "group", "tag", .object [("a", .int 1)], true, none⟩
    let update : UpdateRequest :=
      ⟨⟨"app", "tag"⟩, .empty, .object [("b", .array [.null])], .merge, default⟩
    let start : World collectionBackend :=
      ⟨Memory.empty, 5, ⟨["x"], "", 0⟩, some (.new store .empty)⟩
    let indexed := run (run start (.operation (.create [draft] default))) (.upkeep (.ok .runJob))
    let w := run (run indexed (.advanceClock 1)) (.operation (.update update))
    Routine .empty w ∧
      ∃ stats since v rows, runJob.run w = (.ok (.jobRun (.ok stats) since), v) ∧
        (memoryCatalog.rows ⟨"app", "group", "tag"⟩).result (World.fields v) =
          (.ok rows, World.fields v) ∧
        ∃ row ∈ rows, row.path = "b.[*]" ∧
          ∃ types, row.arrayTypes = some types ∧ types.contains .null = true := by
  intro store run draft update start indexed w
  have routine : Routine .empty w := by
    refine .step store (.step store (.step store (.step store (.start store 5 _) ?_) ?_) ?_) ?_
    · exact rfl
    · exact trivial
    · change indexed.clock ≤ indexed.clock + 1
      decide +kernel
    · exact rfl
  have batch : w.job.map (fun job => job.store.config.indexBatch) = some 500 := by decide +kernel
  obtain ⟨stats, since, v, ran⟩ := routine.runJob_succeeds fun job hjob => by
    rw [hjob] at batch
    have size : job.store.config.indexBatch = 500 := Option.some.inj batch
    omega
  let r : Record :=
    { Record.ofDraft draft "x" 5 default with
      payload := .object [("a", .int 1), ("b", .array [.null])], updatedAt := 6 }
  have stored : r ∈ Keyed.values (World.records v) := by
    have kept : r ∈ Keyed.values (World.records (runJob.run w).2) := by decide +kernel
    rwa [ran] at kept
  have described : Descriptor.compressed "b.[*]" (.singleton .null) ∈ r.descriptors .empty := by
    decide +kernel
  obtain ⟨rows, hrows, row, hrow, hcovers⟩ :=
    Routine.catalog_complete routine ran stored rfl rfl described
  obtain ⟨types, htypes, hknown⟩ := hcovers.elements rfl
  exact ⟨routine, stats, since, v, rows, ran, hrows, row, hrow, hcovers.path, types, htypes,
    hknown .null rfl⟩

end RecordStore
