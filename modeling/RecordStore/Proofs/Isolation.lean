import RecordStore.Proofs.Reachable
import RecordStore.Proofs.Store.Isolation

/-!
# Isolation of applications

Steps that are addressed to an application (`Step.AddressedTo`) are, for this application, steps on
its own records alone, and no others are changed (`Step.confinedTo_run`, `Step.confinedTo_runAll`). So
two memories that agree on the records of the application cannot be told apart by it, whatever else
they hold (`Reachable.isolation`).
-/

namespace RecordStore

open Collection

/-! ## What is addressed to an application -/

/-- The operation makes records of the application, or addresses them. -/
def Operation.AddressedTo (app : String) : Operation → Prop
  | newRecord draft _ => draft.appId = app
  | create drafts _ => ∀ draft ∈ drafts, draft.appId = app
  | upsert drafts _ => ∀ draft ∈ drafts, draft.appId = app
  | read request => request.scope.appId = app
  | get scope _ => scope.appId = app
  | count request => request.scope.appId = app
  | update request => request.scope.appId = app
  | delete request => request.scope.appId = app
  | bulkUpdate request => request.scope.appId = app
  | bulkDelete request => request.scope.appId = app
  | insert _ | replace _ | remove _ | all => False

/-- The step is an operation that is addressed to the application, cleans up its records without the
catalog, or concerns the clock only. -/
def Step.AddressedTo {N : Type} (app : String) : Step N → Prop
  | operation op => op.AddressedTo app
  | upkeep (.ok (.cleanup request withCatalog)) => request.appId = some app ∧ withCatalog = false
  | now | setClock _ | advanceClock _ => True
  | _ => False

theorem Operation.confined_run {app : String} {op : Operation} (h : op.AddressedTo app)
    (store : Store collectionBackend) {p : Collection → Prop} :
    Confined app p (op.run store) fun _ _ => True := by
  have answer : ∀ {α : Type} {action : Action collectionBackend α} (f : α → Answer),
      Confined app p action (fun _ _ => True) →
        Confined app p (action >>= fun a => pure (f a)) fun _ _ => True :=
    fun f haction => haction.bind fun _ _ => confined_pure fun _ _ => trivial
  cases op with
  | newRecord draft actor =>
    exact answer _ ((Store.confined_newRecord h actor).weaken (fun _ _ => id) fun _ _ _ => trivial)
  | create drafts actor => exact answer _ (store.confined_create h actor)
  | upsert drafts options => exact answer _ (store.confined_upsert options h)
  | read request => subst h; exact answer _ (store.confined_read request)
  | get scope id => subst h; exact answer _ (store.confined_get? scope id)
  | count request => subst h; exact answer _ (store.confined_count request)
  | update request => subst h; exact answer _ (store.confined_update request)
  | delete request => subst h; exact answer _ (store.confined_delete request)
  | bulkUpdate request => subst h; exact answer _ (store.confined_bulkUpdate request)
  | bulkDelete request => subst h; exact answer _ (store.confined_bulkDelete request)
  | insert _ => exact h.elim
  | replace _ => exact h.elim
  | remove _ => exact h.elim
  | all => exact h.elim

/-! ## Steps -/

namespace Step

variable {N : Type} {app : String} (native : N → Action collectionBackend Answer)
  (store : Store collectionBackend)

/-- The outcomes of a session. -/
def outcomes (steps : List (Step N)) (w : World collectionBackend) : List Outcome :=
  ((runAll native store steps).run w).1

/-- The world after a session. -/
def after (steps : List (Step N)) (w : World collectionBackend) : World collectionBackend :=
  ((runAll native store steps).run w).2

/-- A computation on a world is confined to the application if the ids that it takes are not those of
others. -/
structure ConfinedTo {α : Type} (app : String)
    (computation : StateM (World collectionBackend) α) : Prop where
  reaches : ∀ w : World collectionBackend, w.ids.Reaches (computation.run w).2.ids
  confined : ∀ w : World collectionBackend, w.Separate app (computation.run w).2.ids →
    computation.run (w.seenBy app) = ((computation.run w).1, (computation.run w).2.seenBy app) ∧
      (computation.run w).2.records.WellFormed ∧
      (computation.run w).2.records.others app = w.records.others app

theorem confinedTo_pure {α : Type} (a : α) : ConfinedTo app (pure a) :=
  ⟨fun w => .refl w.ids, fun _ hw => ⟨rfl, hw.wellFormed, rfl⟩⟩

theorem ConfinedTo.bind {α β : Type} {computation : StateM (World collectionBackend) α}
    {f : α → StateM (World collectionBackend) β} (h : ConfinedTo app computation)
    (hf : ∀ a, ConfinedTo app (f a)) : ConfinedTo app (computation >>= f) := by
  have run : ∀ w, (computation >>= f).run w =
      (f (computation.run w).1).run (computation.run w).2 := fun _ => rfl
  refine ⟨fun w => ?_, fun w hw => ?_⟩
  · rw [run]
    exact (h.reaches w).trans ((hf _).reaches _)
  · rw [run] at hw
    obtain ⟨seen, wellFormed, others⟩ := h.confined w (hw.mono ((hf _).reaches _))
    obtain ⟨seen', wellFormed', others'⟩ :=
      (hf _).confined _ (hw.later (h.reaches w) wellFormed others)
    rw [run, run, seen, seen']
    exact ⟨rfl, wellFormed', others'.trans others⟩

theorem confinedTo_outcome {action : Action collectionBackend Answer}
    {q : Answer → Collection → Prop} (h : Confined app (fun _ => True) action q) :
    ConfinedTo app (outcome action) := by
  have run : ∀ w : World collectionBackend, (outcome action).run w =
      ((action.result w).1.mapError Failure.store, (action.result w).2) := by
    intro w
    have ran : action.run.run w = action.result w := rfl
    rw [outcome, StateT.run_bind, ran]
    rcases action.result w with ⟨_ | _, _⟩ <;> rfl
  refine ⟨fun w => ?_, fun w hw => ?_⟩
  · rw [run]
    exact h.advances w
  · rw [run] at hw
    obtain ⟨⟨seen, wellFormed, others⟩, -⟩ := h.confinedAt w hw trivial
    rw [run, run, seen]
    exact ⟨rfl, wellFormed, others⟩

theorem confinedTo_moveClock (f : Instant → Instant) :
    ConfinedTo app (moveClock (B := collectionBackend) f) :=
  ⟨fun w => .refl w.ids, fun _ hw => ⟨rfl, hw.wellFormed, rfl⟩⟩

/-- A step that is addressed to the application is confined to it. -/
theorem confinedTo_run {step : Step N} (h : step.AddressedTo app) :
    ConfinedTo app (run native store false step) := by
  cases step with
  | operation op => exact confinedTo_outcome (op.confined_run h store)
  | upkeep request =>
    cases request with
    | error failure => exact h.elim
    | ok request =>
      cases request with
      | cleanup request withCatalog =>
        obtain ⟨happ, rfl⟩ := h
        exact confinedTo_outcome ((store.confined_cleanup happ).bind fun result _ =>
          confined_pure (q := fun _ _ => True) fun _ _ => trivial)
      | _ => exact h.elim
  | now => exact confinedTo_moveClock id
  | setClock instant => exact confinedTo_moveClock fun _ => instant
  | advanceClock duration => exact confinedTo_moveClock (· + duration)
  | _ => exact h.elim

/-- A session whose steps are all addressed to the application is confined to it. -/
theorem confinedTo_runAll {steps : List (Step N)} (h : ∀ step ∈ steps, step.AddressedTo app) :
    ConfinedTo app (runAll native store steps) := by
  rw [runAll]
  induction steps with
  | nil => exact confinedTo_pure []
  | cons step rest ih =>
    rw [List.mapM_cons]
    have first := confinedTo_run native store (h step List.mem_cons_self)
    have others := ih fun other hother => h other (List.mem_cons_of_mem _ hother)
    exact first.bind fun outcome => others.bind fun outcomes => confinedTo_pure _

theorem after_append (before rest : List (Step N)) (w : World collectionBackend) :
    after native store (before ++ rest) w = after native store rest (after native store before w) := by
  rw [after, runAll, List.mapM_append]
  rfl

/-- At any time in a session whose steps are all addressed to the application, its own records are
what they would be if there were no others, and these are as they were at the start. -/
theorem confined_after {steps : List (Step N)} (h : ∀ step ∈ steps, step.AddressedTo app)
    {w : World collectionBackend} (hw : w.Separate app (after native store steps w).ids) (n : Nat) :
    (after native store (steps.take n) w).seenBy app =
        after native store (steps.take n) (w.seenBy app) ∧
      (after native store (steps.take n) w).records.others app = w.records.others app := by
  have split := after_append native store (steps.take n) (steps.drop n) w
  rw [List.take_append_drop] at split
  have start : ConfinedTo app (runAll native store (steps.take n)) :=
    confinedTo_runAll native store fun step hstep => h step (List.mem_of_mem_take hstep)
  have rest : ConfinedTo app (runAll native store (steps.drop n)) :=
    confinedTo_runAll native store fun step hstep => h step (List.mem_of_mem_drop hstep)
  rw [split] at hw
  obtain ⟨seen, -, others⟩ := start.confined w (hw.mono (rest.reaches _))
  exact ⟨(congrArg Prod.snd seen).symm, others⟩

end Step

/-! ## Isolation -/

/-- Two reachable memories hold the same records of an application, and whatever records of others,
none of which has an id that the session takes. A session of steps that are addressed to the
application then has the same outcomes on both. After each step the records of the application are
the same, and those of others are as they were at the start. -/
theorem Reachable.isolation {N : Type} {allowed : Call → Prop} {app : String}
    {w v : World collectionBackend} (hw : Reachable allowed w.storage)
    (hv : Reachable allowed v.storage) (hclock : w.clock = v.clock) (hids : w.ids = v.ids)
    (hown : w.records.ofApp app = v.records.ofApp app)
    (native : N → Action collectionBackend Answer) (store : Store collectionBackend)
    {steps : List (Step N)} (haddressed : ∀ step ∈ steps, step.AddressedTo app)
    (hfreshw : ∀ id, w.ids.Gives (Step.after native store steps w).ids id → w.records.IsOpen app id)
    (hfreshv : ∀ id, v.ids.Gives (Step.after native store steps v).ids id → v.records.IsOpen app id) :
    Step.outcomes native store steps w = Step.outcomes native store steps v ∧
    ∀ n,
      (Step.after native store (steps.take n) w).records.ofApp app =
        (Step.after native store (steps.take n) v).records.ofApp app ∧
      (Step.after native store (steps.take n) w).records.others app = w.records.others app ∧
      (Step.after native store (steps.take n) v).records.others app = v.records.others app := by
  have same : w.seenBy app = v.seenBy app := by
    rw [World.seenBy, World.seenBy, hown, hclock, hids]
  have separatew : w.Separate app (Step.after native store steps w).ids := ⟨hw.wellFormed, hfreshw⟩
  have separatev : v.Separate app (Step.after native store steps v).ids := ⟨hv.wellFormed, hfreshv⟩
  have confined := Step.confinedTo_runAll native store haddressed
  refine ⟨?_, fun n => ?_⟩
  · have seenw := congrArg Prod.fst (confined.confined w separatew).1
    have seenv := congrArg Prod.fst (confined.confined v separatev).1
    rw [same] at seenw
    exact seenw.symm.trans seenv
  · obtain ⟨seenw, othersw⟩ := Step.confined_after native store haddressed separatew n
    obtain ⟨seenv, othersv⟩ := Step.confined_after native store haddressed separatev n
    rw [same, ← seenv] at seenw
    exact ⟨congrArg World.records seenw, othersw, othersv⟩

/-- An application creates, updates, marks and cleans up records next to a record of another one, as
if it were alone. -/
theorem Reachable.isolation_neighbour :
    let draft (app : String) : Draft := ⟨app, "group", "tag", .null, false, none⟩
    let own := Record.ofDraft (draft "app") "a" 1 default
    let foreign := Record.ofDraft (draft "other") "x" 1 default
    let scope : Scope := ⟨"app", "tag"⟩
    let w : World collectionBackend := ⟨⟨[("a", own), ("x", foreign)], []⟩, 2, ⟨[], "id", 0⟩, none⟩
    let v : World collectionBackend := ⟨⟨[("a", own)], []⟩, 2, ⟨[], "id", 0⟩, none⟩
    let store : Store collectionBackend := ⟨(), .default⟩
    let steps : List (Step Empty) := [
      .operation (.create [draft "app"] default),
      .operation (.update ⟨scope, .empty, .bool true, .replace, default⟩),
      .operation (.bulkDelete ⟨scope, .empty, default, false, true, none⟩),
      .upkeep (.ok (.cleanup ⟨some "app", none⟩ false))]
    Step.outcomes Empty.elim store steps w = Step.outcomes Empty.elim store steps v ∧
      (Step.after Empty.elim store steps w).records.others "app" = [("x", foreign)] := by
  intro draft own foreign scope w v store steps
  have hw : Reachable (fun _ => True) w.storage :=
    @Reachable.of_run (fun _ => True) ⟨Memory.empty, 1, default, none⟩
      (.operation (.insert [own, foreign])) .empty trivial store w.records (by decide +kernel) []
  have hv : Reachable (fun _ => True) v.storage :=
    @Reachable.of_run (fun _ => True) ⟨Memory.empty, 1, default, none⟩
      (.operation (.insert [own])) .empty trivial store _ rfl []
  have addressed : ∀ step ∈ steps, step.AddressedTo "app" := by
    simp [steps, Step.AddressedTo, Operation.AddressedTo, scope, draft]
  have long : ∀ next n, 1 < ((⟨[], "id", next⟩ : IdSource).nth n).length := by
    intro next n
    induction n generalizing next with
    | zero =>
      have stem : ("id" ++ "-").length = 3 := by decide
      rw [IdSource.nth, IdSource.take, String.length_append, stem]
      omega
    | succ n ih => exact ih (next + 1)
  have isOpen : ∀ id last, w.ids.Gives last id → w.records.IsOpen "app" id := by
    rintro id last ⟨n, -, rfl⟩
    have differs : "x" ≠ w.ids.nth n := fun h => absurd (long 0 n) (by rw [← h]; decide)
    exact if_neg differs
  obtain ⟨outcomes, later⟩ := Reachable.isolation (w := w) (v := v) hw hv rfl rfl rfl Empty.elim
    store addressed (fun id => isOpen id _) fun _ _ => rfl
  exact ⟨outcomes, (later 4).2.1⟩

end RecordStore
