import RecordStore.Operation
import RecordStore.Proofs.Effect

/-!
# Stores that do the same

A `Coupling` relates the worlds of two backends. Two computations match under it (`Coupling.Matches`) if
they give the same result on related worlds and leave related worlds behind. A coupling may excuse
errors, after which nothing is asked of the worlds any more, and may tell what is known of the clock and
of the records that are written. There is a rule for each way to build computations.

Two stores are coupled (`Coupling.Couples`) if their basic operations match. Then all of their operations
match (`Coupling.Couples.operation`). A coupling of a backend with itself, of each world with itself, is
a property of worlds that operations keep.
-/

namespace RecordStore

variable {α β σ : Type} {B C : Backend}

/-- A relation between the worlds of two backends. -/
structure Coupling (B C : Backend) where
  rel : World B → World C → Prop
  /-- The errors after which the worlds need not be related. -/
  excuses : StoreError → Prop
  /-- What is known of the instant that the clock shows. -/
  shows : Instant → Prop
  /-- What is known of the records that are written. -/
  allows : Record → Prop

namespace Coupling

/-- On related worlds two computations give the same result, which has a property, and leave related
worlds behind. -/
def Matches (R : Coupling B C) (x : Action B α) (y : Action C α) (q : α → Prop) : Prop :=
  ∀ w v, R.rel w v →
    (∃ e, R.excuses e ∧ (x.result w).1 = .error e) ∨
      (x.result w).1 = (y.result v).1 ∧ R.rel (x.result w).2 (y.result v).2 ∧
        ∀ a, (x.result w).1 = .ok a → q a

/-! ## Rules -/

section Rules

variable {R : Coupling B C} {x x' : Action B α} {y y' : Action C α} {q : α → Prop} {s : β → Prop}

theorem Matches.weaken {q' : α → Prop} (h : R.Matches x y q) (hq : ∀ a, q a → q' a) :
    R.Matches x y q' :=
  fun w v hwv => (h w v hwv).imp_right fun ⟨same, related, returns⟩ =>
    ⟨same, related, fun a ha => hq a (returns a ha)⟩

theorem matches_pure {a : α} (h : q a) : R.Matches (pure a) (pure a) q :=
  fun _ _ hwv => .inr ⟨rfl, hwv, fun _ ha => Except.ok.inj ha ▸ h⟩

theorem matches_ofExcept (outcome : Except StoreError α) :
    R.Matches (Effect.ofExcept outcome) (Effect.ofExcept outcome) fun a => outcome = .ok a :=
  fun _ _ hwv => .inr ⟨rfl, hwv, fun _ => id⟩

theorem Matches.bind {f : α → Action B β} {g : α → Action C β} (h : R.Matches x y q)
    (hf : ∀ a, q a → R.Matches (f a) (g a) s) : R.Matches (x >>= f) (y >>= g) s := by
  intro w v hwv
  rw [Effect.result_bind, Effect.result_bind]
  rcases h w v hwv with ⟨e, hexcused, he⟩ | ⟨same, related, returns⟩
  · cases hx : x.result w with
    | mk outcome w' =>
      rw [hx] at he
      cases he
      exact .inl ⟨e, hexcused, rfl⟩
  · cases hx : x.result w with
    | mk outcome w' =>
      cases hy : y.result v with
      | mk outcome' v' =>
        rw [hx, hy] at same related
        rw [hx] at returns
        cases same
        cases outcome with
        | error e => exact .inr ⟨rfl, related, fun _ h => by cases h⟩
        | ok a => exact hf a (returns a rfl) w' v' related

theorem matches_ite {c : Prop} [Decidable c] (h : c → R.Matches x y q)
    (hother : ¬ c → R.Matches x' y' q) :
    R.Matches (if c then x else x') (if c then y else y') q := by
  split
  · next hc => exact h hc
  · next hc => exact hother hc

theorem matches_foldlM {f : σ → α → Action B σ} {g : σ → α → Action C σ} {t : σ → Prop}
    (h : ∀ acc a, t acc → R.Matches (f acc a) (g acc a) t) :
    ∀ (items : List α) (acc : σ), t acc → R.Matches (items.foldlM f acc) (items.foldlM g acc) t
  | [], _, hacc => matches_pure hacc
  | a :: rest, acc, hacc => by
    rw [List.foldlM_cons, List.foldlM_cons]
    exact (h acc a hacc).bind fun next hnext => matches_foldlM h rest next hnext

theorem matches_mapM {f : α → Action B β} {g : α → Action C β}
    (h : ∀ a, R.Matches (f a) (g a) s) :
    ∀ items : List α, R.Matches (items.mapM f) (items.mapM g) fun results => ∀ b ∈ results, s b
  | [] => matches_pure fun _ hb => absurd hb List.not_mem_nil
  | a :: rest => by
    rw [List.mapM_cons, List.mapM_cons]
    refine (h a).bind fun b hb => (matches_mapM h rest).bind fun results hresults => ?_
    refine matches_pure fun c hc => ?_
    rcases List.mem_cons.1 hc with rfl | hc
    · exact hb
    · exact hresults c hc

end Rules

/-! ## What may be written -/

section

variable (R : Coupling B C)

/-- If a batch writes the target of an upsert, its record may be written. -/
def AllowsTarget (target : UpsertTarget) : Prop :=
  target.isNew ∨ target.isChanged → R.allows target.record

def AllowsTargets (batch : UpsertBatch) : Prop := ∀ target ∈ batch.targets, R.AllowsTarget target

/-- The records that an operation brings may be written. -/
def AllowsOperation : Operation → Prop
  | .insert records | .replace records => ∀ r ∈ records, R.allows r
  | _ => True

end

namespace AllowsTargets

variable {R : Coupling B C} {batch : UpsertBatch} (h : R.AllowsTargets batch)
include h

theorem push {target : UpsertTarget} (htarget : R.AllowsTarget target) :
    R.AllowsTargets (batch.push target) := by
  intro t ht
  rcases List.mem_append.1 ht with ht | ht
  · exact h t ht
  · exact List.mem_singleton.1 ht ▸ htarget

theorem setTarget {key : UpsertKey} {target : UpsertTarget} (htarget : R.AllowsTarget target) :
    R.AllowsTargets (batch.setTarget key target) := by
  intro t ht
  obtain ⟨old, hold, rfl⟩ := List.mem_map.1 ht
  split
  · exact htarget
  · exact h old hold

theorem newRecords : ∀ r ∈ batch.newRecords, R.allows r := by
  intro r hr
  obtain ⟨t, ht, rfl⟩ := List.mem_map.1 hr
  obtain ⟨hmem, hnew⟩ := List.mem_filter.1 ht
  exact h t hmem (.inl hnew)

theorem changedRecords : ∀ r ∈ batch.changedRecords, R.allows r := by
  intro r hr
  obtain ⟨t, ht, rfl⟩ := List.mem_map.1 hr
  obtain ⟨hmem, hchanged⟩ := List.mem_filter.1 ht
  exact h t hmem (.inr (Bool.and_eq_true _ _ ▸ hchanged).2)

end AllowsTargets

/-! ## Coupled stores -/

/-- The basic operations of two stores match, and what the store makes of records may be written. -/
structure Couples (R : Coupling B C) (store : Store B) (other : Store C) : Prop where
  config_eq : store.config = other.config
  size_eq : ∀ w v, R.rel w v → B.size store.handle w.storage = C.size other.handle v.storage
  now : R.Matches Action.now Action.now R.shows
  freshId : R.Matches Action.freshId Action.freshId fun _ => True
  find : ∀ clause keys slice,
    R.Matches (store.find clause keys slice) (other.find clause keys slice) fun _ => True
  countClause : ∀ clause,
    R.Matches (store.countClause clause) (other.countClause clause) fun _ => True
  insert : ∀ records, (∀ r ∈ records, R.allows r) →
    R.Matches (store.insert records) (other.insert records) fun _ => True
  replace : ∀ records, (∀ r ∈ records, R.allows r) →
    R.Matches (store.replace records) (other.replace records) fun _ => True
  markDeleted : ∀ clause mark,
    R.Matches (store.markDeleted clause mark) (other.markDeleted clause mark) fun _ => True
  remove : ∀ ids, R.Matches (store.remove ids) (other.remove ids) fun _ => True
  allows_ofDraft : ∀ draft id now actor, R.shows now → R.allows (.ofDraft draft id now actor)
  allows_updated : ∀ update way now actor r, R.shows now →
    R.allows (Store.updated update way now actor r)
  allows_payload : ∀ r v, R.allows r → R.allows { r with payload := v }

namespace Couples

variable {R : Coupling B C} {store : Store B} {other : Store C} (h : R.Couples store other)
include h

theorem queryClause (scope : Scope) (query : Query) (includeDeleted : Bool) :
    R.Matches (Store.queryClause scope query includeDeleted)
      (Store.queryClause scope query includeDeleted) fun _ => True :=
  h.now.bind fun _ _ => (matches_ofExcept _).weaken fun _ _ => trivial

theorem first? (clause : Clause) :
    R.Matches (store.first? clause) (other.first? clause) fun _ => True :=
  (h.find clause _ _).bind fun _ _ => matches_pure trivial

/-! ### Walks -/

section

variable {base : Clause} {limit : σ → Nat} {visit : List Record → σ → Action B σ}
  {visit' : List Record → σ → Action C σ}

theorem walkFrom (hvisit : ∀ page acc, R.Matches (visit page acc) (visit' page acc) fun _ => True) :
    ∀ (fuel : Nat) (cursor : Option String) (acc : σ),
      R.Matches (store.walkFrom base limit visit fuel cursor acc)
        (other.walkFrom base limit visit' fuel cursor acc) fun _ => True
  | 0, _, _ => matches_pure trivial
  | fuel + 1, cursor, acc => by
    rw [Store.walkFrom, Store.walkFrom]
    refine matches_ite (fun _ => matches_pure trivial) fun _ => ?_
    refine Matches.bind (h.find _ _ _) fun page _ => ?_
    cases page.getLast? with
    | none => exact matches_pure trivial
    | some last =>
      refine (hvisit page acc).bind fun next _ => ?_
      exact matches_ite (fun _ => matches_pure trivial) fun _ => walkFrom hvisit fuel _ next

theorem walk (hvisit : ∀ page acc, R.Matches (visit page acc) (visit' page acc) fun _ => True)
    (start : σ) :
    R.Matches (store.walk base limit visit start) (other.walk base limit visit' start)
      fun _ => True := by
  have size : R.Matches (Effect.reading fun w => .ok (B.size store.handle w.storage))
      (Effect.reading fun v => .ok (C.size other.handle v.storage)) fun _ => True :=
    fun w v hwv => .inr ⟨congrArg Except.ok (h.size_eq w v hwv), hwv, fun _ _ => trivial⟩
  exact size.bind fun n _ => h.walkFrom hvisit (n + 1) none start

end

/-! ### Single operations -/

theorem newRecord (draft : Draft) (actor : Actor) :
    R.Matches (Store.newRecord draft actor) (Store.newRecord draft actor) R.allows :=
  h.now.bind fun now hnow => h.freshId.bind fun id _ =>
    matches_pure (h.allows_ofDraft draft id now actor hnow)

theorem create (drafts : List Draft) (actor : Actor) :
    R.Matches (store.create drafts actor) (other.create drafts actor) fun _ => True := by
  refine (matches_mapM (fun draft => h.newRecord draft actor) drafts).bind fun records hrecords => ?_
  refine matches_ite (fun _ => matches_pure trivial) fun _ => ?_
  exact (h.insert records hrecords).bind fun _ _ => matches_pure trivial

theorem read (request : ReadRequest) :
    R.Matches (store.read request) (other.read request) fun _ => True := by
  refine (h.queryClause _ _ _).bind fun clause _ => ?_
  refine (matches_ofExcept _).bind fun keys _ => (matches_ofExcept _).bind fun slice _ => ?_
  exact (h.find clause keys slice).bind fun _ _ => matches_pure trivial

theorem count (request : CountRequest) :
    R.Matches (store.count request) (other.count request) fun _ => True :=
  (h.queryClause _ _ _).bind fun clause _ => h.countClause clause

theorem updatePage (update : Value) (way : UpdateWay) (actor : Actor) (page : List Record) :
    R.Matches (store.updatePage update way actor page) (other.updatePage update way actor page)
      fun _ => True := by
  refine h.now.bind fun now hnow => (h.replace _ fun s hs => ?_).bind fun _ _ => matches_pure trivial
  obtain ⟨r, -, rfl⟩ := List.mem_map.1 hs
  exact h.allows_updated update way now actor r hnow

theorem update (request : UpdateRequest) :
    R.Matches (store.update request) (other.update request) fun _ => True := by
  refine (h.queryClause _ _ _).bind fun base _ => ?_
  rw [h.config_eq]
  refine Matches.bind (h.walk (fun page done => ?_) []) fun _ _ => matches_pure trivial
  exact (h.updatePage _ _ _ page).bind fun _ _ => matches_pure trivial

theorem delete (request : DeleteRequest) :
    R.Matches (store.delete request) (other.delete request) fun _ => True :=
  (h.queryClause _ _ _).bind fun clause _ => h.now.bind fun _ _ =>
    (h.markDeleted clause _).bind fun _ _ => matches_pure trivial

/-! ### Batched operations -/

theorem bulkUpdate (request : BulkUpdateRequest) :
    R.Matches (store.bulkUpdate request) (other.bulkUpdate request) fun _ => True := by
  rw [Store.bulkUpdate, Store.bulkUpdate, h.config_eq]
  refine (matches_ofExcept _).bind fun size _ => (h.queryClause _ _ _).bind fun base _ => ?_
  refine (h.countClause base).bind fun found _ => ?_
  refine Matches.bind (h.walk (fun page state => ?_) BulkState.start) fun _ _ => matches_pure trivial
  exact (h.updatePage _ _ _ page).bind fun _ _ => matches_pure trivial

theorem deleteRecords (records : List Record) (hard : Bool) (mark : DeletionMark) :
    R.Matches (store.deleteRecords records hard mark) (other.deleteRecords records hard mark)
      fun _ => True :=
  matches_ite (fun _ => matches_pure trivial) fun _ =>
    matches_ite (fun _ => h.remove _) fun _ => h.markDeleted _ mark

theorem bulkDelete (request : BulkDeleteRequest) :
    R.Matches (store.bulkDelete request) (other.bulkDelete request) fun _ => True := by
  rw [Store.bulkDelete, Store.bulkDelete, h.config_eq]
  refine (matches_ofExcept _).bind fun size _ => (h.queryClause _ _ _).bind fun base _ => ?_
  refine h.now.bind fun now _ => matches_ite (fun _ => ?_) fun _ => ?_
  · refine (h.countClause base).bind fun total _ => ?_
    refine Matches.bind (h.walk (fun page state => ?_) BulkState.start) fun _ _ =>
      matches_pure trivial
    exact (h.deleteRecords page _ _).bind fun _ _ => matches_pure trivial
  · refine (h.first? base).bind fun first _ => ?_
    exact (h.deleteRecords _ _ _).bind fun _ _ => matches_pure trivial

/-- Without the catalog. -/
theorem cleanup (request : CleanupRequest) :
    R.Matches (store.cleanup request false) (other.cleanup request false) fun _ => True := by
  rw [Store.cleanup, Store.cleanup, h.config_eq]
  refine (matches_ofExcept _).bind fun size _ => (h.countClause _).bind fun total _ => ?_
  refine Matches.bind (h.walk (fun page state => ?_) BulkState.start) fun _ _ => ?_
  · exact (h.remove _).bind fun _ _ => matches_pure trivial
  · exact Matches.bind (matches_pure (q := fun _ => True) trivial) fun _ _ => matches_pure trivial

/-! ### Upserts -/

theorem allows_combine {target : UpsertTarget} {way : UpdateWay} {draft : Draft} {now : Instant}
    {actor : Actor} (htarget : R.AllowsTarget target) (hnow : R.shows now) :
    R.AllowsTarget (target.combine way draft now actor) := by
  intro _
  rw [UpsertTarget.combine]
  cases hnew : target.isNew with
  | true => exact h.allows_payload _ _ (htarget (.inl hnew))
  | false => exact h.allows_updated draft.payload way now actor target.record hnow

theorem upsertNew (options : UpsertOptions) (key : Option UpsertKey) (draft : Draft)
    {batch : UpsertBatch} (hbatch : R.AllowsTargets batch) :
    R.Matches (Store.upsertNew options key draft batch) (Store.upsertNew options key draft batch)
      R.AllowsTargets :=
  (h.newRecord draft options.actor).bind fun _ hr => matches_pure (hbatch.push fun _ => hr)

theorem upsertConflict (options : UpsertOptions) (key : UpsertKey) (draft : Draft)
    {target : UpsertTarget} {batch : UpsertBatch} (hbatch : R.AllowsTargets batch)
    (htarget : R.AllowsTarget target) :
    R.Matches (Store.upsertConflict options key target draft batch)
      (Store.upsertConflict options key target draft batch) R.AllowsTargets := by
  refine h.now.bind fun now hnow => matches_pure ?_
  cases options.onConflict with
  | combine way => exact hbatch.setTarget (h.allows_combine htarget hnow)
  | ignore => exact hbatch
  | fail => exact hbatch

theorem upsertItem (options : UpsertOptions) (keys : List Path) (batch : UpsertBatch)
    (draft : Draft) (hbatch : R.AllowsTargets batch) :
    R.Matches (store.upsertItem options keys batch draft)
      (other.upsertItem options keys batch draft) R.AllowsTargets := by
  rw [Store.upsertItem, Store.upsertItem]
  cases draft.keyValues? keys with
  | none => exact h.upsertNew options none draft hbatch
  | some values =>
    dsimp only
    cases htarget : UpsertBatch.target? _ _ with
    | some target =>
      exact h.upsertConflict options _ draft hbatch (hbatch target (List.mem_of_find?_eq_some htarget))
    | none =>
      refine (h.first? _).bind fun found _ => ?_
      cases found with
      | none => exact h.upsertNew options _ draft hbatch
      | some r =>
        have hfound : R.AllowsTarget ⟨some ⟨draft.partition, values⟩, r, false, false⟩ := by
          simp [AllowsTarget]
        exact h.upsertConflict options _ draft (AllowsTargets.push hbatch hfound) hfound

theorem upsertBatch (options : UpsertOptions) (keys : List Path) (result : UpsertResult)
    (drafts : List Draft) :
    R.Matches (store.upsertBatch options keys result drafts)
      (other.upsertBatch options keys result drafts) fun _ => True := by
  refine (matches_foldlM (h.upsertItem options keys) drafts _ ?_).bind fun batch hbatch => ?_
  · exact fun _ htarget => absurd htarget List.not_mem_nil
  have replace (fin : UpsertResult) : R.Matches
      (if batch.changedRecords.isEmpty then pure fin
        else store.replace batch.changedRecords >>= fun _ => pure fin)
      (if batch.changedRecords.isEmpty then pure fin
        else other.replace batch.changedRecords >>= fun _ => pure fin) fun _ => True :=
    matches_ite (fun _ => matches_pure trivial) fun _ =>
      (h.replace _ hbatch.changedRecords).bind fun _ _ => matches_pure trivial
  exact matches_ite (fun _ => replace _) fun _ =>
    (h.insert _ hbatch.newRecords).bind fun _ _ => replace _

theorem upsert (drafts : List Draft) (options : UpsertOptions) :
    R.Matches (store.upsert drafts options) (other.upsert drafts options) fun _ => True := by
  rw [Store.upsert, Store.upsert, h.config_eq]
  refine (matches_ofExcept _).bind fun keys _ => (matches_ofExcept _).bind fun size _ => ?_
  exact matches_foldlM (fun result drafts _ => h.upsertBatch options keys result drafts) _ _ trivial

/-! ### All operations -/

theorem operation (op : Operation) (hop : R.AllowsOperation op) :
    R.Matches (op.run store) (op.run other) fun _ => True := by
  have answer {α : Type} {x : Action B α} {y : Action C α} (f : α → Answer)
      (hxy : R.Matches x y fun _ => True) :
      R.Matches (x >>= fun a => pure (f a)) (y >>= fun a => pure (f a)) fun _ => True :=
    hxy.bind fun _ _ => matches_pure trivial
  cases op with
  | newRecord draft actor => exact answer _ ((h.newRecord draft actor).weaken fun _ _ => trivial)
  | create drafts actor => exact answer _ (h.create drafts actor)
  | insert records => exact answer (fun _ => .done) (h.insert records hop)
  | replace records => exact answer (fun n : Nat => .number n) (h.replace records hop)
  | remove ids => exact answer (fun n : Nat => .number n) (h.remove ids)
  | all => exact answer _ (h.find _ _ _)
  | read request => exact answer _ (h.read request)
  | get scope id => exact answer _ (h.first? _)
  | count request => exact answer (fun n : Nat => .number n) (h.count request)
  | update request => exact answer _ (h.update request)
  | delete request => exact answer _ (h.delete request)
  | upsert drafts options => exact answer _ (h.upsert drafts options)
  | bulkUpdate request => exact answer (fun r => .bulkUpdated r.1 r.2) (h.bulkUpdate request)
  | bulkDelete request => exact answer (fun r => .bulkDeleted r.1 r.2) (h.bulkDelete request)

end Couples

/-! ## Invariants -/

section

/-- Each world is coupled with itself, as long as it has a property. -/
def invariant (I : World B → Prop) (shows : Instant → Prop) (allows : Record → Prop) :
    Coupling B B where
  rel w v := w = v ∧ I w
  excuses _ := False
  shows := shows
  allows := allows

variable {I : World B → Prop} {shows : Instant → Prop} {allows : Record → Prop} {x : Action B α}
  {q : α → Prop}

theorem matches_invariant
    (h : ∀ w, I w → I (x.result w).2 ∧ ∀ a, (x.result w).1 = .ok a → q a) :
    (invariant I shows allows).Matches x x q := by
  rintro w _ ⟨rfl, hw⟩
  exact .inr ⟨rfl, ⟨rfl, (h w hw).1⟩, (h w hw).2⟩

theorem Matches.keeps {w : World B} (h : (invariant I shows allows).Matches x x q) (hw : I w) :
    I (x.result w).2 := by
  rcases h w w ⟨rfl, hw⟩ with ⟨_, hexcused, _⟩ | ⟨_, related, _⟩
  · exact hexcused.elim
  · exact related.2

end

end Coupling

end RecordStore
