import RecordStore.Proofs.Backend.Application
import RecordStore.Proofs.Store.Evolution

/-!
# Operations confined to an application

An operation is confined to an application (`Confined`) if the application sees no more of a run
than its own records: the run gives the result that it gives on these records alone, does to them
what it does to them alone (`ConfinedAt.result_seenBy`), and leaves the records of all other
applications as they are. The ids that the run takes for new records must not be those of other
applications (`World.Separate`). There is a rule for each way to build operations, and for each basic
operation of a store. A walk looks at the size of the whole collection, but only for a bound on the
number of its pages (`Store.confinedAt_walkFrom`).
-/

namespace RecordStore

open Collection

variable {α β σ : Type} {action own : Action collectionBackend α}

/-! ## Ids and results -/

namespace Action

/-- An operation takes ids from the source in their order. -/
def Advances (action : Action collectionBackend α) : Prop :=
  ∀ w : World collectionBackend, w.ids.Reaches (action.result w).2.ids

/-- What an operation can return. -/
def Returns (action : Action collectionBackend α) (a : α) : Prop :=
  ∃ w, (action.result w).1 = .ok a

theorem advances_of_ids_eq (h : ∀ w : World collectionBackend, (action.result w).2.ids = w.ids) :
    action.Advances :=
  fun w => (h w).symm ▸ .refl w.ids

theorem advances_pure (a : α) : (pure a : Action collectionBackend α).Advances :=
  advances_of_ids_eq fun _ => rfl

theorem reaches_bind {f : α → Action collectionBackend β}
    (hf : ∀ a, action.Returns a → (f a).Advances) (w : World collectionBackend) :
    (action.result w).2.ids.Reaches ((action >>= f).result w).2.ids := by
  rw [Effect.result_bind]
  cases hresult : action.result w with
  | mk outcome w' =>
    cases outcome with
    | error e => exact .refl _
    | ok a => exact hf a ⟨w, by rw [hresult]⟩ w'

theorem Advances.bind {f : α → Action collectionBackend β} (h : action.Advances)
    (hf : ∀ a, action.Returns a → (f a).Advances) : (action >>= f).Advances :=
  fun w => (h w).trans (reaches_bind hf w)

theorem advances_ite {c : Prop} [Decidable c] {other : Action collectionBackend α}
    (h : action.Advances) (hother : other.Advances) : Advances (if c then action else other) := by
  split
  · exact h
  · exact hother

theorem Returns.of_ofExcept {outcome : Except StoreError α} {a : α}
    (h : Returns (Effect.ofExcept outcome) a) : outcome = .ok a := by
  obtain ⟨_, ha⟩ := h
  exact ha

theorem Returns.of_bind {f : α → Action collectionBackend β} {b : β}
    (h : (action >>= f).Returns b) : ∃ a, action.Returns a ∧ (f a).Returns b := by
  obtain ⟨w, hb⟩ := h
  rw [Effect.result_bind] at hb
  cases hresult : action.result w with
  | mk outcome w' =>
    rw [hresult] at hb
    cases outcome with
    | error e => cases hb
    | ok a => exact ⟨a, ⟨w, by rw [hresult]⟩, w', hb⟩

end Action

open RecordStore.Action

/-! ## Worlds -/

/-- What an application sees of a world: its own records, the clock, and the source of ids. -/
def World.seenBy (app : String) (w : World collectionBackend) : World collectionBackend where
  storage := (⟨w.records.ofApp app, []⟩ : Memory)
  clock := w.clock
  ids := w.ids
  job := none

/-- No id that the source gives before it becomes another one is that of a record of another
application. -/
structure World.Separate (app : String) (last : IdSource) (w : World collectionBackend) :
    Prop where
  wellFormed : w.records.WellFormed
  isOpen : ∀ id, w.ids.Gives last id → w.records.IsOpen app id

variable {app : String} {middle last : IdSource} {w w' : World collectionBackend}

/-- Fewer ids may be given. -/
theorem World.Separate.mono (h : w.Separate app last) (hlast : middle.Reaches last) :
    w.Separate app middle :=
  ⟨h.wellFormed, fun id ⟨n, hn, hid⟩ => h.isOpen id ⟨n, hn.trans hlast, hid⟩⟩

/-- What is left to be given stays separate while the records of others stay as they are. -/
theorem World.Separate.later (h : w.Separate app last) (hids : w.ids.Reaches w'.ids)
    (hwellFormed : w'.records.WellFormed)
    (hothers : w'.records.others app = w.records.others app) : w'.Separate app last :=
  ⟨hwellFormed, fun id hid => (h.isOpen id (hid.of_reaches hids)).congr hothers⟩

/-- A run of an operation is, for an application, a run of an operation on its own records, and
leaves the records of all others as they are. -/
structure ConfinedAt (app : String) (action own : Action collectionBackend α)
    (w : World collectionBackend) : Prop where
  result_seenBy : own.result (w.seenBy app) = ((action.result w).1, (action.result w).2.seenBy app)
  wellFormed : (action.result w).2.records.WellFormed
  others_eq : (action.result w).2.records.others app = w.records.others app

/-- On records with a property an operation is confined to an application if the ids that it takes
are not those of others, and what it returns has a property. -/
structure Confined (app : String) (p : Collection → Prop) (action : Action collectionBackend α)
    (q : α → Collection → Prop) : Prop where
  advances : action.Advances
  confinedAt : ∀ w : World collectionBackend, w.Separate app (action.result w).2.ids →
    p w.records → ConfinedAt app action action w ∧
      ∀ a, (action.result w).1 = .ok a → q a (action.result w).2.records

/-! ## Rules -/

theorem ConfinedAt.of_result {result : Except StoreError α} (h : w.records.WellFormed)
    (hw : action.result w = (result, w)) (hown : own.result (w.seenBy app) = (result, w.seenBy app)) :
    ConfinedAt app action own w := by
  refine ⟨?_, ?_, ?_⟩
  · rw [hw, hown]
  · rwa [hw]
  · rw [hw]

theorem ConfinedAt.bind {f g : α → Action collectionBackend β} (h : ConfinedAt app action own w)
    (hf : ∀ a, (action.result w).1 = .ok a → ConfinedAt app (f a) (g a) (action.result w).2) :
    ConfinedAt app (action >>= f) (own >>= g) w := by
  obtain ⟨seen, wellFormed, others⟩ := h
  have whole := Effect.result_bind action f w
  have part := Effect.result_bind own g (w.seenBy app)
  rw [seen] at part
  cases hresult : action.result w with
  | mk outcome w' =>
    rw [hresult] at whole part wellFormed others hf
    cases outcome with
    | error e =>
      refine ⟨?_, ?_, ?_⟩
      · rw [part, whole]
      · rwa [whole]
      · rwa [whole]
    | ok a =>
      obtain ⟨seen', wellFormed', others'⟩ := hf a rfl
      dsimp only at whole part seen' wellFormed' others'
      refine ⟨?_, ?_, ?_⟩
      · rw [part, whole, seen']
      · rwa [whole]
      · rw [whole, others', others]

section Bind

variable {f : α → Action collectionBackend β} (h : w.Separate app ((action >>= f).result w).2.ids)
include h

theorem World.Separate.of_bind (hf : ∀ a, action.Returns a → (f a).Advances) :
    w.Separate app (action.result w).2.ids := h.mono (reaches_bind hf w)

/-- What is left of a run is separate, too. -/
theorem World.Separate.after_bind (hadvances : action.Advances)
    (hconfined : ConfinedAt app action own w) {a : α} (ha : (action.result w).1 = .ok a) :
    (action.result w).2.Separate app ((f a).result (action.result w).2).2.ids := by
  have whole : (action >>= f).result w = (f a).result (action.result w).2 :=
    Effect.result_bind_ok (Prod.ext ha rfl)
  rw [whole] at h
  exact h.later (hadvances w) hconfined.wellFormed hconfined.others_eq

end Bind

section Rules

variable {p : Collection → Prop} {q : α → Collection → Prop} {s : β → Collection → Prop}

theorem Confined.weaken {p' : Collection → Prop} {q' : α → Collection → Prop}
    (h : Confined app p action q)
    (hp : ∀ records, records.WellFormed → p' records → p records)
    (hq : ∀ a records, q a records → q' a records) : Confined app p' action q' := by
  refine ⟨h.advances, fun w hw hp' => ?_⟩
  obtain ⟨confined, returns⟩ := h.confinedAt w hw (hp _ hw.wellFormed hp')
  exact ⟨confined, fun a ha => hq _ _ (returns a ha)⟩

/-- What an operation upholds it returns where it is confined. -/
theorem Confined.of_upholds {R : Evolution} (h : R.Upholds p action q)
    (hids : ∀ w : World collectionBackend, (action.result w).2.ids = w.ids)
    (hconfined : ∀ w : World collectionBackend, w.records.WellFormed → p w.records →
      ConfinedAt app action action w) : Confined app p action q :=
  ⟨advances_of_ids_eq hids, fun w hw hp =>
    ⟨hconfined w hw.wellFormed hp, (h w hw.wellFormed hp).2.2⟩⟩

theorem confined_pure {a : α} (h : ∀ records, p records → q a records) :
    Confined app p (pure a) q := by
  refine ⟨advances_pure a, fun w hw hp => ⟨.of_result hw.wellFormed rfl rfl, fun b hb => ?_⟩⟩
  cases hb
  exact h _ hp

theorem Confined.bind {f : α → Action collectionBackend β} (h : Confined app p action q)
    (hf : ∀ a, action.Returns a → Confined app (q a) (f a) s) :
    Confined app p (action >>= f) s := by
  have advances : ∀ a, action.Returns a → (f a).Advances := fun a ha => (hf a ha).advances
  refine ⟨h.advances.bind advances, fun w hw hp => ?_⟩
  obtain ⟨confined, returns⟩ := h.confinedAt w (hw.of_bind advances) hp
  have next : ∀ a, (action.result w).1 = .ok a →
      ConfinedAt app (f a) (f a) (action.result w).2 ∧
        ∀ b, ((f a).result (action.result w).2).1 = .ok b →
          s b ((f a).result (action.result w).2).2.records :=
    fun a ha => (hf a ⟨w, ha⟩).confinedAt _ (hw.after_bind h.advances confined ha) (returns a ha)
  refine ⟨confined.bind fun a ha => (next a ha).1, fun b hb => ?_⟩
  rw [Effect.result_bind] at hb ⊢
  cases hresult : action.result w with
  | mk outcome w' =>
    rw [hresult] at hb next
    cases outcome with
    | error e => cases hb
    | ok a => exact (next a rfl).2 b hb

theorem confined_ite {c : Prop} [Decidable c] {other : Action collectionBackend α}
    (h : c → Confined app p action q) (hother : ¬ c → Confined app p other q) :
    Confined app p (if c then action else other) q := by
  split
  · next hc => exact h hc
  · next hc => exact hother hc

theorem confined_foldlM {f : σ → α → Action collectionBackend σ} {t : σ → Collection → Prop}
    {items : List α} (h : ∀ a ∈ items, ∀ acc, Confined app (t acc) (f acc a) t) (acc : σ) :
    Confined app (t acc) (items.foldlM f acc) t := by
  induction items generalizing acc with
  | nil => exact confined_pure fun _ => id
  | cons a rest ih =>
    rw [List.foldlM_cons]
    exact (h a List.mem_cons_self acc).bind fun next _ =>
      ih (fun b hb => h b (List.mem_cons_of_mem _ hb)) next

/-- What holds of each result stays true if what is done later leaves it so. -/
theorem confined_mapM {f : α → Action collectionBackend β} {t : β → Collection → Prop}
    {items : List α}
    (h : ∀ a ∈ items, ∀ p : Collection → Prop,
      Confined app p (f a) fun b records => p records ∧ t b records) :
    Confined app p (items.mapM f) fun results records =>
      p records ∧ ∀ b ∈ results, t b records := by
  induction items generalizing p with
  | nil => exact confined_pure fun _ hp => ⟨hp, by simp⟩
  | cons a rest ih =>
    rw [List.mapM_cons]
    refine (h a List.mem_cons_self p).bind fun b _ => ?_
    refine (ih fun c hc => h c (List.mem_cons_of_mem _ hc)).bind fun results _ => ?_
    refine confined_pure fun records hp => ⟨hp.1.1, fun c hc => ?_⟩
    rcases List.mem_cons.1 hc with rfl | hc
    · exact hp.1.2
    · exact hp.2 c hc

theorem confined_ofExcept (outcome : Except StoreError α) :
    Confined app p (Effect.ofExcept outcome) fun _ => p :=
  .of_upholds (R := .any) ((Evolution.upholds_ofExcept outcome).weaken (fun _ => id)
    fun _ _ h => h.1) (fun _ => rfl) fun _ hw _ => .of_result hw rfl rfl

theorem confined_now : Confined app p Action.now fun _ => p :=
  .of_upholds (R := .any) Evolution.upholds_now (fun _ => rfl) fun _ hw _ =>
    .of_result hw rfl rfl

/-- A new id is not that of a record of another application. -/
theorem confined_freshId :
    Confined app p Action.freshId fun id records => p records ∧ records.IsOpen app id := by
  refine ⟨fun w => w.ids.reaches_take, fun w hw hp => ⟨⟨rfl, hw.wellFormed, rfl⟩, fun id hid => ?_⟩⟩
  rw [Action.result_freshId] at hid hw
  cases hid
  exact ⟨hp, hw.isOpen _ (IdSource.gives_take (.refl _))⟩

end Rules

/-! ## Clauses of an application -/

/-- Only records of the application satisfy the clause. -/
def Clause.IsWithin (app : String) (clause : Clause) : Prop :=
  ∀ r, clause.holds r = true → r.appId = app

theorem Clause.IsWithin.all {clause : Clause} (h : clause.IsWithin app) {clauses : List Clause}
    (hclause : clause ∈ clauses) : (Clause.all clauses).IsWithin app := by
  intro r hr
  rw [Clause.holds_all, List.all_eq_true] at hr
  exact h r (hr clause hclause)

theorem Clause.isWithin_appId (app : String) :
    (Clause.column .appId (.eq (.string app))).IsWithin app := by
  intro r hr
  rw [Clause.holds_column_string rfl] at hr
  exact beq_iff_eq.1 hr

theorem Scope.isWithin_clause (scope : Scope) (includeDeleted : Bool) :
    (scope.clause includeDeleted).IsWithin scope.appId :=
  (Clause.isWithin_appId scope.appId).all (List.mem_append_left _ List.mem_cons_self)

/-! ## Basic operations -/

namespace Store

variable {p : Collection → Prop} (store : Store collectionBackend) {clause base : Clause}

theorem confined_find (hclause : clause.IsWithin app) (keys : List SortKey)
    (slice : Option Slice) :
    Confined app p (store.find clause keys slice) fun found records =>
      p records ∧ ∀ r ∈ found, records.Stores r ∧ clause.holds r = true := by
  refine .of_upholds (R := .any) (store.upholds_find clause keys slice) (fun _ => rfl)
    fun w hw _ => .of_result hw (result_find store w clause keys slice) ?_
  rw [result_find]
  exact congrArg (·, _) (find_ofApp (fun r _ => hclause r) _ _)

theorem confined_countClause (hclause : clause.IsWithin app) :
    Confined app p (store.countClause clause) fun _ => p := by
  refine .of_upholds (R := .any) (store.upholds_countClause clause) (fun _ => rfl)
    fun w hw _ => .of_result hw (result_countClause store w clause) ?_
  rw [result_countClause]
  exact congrArg (fun found => (Except.ok found.length, _)) (passing_ofApp fun r _ => hclause r)

theorem confined_first? (hclause : clause.IsWithin app) :
    Confined app p (store.first? clause) fun found records =>
      p records ∧ ∀ r ∈ found, records.Stores r ∧ clause.holds r = true := by
  refine (store.confined_find hclause _ _).bind fun found _ => confined_pure fun records hp => ?_
  exact ⟨hp.1, fun r hr => hp.2 r (List.mem_of_mem_head? hr)⟩

theorem confined_queryClause (scope : Scope) (query : Query) (includeDeleted : Bool) :
    Confined app p (queryClause (B := collectionBackend) scope query includeDeleted) fun _ => p :=
  confined_now.bind fun _ _ => confined_ofExcept _

/-- The clause of a query selects records of the application that the query is addressed to. -/
theorem isWithin_queryClause {scope : Scope} {query : Query} {includeDeleted : Bool}
    (h : Action.Returns (queryClause (B := collectionBackend) scope query includeDeleted) clause) :
    clause.IsWithin scope.appId := by
  obtain ⟨now, -, hclause⟩ := h.of_bind
  obtain ⟨user, -, huser⟩ := bind_eq_ok.1 hclause.of_ofExcept
  cases huser
  exact (scope.isWithin_clause includeDeleted).all List.mem_cons_self

theorem confined_insert {batch : List Record}
    (h : ∀ records, records.WellFormed → p records → ∀ r ∈ batch, records.Writable app r) :
    Confined app p (store.insert batch) fun _ new =>
      ∃ old, p old ∧ new.others app = old.others app := by
  have ids : ∀ w : World collectionBackend, ((store.insert batch).result w).2.ids = w.ids := by
    intro w
    rw [result_insert]
    cases w.records.insert batch <;> rfl
  refine ⟨advances_of_ids_eq ids, fun w hw hp => ?_⟩
  obtain ⟨own, others⟩ := within_insert hw.wellFormed (h _ hw.wellFormed hp)
  have records : (w.seenBy app).records = w.records.ofApp app := rfl
  have seen := result_insert store (w.seenBy app) batch
  rw [records, own] at seen
  have whole := result_insert store w batch
  cases hinsert : w.records.insert batch with
  | error e =>
    rw [hinsert] at whole seen
    refine ⟨.of_result hw.wellFormed whole seen, fun _ ha => ?_⟩
    rw [whole] at ha
    cases ha
  | ok new =>
    rw [hinsert] at whole seen
    have same := others new hinsert
    refine ⟨⟨?_, ?_, ?_⟩, fun _ _ => ⟨w.records, hp, ?_⟩⟩
    · rw [seen, whole]
      rfl
    · rw [whole]
      exact hw.wellFormed.insert hinsert
    · rw [whole]
      exact same
    · rw [whole]
      exact same

/-- Writing that concerns the records of the application only. -/
theorem confinedAt_of_within {result alone : Except StoreError α × Collection}
    (h : Within app w.records result alone)
    (hresult : action.result w = (result.1, w.withRecords result.2))
    (hown : own.result (w.seenBy app) = (alone.1, (w.seenBy app).withRecords alone.2)) :
    ConfinedAt app action own w := by
  rw [h.own_eq] at hown
  refine ⟨?_, ?_, ?_⟩
  · rw [hown, hresult]
    rfl
  · rw [hresult]
    exact h.wellFormed
  · rw [hresult]
    exact h.others_eq

/-- The keys of the records that an application has. -/
def keysOf (app : String) (records : Collection) : List String := Keyed.keys (records.ofApp app)

theorem confined_replace {replacements : List Record}
    (h : ∀ records, records.WellFormed → p records →
      ∀ r ∈ replacements, records.Writable app r) :
    Confined app p (store.replace replacements) fun _ new =>
      ∃ old, p old ∧ keysOf app new = keysOf app old := by
  refine ⟨advances_of_ids_eq fun _ => rfl, fun w hw hp => ?_⟩
  have within := within_replace hw.wellFormed (h _ hw.wellFormed hp)
  have keys := keys_replace (hw.wellFormed.ofApp app) replacements
  rw [within.own_eq] at keys
  exact ⟨confinedAt_of_within (within.map Except.ok) rfl rfl, fun _ _ => ⟨w.records, hp, keys⟩⟩

theorem confined_remove {ids : List String}
    (h : ∀ records, records.WellFormed → p records → ∀ id ∈ ids, records.IsOpen app id) :
    Confined app p (store.remove ids) fun _ new =>
      ∃ old, p old ∧ (keysOf app new).Sublist (keysOf app old) := by
  refine ⟨advances_of_ids_eq fun _ => rfl, fun w hw hp => ?_⟩
  have within := within_remove hw.wellFormed (h _ hw.wellFormed hp)
  have keys := (remove_sublist ids (w.records.ofApp app)).map Prod.fst
  rw [within.own_eq] at keys
  exact ⟨confinedAt_of_within (within.map Except.ok) rfl rfl, fun _ _ => ⟨w.records, hp, keys⟩⟩

theorem confined_markDeleted {mark : DeletionMark}
    (h : ∀ records, records.WellFormed → p records → ∀ r, records.Stores r →
      clause.holds r = true → r.appId = app) :
    Confined app p (store.markDeleted clause mark) fun _ new =>
      ∃ old, p old ∧ keysOf app new = keysOf app old := by
  refine ⟨advances_of_ids_eq fun _ => rfl, fun w hw hp => ?_⟩
  have hclause : ∀ r ∈ Keyed.values w.records, clause.holds r = true → r.appId = app :=
    fun r hr => h _ hw.wellFormed hp r (hw.wellFormed.mem_values_iff.1 hr)
  have within := within_markDeleted hw.wellFormed hclause mark
  have keys : Keyed.keys (Collection.markDeleted clause.document mark (w.records.ofApp app)).2 =
      Keyed.keys (w.records.ofApp app) := by
    rw [markDeleted_document]
    exact Keyed.keys_mapValues _ _
  rw [within.own_eq] at keys
  exact ⟨confinedAt_of_within within rfl rfl, fun _ _ => ⟨w.records, hp, keys⟩⟩

/-! ## Walks -/

section

variable {records : Collection} {limit : σ → Nat} {visit : List Record → σ → Action collectionBackend σ}

/-- The keys of an application that a cursor has not passed. -/
def keysBehind (app : String) (records : Collection) (cursor : Option String) : List String :=
  (keysOf app records).filter (isAfter cursor)

/-- A cursor that moves to a key behind it leaves fewer keys behind it. -/
theorem length_keysBehind_lt {cursor : Option String} {key : String} {new : Collection}
    (hkey : key ∈ keysOf app records) (hcursor : isAfter cursor key = true)
    (hnew : (keysOf app new).Sublist (keysOf app records)) :
    (keysBehind app new (some key)).length < (keysBehind app records cursor).length := by
  have further : ∀ k, isAfter (some key) k = true → isAfter cursor k = true := by
    intro k hk
    cases cursor with
    | none => rfl
    | some c => exact isAfter_some.2 (String.lt_trans (isAfter_some.1 hcursor) (isAfter_some.1 hk))
  have passed : isAfter (some key) key ≠ true := fun h => String.lt_irrefl _ (isAfter_some.1 h)
  have fewer : (keysBehind app records (some key)).length < (keysBehind app records cursor).length := by
    have both : keysBehind app records (some key) =
        (keysBehind app records cursor).filter (isAfter (some key)) := by
      rw [keysBehind, keysBehind, List.filter_filter]
      refine List.filter_congr fun k _ => ?_
      cases hk : isAfter (some key) k with
      | false => rfl
      | true => rw [further k hk]; rfl
    rw [both]
    exact List.length_filter_lt_length_iff_exists.2
      ⟨key, List.mem_filter.2 ⟨hkey, hcursor⟩, passed⟩
  exact Nat.lt_of_le_of_lt (hnew.filter _).length_le fewer

theorem mem_keysOf {r : Record} (h : records.WellFormed) (hr : records.Stores r)
    (happ : r.appId = app) : r.id ∈ keysOf app records := by
  have found : Keyed.get? r.id (records.ofApp app) = some r := by
    rwa [get?_ofApp h (writable_of_stores h hr happ).isOpen]
  exact List.mem_map_of_mem ((Keyed.mem_iff_get? (h.ofApp app).sorted).2 found)

theorem advances_walkFrom (hvisit : ∀ page acc, (visit page acc).Advances) :
    ∀ (fuel : Nat) (cursor : Option String) (acc : σ),
      Action.Advances (store.walkFrom base limit visit fuel cursor acc)
  | 0, _, acc => advances_pure acc
  | fuel + 1, cursor, acc => by
    rw [walkFrom]
    refine advances_ite (advances_pure acc) (Advances.bind (advances_of_ids_eq fun _ => rfl)
      fun page _ => ?_)
    cases page.getLast? with
    | none => exact advances_pure acc
    | some last =>
      exact (hvisit page acc).bind fun next _ =>
        advances_ite (advances_pure next) (advances_walkFrom hvisit fuel _ next)

/-- A page of records of an application is the same if there are no others. -/
theorem exists_page_seenBy (hw : w.records.WellFormed) (hbase : base.IsWithin app)
    (cursor : Option String) (limit : Nat) :
    ∃ page, (store.page base cursor limit).result w = (.ok page, w) ∧
      (store.page base cursor limit).result (w.seenBy app) = (.ok page, w.seenBy app) ∧
      ∀ r ∈ page, w.records.Stores r ∧ base.holds r = true ∧ isAfter cursor r.id = true := by
  have same : passing (fun r => base.holds r && isAfter cursor r.id) (w.seenBy app).records =
      passing (fun r => base.holds r && isAfter cursor r.id) w.records :=
    passing_ofApp fun r _ hr => hbase r ((Bool.and_eq_true _ _).mp hr).1
  have alone := store.result_page (w := w.seenBy app) (hw.ofApp app) base cursor limit
  rw [same] at alone
  refine ⟨_, store.result_page hw base cursor limit, alone, fun r hr => ?_⟩
  obtain ⟨hvalue, hholds⟩ := List.mem_filter.1 (List.mem_of_mem_take hr)
  exact ⟨hw.mem_values_iff.1 hvalue, (Bool.and_eq_true _ _).mp hholds⟩

/-- With pages enough for the keys behind the cursor a walk is confined, whatever bound on the number
of pages it has on the records of the application alone. -/
theorem confinedAt_walkFrom (hbase : base.IsWithin app)
    (hvisit : ∀ page acc keys, Confined app
      (fun records => (∀ r ∈ page, records.Stores r ∧ base.holds r = true) ∧
        keysOf app records = keys)
      (visit page acc) fun _ records => (keysOf app records).Sublist keys) :
    ∀ (fuel fuel' : Nat) (cursor : Option String) (acc : σ) (w : World collectionBackend),
      w.Separate app ((store.walkFrom base limit visit fuel cursor acc).result w).2.ids →
      (keysBehind app w.records cursor).length < fuel →
      (keysBehind app w.records cursor).length < fuel' →
      ConfinedAt app (store.walkFrom base limit visit fuel cursor acc)
        (store.walkFrom base limit visit fuel' cursor acc) w := by
  -- The two walks go page by page together, each with a bound of its own. A full page leaves fewer
  -- keys behind the cursor, so that both bounds suffice for what is left.
  intro fuel
  induction fuel with
  | zero => exact fun _ _ _ _ _ h => absurd h (Nat.not_lt_zero _)
  | succ fuel ih =>
    rintro (_ | fuel') cursor acc w hw hfuel hfuel'
    · exact absurd hfuel' (Nat.not_lt_zero _)
    rw [walkFrom] at hw
    rw [walkFrom, walkFrom]
    by_cases hlimit : limit acc = 0
    · rw [if_pos hlimit, if_pos hlimit]
      exact .of_result hw.wellFormed rfl rfl
    rw [if_neg hlimit] at hw
    rw [if_neg hlimit, if_neg hlimit]
    obtain ⟨page, shown, alone, selected⟩ :=
      store.exists_page_seenBy hw.wellFormed hbase cursor (limit acc)
    rw [Effect.result_bind_ok shown] at hw
    refine (ConfinedAt.of_result hw.wellFormed shown alone).bind fun found hfound => ?_
    rw [shown] at hfound ⊢
    cases hfound
    cases hlast : page.getLast? with
    | none => exact .of_result hw.wellFormed rfl rfl
    | some last =>
      rw [hlast] at hw
      dsimp only at hw
      have advances : ∀ next, (visit page acc).Returns next → Action.Advances
          (if page.length < limit acc then pure next
            else store.walkFrom base limit visit fuel (some last.id) next) := fun next _ =>
        advances_ite (advances_pure next) (store.advances_walkFrom
          (fun page acc => (hvisit page acc []).advances) fuel _ next)
      obtain ⟨hstored, hholds, hafter⟩ := selected last (List.mem_of_getLast? hlast)
      obtain ⟨visits, keys⟩ := (hvisit page acc (keysOf app w.records)).confinedAt w
        (hw.of_bind advances) ⟨fun r hr => ⟨(selected r hr).1, (selected r hr).2.1⟩, rfl⟩
      refine visits.bind fun next hnext => ?_
      have left := hw.after_bind (hvisit page acc []).advances visits hnext
      by_cases hfull : page.length < limit acc
      · rw [if_pos hfull, if_pos hfull]
        exact .of_result visits.wellFormed rfl rfl
      rw [if_neg hfull] at left
      rw [if_neg hfull, if_neg hfull]
      have fewer := length_keysBehind_lt
        (mem_keysOf hw.wellFormed hstored (hbase last hholds)) hafter (keys next hnext)
      exact ih fuel' (some last.id) next _ left (by omega) (by omega)

theorem confined_walk (hbase : base.IsWithin app)
    (hvisit : ∀ page acc keys, Confined app
      (fun records => (∀ r ∈ page, records.Stores r ∧ base.holds r = true) ∧
        keysOf app records = keys)
      (visit page acc) fun _ records => (keysOf app records).Sublist keys) (start : σ) :
    Confined app p (store.walk base limit visit start) fun _ _ => True := by
  have advances : ∀ n, Action.Advances (store.walkFrom base limit visit n none start) := fun n =>
    store.advances_walkFrom (fun page acc => (hvisit page acc []).advances) n none start
  refine ⟨Advances.bind (advances_of_ids_eq fun _ => rfl) fun size _ => advances (size + 1),
    fun w hw _ => ?_⟩
  have enough : ∀ records : Collection, (keysBehind app records none).length < records.length + 1 := by
    intro records
    have selected : (keysOf app records).length ≤ records.length := by
      rw [keysOf, Keyed.keys, List.length_map]
      exact List.length_filter_le _ _
    exact Nat.lt_succ_of_le (Nat.le_trans (List.length_filter_le _ _) selected)
  have own := enough (w.records.ofApp app)
  rw [keysBehind, keysOf, ofApp_ofApp] at own
  have walked : ConfinedAt app
      (store.walkFrom base limit visit (w.records.length + 1) none start)
      (store.walkFrom base limit visit ((w.records.ofApp app).length + 1) none start) w :=
    store.confinedAt_walkFrom hbase hvisit _ _ none start w hw (enough w.records) own
  exact ⟨⟨walked.result_seenBy, walked.wellFormed, walked.others_eq⟩, fun _ _ => trivial⟩

end

end Store

end RecordStore
