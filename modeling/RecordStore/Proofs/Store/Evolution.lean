import RecordStore.Proofs.Backend.Evolution
import RecordStore.Proofs.Store.Walk

/-!
# What operations uphold

`Evolution.Upholds` says of an operation that it keeps the records of a world well formed and lets
them evolve in a given way only, whether it succeeds or fails. There is a rule for each way to build
operations, and for each basic operation of a store.
-/

namespace RecordStore

open Collection

/-- A way in which collections may evolve, step by step. -/
structure Evolution where
  rel : Collection → Collection → Prop
  refl : ∀ records, rel records records
  trans : ∀ {old middle new}, rel old middle → rel middle new → rel old new

namespace Evolution

/-- Anything may happen. -/
def any : Evolution := ⟨fun _ _ => True, fun _ => trivial, fun _ _ => trivial⟩

/-- Everything is kept. -/
def kept : Evolution := ⟨Kept, Kept.refl, Kept.trans⟩

/-- Only records of a kind may be removed. -/
def thinned (lost : Record → Prop) : Evolution := ⟨Thinned lost, Thinned.refl, Thinned.trans⟩

variable {α β σ : Type}

/-- On well-formed records with a property an operation lets the records evolve in a given way, and
what it returns has a property. -/
def Upholds (R : Evolution) (p : Collection → Prop) (action : Action collectionBackend α)
    (q : α → Collection → Prop) : Prop :=
  ∀ w : World collectionBackend, w.records.WellFormed → p w.records →
    (action.result w).2.records.WellFormed ∧
    R.rel w.records (action.result w).2.records ∧
    ∀ a, (action.result w).1 = .ok a → q a (action.result w).2.records

/-- Whatever the records are, an operation lets them evolve in a given way. -/
def Admits (R : Evolution) (action : Action collectionBackend α) : Prop :=
  R.Upholds (fun _ => True) action fun _ _ => True

variable {R : Evolution} {p : Collection → Prop} {q : α → Collection → Prop}
  {s : β → Collection → Prop} {action : Action collectionBackend α}

/-! ## Rules -/

theorem Upholds.any (h : R.Upholds p action q) : Evolution.any.Upholds p action q :=
  fun w hw hp => ⟨(h w hw hp).1, trivial, (h w hw hp).2.2⟩

theorem Upholds.weaken {p' : Collection → Prop} {q' : α → Collection → Prop}
    (h : R.Upholds p action q) (hp : ∀ records, p' records → p records)
    (hq : ∀ a records, q a records → q' a records) : R.Upholds p' action q' := by
  intro w hw hp'
  obtain ⟨wellFormed, evolves, returns⟩ := h w hw (hp _ hp')
  exact ⟨wellFormed, evolves, fun a ha => hq _ _ (returns a ha)⟩

theorem upholds_pure {a : α} (h : ∀ records, p records → q a records) :
    R.Upholds p (pure a) q := by
  intro w hw hp
  refine ⟨hw, R.refl _, fun b hb => ?_⟩
  cases hb
  exact h _ hp

theorem Upholds.bind {f : α → Action collectionBackend β} (h : R.Upholds p action q)
    (hf : ∀ a, R.Upholds (q a) (f a) s) : R.Upholds p (action >>= f) s := by
  intro w hw hp
  obtain ⟨wellFormed, evolves, returns⟩ := h w hw hp
  rw [Effect.result_bind]
  cases hresult : action.result w with
  | mk outcome w' =>
    rw [hresult] at wellFormed evolves returns
    cases outcome with
    | error e => exact ⟨wellFormed, evolves, fun b hb => by cases hb⟩
    | ok a =>
      obtain ⟨wellFormed', evolves', returns'⟩ := hf a w' wellFormed (returns a rfl)
      exact ⟨wellFormed', R.trans evolves evolves', returns'⟩

/-- What does not concern the records can be assumed once and for all. -/
theorem upholds_assuming {fact : Prop} (h : fact → R.Upholds p action q) :
    R.Upholds (fun records => p records ∧ fact) action q :=
  fun w hw hp => h hp.2 w hw hp.1

theorem Admits.bind {f : α → Action collectionBackend β} (h : R.Admits action)
    (hf : ∀ a, R.Admits (f a)) : R.Admits (action >>= f) := Upholds.bind h hf

theorem admits_pure (a : α) : R.Admits (pure a) := upholds_pure fun _ => id

theorem Upholds.admits (h : R.Upholds (fun _ => True) action q) : R.Admits action :=
  h.weaken (fun _ => id) fun _ _ _ => trivial

theorem upholds_foldlM {f : σ → α → Action collectionBackend σ} {t : σ → Collection → Prop} :
    ∀ (items : List α), (∀ acc, ∀ a ∈ items, R.Upholds (t acc) (f acc a) t) → ∀ acc : σ,
      R.Upholds (t acc) (items.foldlM f acc) t
  | [], _, acc => upholds_pure fun _ => id
  | a :: rest, h, acc => by
    rw [List.foldlM_cons]
    exact (h acc a List.mem_cons_self).bind fun next =>
      upholds_foldlM rest (fun acc b hb => h acc b (List.mem_cons_of_mem _ hb)) next

theorem upholds_mapM {f : α → Action collectionBackend β} {t : β → Prop}
    (h : ∀ a, R.Upholds p (f a) fun b records => p records ∧ t b) :
    ∀ items : List α, R.Upholds p (items.mapM f) fun results records =>
      p records ∧ ∀ b ∈ results, t b
  | [] => upholds_pure fun _ hp => ⟨hp, by simp⟩
  | a :: rest => by
    rw [List.mapM_cons]
    refine (h a).bind fun b => upholds_assuming fun hb => ?_
    refine (upholds_mapM h rest).bind fun results => ?_
    refine upholds_pure fun records hp => ⟨hp.1, fun c hc => ?_⟩
    rcases List.mem_cons.1 hc with rfl | hc
    · exact hb
    · exact hp.2 c hc

theorem upholds_ite {c : Prop} [Decidable c] {other : Action collectionBackend α}
    (h : c → R.Upholds p action q) (hother : ¬ c → R.Upholds p other q) :
    R.Upholds p (if c then action else other) q := by
  split
  · next hc => exact h hc
  · next hc => exact hother hc

/-- An operation that leaves the records as they are upholds everything. -/
theorem upholds_of_unchanged (h : ∀ w, (action.result w).2.records = w.records)
    (hq : ∀ w : World collectionBackend, w.records.WellFormed → p w.records →
      ∀ a, (action.result w).1 = .ok a → q a w.records) : R.Upholds p action q := by
  intro w hw hp
  rw [h w]
  exact ⟨hw, R.refl _, hq w hw hp⟩

theorem upholds_ofExcept (outcome : Except StoreError α) :
    R.Upholds p (Effect.ofExcept outcome) fun a records => p records ∧ outcome = .ok a :=
  upholds_of_unchanged (fun _ => rfl) fun _ _ hp _ ha => ⟨hp, ha⟩

theorem upholds_now : R.Upholds p Action.now fun _ => p :=
  upholds_of_unchanged (fun _ => rfl) fun _ _ hp _ _ => hp

theorem upholds_freshId : R.Upholds p Action.freshId fun _ => p :=
  upholds_of_unchanged (fun _ => rfl) fun _ _ hp _ _ => hp

/-- The catalog does not touch the records. -/
theorem upholds_catalog (effect : Effect CatalogMap α) :
    R.Upholds p (Action.onStorage (B := collectionBackend) (effect.on Memory.fieldsPart))
      fun _ => p :=
  upholds_of_unchanged (fun _ => rfl) fun _ _ hp _ _ => hp

end Evolution

/-! ## Clauses of live records -/

/-- Only live records satisfy the clause. -/
def Clause.SelectsLive (clause : Clause) : Prop :=
  ∀ r, clause.holds r = true → r.isDeleted = false

theorem Scope.selectsLive_clause (scope : Scope) : (scope.clause false).SelectsLive := by
  intro r hr
  rw [Scope.holds_clause, Bool.and_eq_true, Bool.and_eq_true, Bool.false_or, Bool.not_eq_true'] at hr
  exact hr.2.2

theorem Clause.SelectsLive.all_cons {clause : Clause} (h : clause.SelectsLive)
    (others : List Clause) : (Clause.all (clause :: others)).SelectsLive := by
  intro r hr
  rw [Clause.holds_all, List.all_cons, Bool.and_eq_true] at hr
  exact h r hr.1

/-! ## Basic operations -/

namespace Store

open Evolution

variable {R : Evolution} {p : Collection → Prop} (store : Store collectionBackend)

/-- What is found is stored and satisfies the clause. -/
theorem upholds_find (clause : Clause) (keys : List SortKey) (slice : Option Slice) :
    R.Upholds p (store.find clause keys slice) fun found records =>
      p records ∧ ∀ r ∈ found, records.Stores r ∧ clause.holds r = true := by
  refine upholds_of_unchanged (fun _ => rfl) fun w hw hp found hfound => ⟨hp, fun r hr => ?_⟩
  obtain ⟨records, hrecords, hstored⟩ :=
    find_document clause (SortKey.documentOrder keys) slice w.records
  rw [result_find, hrecords] at hfound
  cases hfound
  exact ⟨hw.mem_values_iff.1 (hstored r hr).1, (hstored r hr).2⟩

theorem upholds_countClause (clause : Clause) :
    R.Upholds p (store.countClause clause) fun _ => p :=
  upholds_of_unchanged (fun _ => rfl) fun _ _ hp _ _ => hp

theorem upholds_first? (clause : Clause) :
    R.Upholds p (store.first? clause) fun found records =>
      p records ∧ ∀ r ∈ found, records.Stores r ∧ clause.holds r = true := by
  refine (store.upholds_find clause _ _).bind fun found => upholds_pure fun records hp => ?_
  exact ⟨hp.1, fun r hr => hp.2 r (List.mem_of_mem_head? hr)⟩

/-- The clause of a query selects live records unless deleted ones are asked for. -/
theorem upholds_queryClause (scope : Scope) (query : Query) (includeDeleted : Bool) :
    R.Upholds p (queryClause (B := collectionBackend) scope query includeDeleted)
      fun clause records => p records ∧ (includeDeleted = false → clause.SelectsLive) := by
  refine upholds_now.bind fun now => (upholds_ofExcept _).weaken (fun _ => id) ?_
  rintro clause records ⟨hp, hclause⟩
  refine ⟨hp, ?_⟩
  rintro rfl
  obtain ⟨user, -, huser⟩ := bind_eq_ok.1 hclause
  cases huser
  exact (scope.selectsLive_clause).all_cons [user]

theorem upholds_insert (batch : List Record)
    (h : ∀ records, p records → ∀ r ∈ batch, r.MarksAgree) :
    kept.Upholds p (store.insert batch) fun _ new =>
      ∃ old, p old ∧ ∀ r, old.Stores r → new.Stores r := by
  intro w hw hp
  rw [result_insert]
  split
  · next records hinsert =>
    exact ⟨hw.insert hinsert, kept_insert (h _ hp) hinsert, fun _ _ =>
      ⟨w.records, hp, fun r hr => get?_of_insert hinsert hr⟩⟩
  · exact ⟨hw, Kept.refl _, fun _ h => by cases h⟩

theorem admits_insert (batch : List Record) : any.Admits (store.insert batch) := by
  intro w hw _
  rw [result_insert]
  split
  · next records hinsert => exact ⟨hw.insert hinsert, trivial, fun _ _ => trivial⟩
  · exact ⟨hw, trivial, fun _ _ => trivial⟩

theorem upholds_replace (replacements : List Record)
    (h : ∀ records, p records → ∀ s ∈ replacements,
      ∃ r, records.Stores r ∧ r.isDeleted = false ∧ r.Rewrites s) :
    kept.Upholds p (store.replace replacements) fun _ _ => True := by
  intro w hw hp
  rw [result_replace]
  refine ⟨hw.replace replacements, kept_replace fun s hs => ?_, fun _ _ => trivial⟩
  obtain ⟨r, hr, hlive, hrewrites⟩ := h _ hp s hs
  exact ⟨r, hrewrites.id_eq ▸ hr, hlive, hrewrites⟩

theorem admits_replace (replacements : List Record) :
    any.Admits (store.replace replacements) := by
  intro w hw _
  rw [result_replace]
  exact ⟨hw.replace replacements, trivial, fun _ _ => trivial⟩

theorem upholds_markDeleted (clause : Clause) (mark : DeletionMark)
    (h : ∀ records, p records → ∀ r, records.Stores r → clause.holds r = true →
      r.isDeleted = false) :
    kept.Upholds p (store.markDeleted clause mark) fun _ _ => True := by
  intro w hw hp
  rw [result_markDeleted, markDeleted_document]
  refine ⟨hw.mapValues (changeIf_id _ fun _ => rfl),
    kept_markDeleted mark fun k r hr hholds => ?_, fun _ _ => trivial⟩
  obtain rfl := hw.id_of_get? hr
  exact h _ hp r hr hholds

theorem upholds_remove {lost : Record → Prop} (ids : List String)
    (h : ∀ records, p records → ∀ r, records.Stores r → r.id ∈ ids → lost r) :
    (thinned lost).Upholds p (store.remove ids) fun _ _ => True := by
  intro w hw hp
  rw [result_remove]
  refine ⟨hw.remove ids, thinned_remove hw fun id hid r hr => ?_, fun _ _ => trivial⟩
  obtain rfl := hw.id_of_get? hr
  exact h _ hp r hr hid

/-! ## Walks -/

section

variable {σ : Type} {base : Clause} {limit : σ → Nat}
  {visit : List Record → σ → Action collectionBackend σ}

/-- What a page shows is stored and satisfies the clause. -/
theorem upholds_page (cursor : Option String) (n : Nat) :
    R.Upholds p (store.page base cursor n) fun page records =>
      p records ∧ ∀ r ∈ page, records.Stores r ∧ base.holds r = true := by
  obtain ⟨clause, hpage, holds⟩ := store.exists_page_clause base cursor n
  rw [hpage]
  refine (store.upholds_find clause _ _).weaken (fun _ => id) fun page records hp => ?_
  refine ⟨hp.1, fun r hr => ⟨(hp.2 r hr).1, ?_⟩⟩
  have both := (hp.2 r hr).2
  rw [holds, Bool.and_eq_true] at both
  exact both.1

theorem upholds_walkFrom
    (hvisit : ∀ page acc, R.Upholds
      (fun records => ∀ r ∈ page, records.Stores r ∧ base.holds r = true)
      (visit page acc) fun _ _ => True) :
    ∀ (fuel : Nat) (cursor : Option String) (acc : σ),
      R.Upholds (fun _ => True) (store.walkFrom base limit visit fuel cursor acc)
        fun _ _ => True := by
  intro fuel
  induction fuel with
  | zero => exact fun _ _ => upholds_pure fun _ => id
  | succ fuel ih =>
    intro cursor acc
    rw [walkFrom]
    refine upholds_ite (fun _ => upholds_pure fun _ => id) fun _ => ?_
    refine (store.upholds_page cursor (limit acc)).bind fun page => ?_
    cases page.getLast? with
    | none => exact upholds_pure fun _ _ => trivial
    | some last =>
      refine ((hvisit page acc).weaken (fun _ hp => hp.2) fun _ _ => id).bind fun next => ?_
      exact upholds_ite (fun _ => upholds_pure fun _ => id) fun _ => ih _ _

theorem upholds_walk
    (hvisit : ∀ page acc, R.Upholds
      (fun records => ∀ r ∈ page, records.Stores r ∧ base.holds r = true)
      (visit page acc) fun _ _ => True) (start : σ) :
    R.Upholds p (store.walk base limit visit start) fun _ _ => True := by
  have size : R.Upholds p (Effect.reading fun w : World collectionBackend =>
      .ok (collectionBackend.size store.handle w.storage)) fun _ _ => True :=
    upholds_of_unchanged (fun _ => rfl) fun _ _ _ _ _ => trivial
  exact size.bind fun n => store.upholds_walkFrom hvisit (n + 1) none start

end

end Store

end RecordStore
