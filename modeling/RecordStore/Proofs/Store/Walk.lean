import RecordStore.Proofs.Store

/-!
# Walking through a collection

A walk splits the records at its cursor: those up to the cursor are final, and those after it are as
they were at the start (`Collection.SplitAt`). Each page therefore shows what satisfied the clause
at the start, whatever the visits have done to the records before (`SplitAt.passing`), and the walk
ends with every record that satisfied the clause visited once, or with a limit of zero
(`Store.result_walk_rewriting`, and `Store.result_walk` for visits that replace records). Visits
that leave the records alone may do anything else to the world (`Store.result_walk_of_kept`). The
bound on the steps of a walk is never used up (`Store.walk_eq_walkFrom`).
-/

namespace RecordStore

namespace Collection

/-- Whether an id comes after a cursor; without a cursor all do. -/
def isAfter (cursor : Option String) (id : String) : Bool :=
  cursor.all fun c => compare id c == .gt

theorem isAfter_some {c id : String} : isAfter (some c) id = true ↔ c < id := by
  rw [isAfter, Option.all_some, beq_iff_eq, compare_eq_gt_iff]

/-! ## Parts of a collection -/

variable {p : Record → Bool} {f : Record → Record} {before after entries : Collection}

theorem passing_append (p : Record → Bool) (before after : Collection) :
    passing p (before ++ after) = passing p before ++ passing p after := by
  rw [passing, Keyed.values, List.map_append, List.filter_append]
  rfl

theorem passing_congr {p q : Record → Bool} (h : ∀ r ∈ Keyed.values entries, p r = q r) :
    passing p entries = passing q entries := List.filter_congr h

theorem length_passing_le (p : Record → Bool) (entries : Collection) :
    (passing p entries).length ≤ entries.length := by
  have shorter : (passing p entries).length ≤ (Keyed.values entries).length :=
    List.length_filter_le _ _
  rwa [Keyed.values, List.length_map] at shorter

/-- A collection can be cut behind any record that passes a test. -/
theorem exists_cut {page rest : List Record} {last : Record} :
    ∀ {entries : Collection}, passing p entries = page ++ last :: rest →
      ∃ visited k others, entries = visited ++ (k, last) :: others ∧ p last = true ∧
        passing p visited = page ∧ passing p others = rest := by
  intro entries
  induction entries generalizing page with
  | nil =>
    intro h
    exact absurd h.symm (by simp [passing, Keyed.values])
  | cons entry entries ih =>
    obtain ⟨k, r⟩ := entry
    intro h
    rw [passing_cons] at h
    by_cases hr : p r = true
    · rw [if_pos hr] at h
      cases page with
      | nil =>
        obtain ⟨rfl, hrest⟩ := List.cons.inj h
        exact ⟨[], k, entries, rfl, hr, rfl, hrest⟩
      | cons first page =>
        obtain ⟨rfl, hrest⟩ := List.cons.inj h
        obtain ⟨visited, j, others, rfl, hlast, hpage, hothers⟩ := ih hrest
        refine ⟨(k, r) :: visited, j, others, rfl, hlast, ?_, hothers⟩
        rw [passing_cons, if_pos hr, hpage]
    · rw [if_neg hr] at h
      obtain ⟨visited, j, others, rfl, hlast, hpage, hothers⟩ := ih h
      refine ⟨(k, r) :: visited, j, others, rfl, hlast, ?_, hothers⟩
      rw [passing_cons, if_neg hr, hpage]

/-- Unless nothing passes a test, a first page of what passes it comes from a part of the collection
that ends with the last record of the page. A page that is not full leaves nothing behind. -/
theorem exists_page (p : Record → Bool) (entries : Collection) {limit : Nat} (hlimit : limit ≠ 0) :
    passing p entries = [] ∨ ∃ visited k last others,
      entries = (visited ++ [(k, last)]) ++ others ∧
      (passing p entries).take limit = passing p (visited ++ [(k, last)]) ∧
      (passing p (visited ++ [(k, last)])).getLast? = some last ∧
      ((passing p (visited ++ [(k, last)])).length < limit → passing p others = []) := by
  have parts := List.take_append_drop limit (passing p entries)
  have last_page : ((passing p entries).take limit).length < limit →
      (passing p entries).drop limit = [] := by
    intro h
    rw [List.length_take] at h
    exact List.drop_eq_nil_of_le (by omega)
  generalize (passing p entries).take limit = page,
    (passing p entries).drop limit = rest at parts last_page
  cases hlast : page.getLast? with
  | none =>
    obtain rfl : page = [] := List.getLast?_eq_none_iff.1 hlast
    left
    rw [← parts, last_page (Nat.pos_of_ne_zero hlimit), List.append_nil]
  | some last =>
    obtain ⟨init, rfl⟩ := List.getLast?_eq_some_iff.1 hlast
    have cut : passing p entries = init ++ last :: rest := by
      rw [← parts, List.append_assoc]
      rfl
    obtain ⟨visited, k, others, rfl, holds, hinit, hrest⟩ := exists_cut cut
    have hpage : passing p (visited ++ [(k, last)]) = init ++ [last] := by
      rw [passing_append, hinit, passing_cons, if_pos holds]
      rfl
    right
    refine ⟨visited, k, last, others, by simp, hpage.symm, ?_, ?_⟩
    · rw [hpage, hlast]
    · rw [hpage, hrest]
      exact last_page

theorem length_passing_lt {p : Record → Bool} {visited : Collection} (h : passing p visited ≠ [])
    (others : Collection) :
    (passing p others).length < (passing p (visited ++ others)).length := by
  have pos := List.length_pos_iff.2 h
  rw [passing_append, List.length_append]
  omega

/-- A change of collections that changes or drops each entry by itself, without changing keys. -/
structure EntryWise (rewrite : Collection → Collection) : Prop where
  append : ∀ entries others, rewrite (entries ++ others) = rewrite entries ++ rewrite others
  keys : ∀ entries, (Keyed.keys (rewrite entries)).Sublist (Keyed.keys entries)
  keyed : ∀ entries, (∀ entry ∈ entries, entry.1 = entry.2.id) →
    ∀ entry ∈ rewrite entries, entry.1 = entry.2.id

theorem entryWise_mapValues (hf : ∀ r, (f r).id = r.id) : EntryWise (Keyed.mapValues f) where
  append entries others := Keyed.mapValues_append f entries others
  keys entries := by simp only [Keyed.keys_mapValues, List.Sublist.refl]
  keyed entries h entry hentry := by
    obtain ⟨old, hold, rfl⟩ := List.mem_map.1 hentry
    rw [hf]
    exact h old hold

theorem entryWise_filter (q : Record → Bool) : EntryWise (List.filter fun entry => q entry.2) where
  append _ _ := List.filter_append _ _
  keys _ := List.filter_sublist.map _
  keyed _ h entry hentry := h entry (List.mem_filter.1 hentry).1

theorem EntryWise.nil {rewrite : Collection → Collection} (h : EntryWise rewrite) :
    rewrite [] = [] :=
  List.map_eq_nil_iff.1 (List.sublist_nil.1 (h.keys []))

theorem EntryWise.wellFormed {rewrite : Collection → Collection} (hr : EntryWise rewrite)
    {middle : Collection} (h : (before ++ (middle ++ after)).WellFormed) :
    (before ++ (rewrite middle ++ after)).WellFormed := by
  refine ⟨?_, fun entry hentry => ?_⟩
  · have sorted : Keyed.Sorted (before ++ (middle ++ after)) := h.sorted
    rw [Keyed.Sorted, Keyed.keys_append, Keyed.keys_append] at sorted ⊢
    exact sorted.sublist (.append_left (.append_right (hr.keys middle) _) _)
  · rcases List.mem_append.1 hentry with hentry | hentry
    · exact h.keyed entry (List.mem_append_left _ hentry)
    rcases List.mem_append.1 hentry with hentry | hentry
    · exact hr.keyed middle (fun old hold => h.keyed old
        (List.mem_append_right _ (List.mem_append_left _ hold))) entry hentry
    · exact h.keyed entry (List.mem_append_right _ (List.mem_append_right _ hentry))

/-! ## Cursors -/

/-- A cursor splits a collection into the records up to it and those after it. -/
structure SplitAt (cursor : Option String) (before after : Collection) : Prop where
  wellFormed : (before ++ after).WellFormed
  upTo : ∀ k ∈ Keyed.keys before, isAfter cursor k = false
  behind : ∀ k ∈ Keyed.keys after, isAfter cursor k = true

variable {cursor : Option String}

theorem SplitAt.start (h : entries.WellFormed) : SplitAt none [] entries :=
  ⟨h, fun _ hk => absurd hk List.not_mem_nil, fun _ _ => rfl⟩

/-- What comes after the cursor and passes a test is what passes it behind the cursor. -/
theorem SplitAt.passing (h : SplitAt cursor before after) (p : Record → Bool) :
    passing (fun r => p r && isAfter cursor r.id) (before ++ after) = passing p after := by
  have none_before : Collection.passing (fun r => p r && isAfter cursor r.id) before = [] := by
    refine List.filter_eq_nil_iff.2 fun r hr => ?_
    obtain ⟨entry, hentry, rfl⟩ := List.mem_map.1 hr
    rw [← h.wellFormed.keyed entry (List.mem_append_left _ hentry),
      h.upTo _ (List.mem_map_of_mem hentry), Bool.and_false]
    exact Bool.false_ne_true
  rw [passing_append, none_before, List.nil_append]
  refine passing_congr fun r hr => ?_
  obtain ⟨entry, hentry, rfl⟩ := List.mem_map.1 hr
  rw [← h.wellFormed.keyed entry (List.mem_append_right _ hentry),
    h.behind _ (List.mem_map_of_mem hentry), Bool.and_true]

/-- The cursor moves to a record behind it, and only keys from up to there are left there. -/
theorem SplitAt.advance_left {visited left others : Collection} {k : String} {last : Record}
    (h : SplitAt cursor before ((visited ++ [(k, last)]) ++ others))
    (hleft : (before ++ (left ++ others)).WellFormed)
    (hkeys : (Keyed.keys left).Sublist (Keyed.keys (visited ++ [(k, last)]))) :
    SplitAt (some last.id) (before ++ left) others := by
  have key : k = last.id := h.wellFormed.keyed (k, last) (by simp)
  have sorted : Keyed.Sorted (before ++ ((visited ++ [(k, last)]) ++ others)) := h.wellFormed.sorted
  rw [List.append_assoc visited, Keyed.Sorted, Keyed.keys_append, List.pairwise_append] at sorted
  obtain ⟨-, sorted, before_lt⟩ := sorted
  rw [Keyed.keys_append, List.pairwise_append] at sorted
  obtain ⟨-, sorted, visited_lt⟩ := sorted
  have above : ∀ j ∈ Keyed.keys others, k < j := fun j hj => List.rel_of_pairwise_cons sorted hj
  refine ⟨?_, fun j hj => ?_, fun j hj => ?_⟩
  · rwa [List.append_assoc]
  · rw [Keyed.keys_append] at hj
    have up_to : j < k ∨ j = k := by
      rcases List.mem_append.1 hj with hj | hj
      · refine Or.inl (before_lt j hj k ?_)
        rw [Keyed.keys_append]
        exact List.mem_append_right _ List.mem_cons_self
      have hj := hkeys.subset hj
      rw [Keyed.keys_append] at hj
      rcases List.mem_append.1 hj with hj | hj
      · exact Or.inl (visited_lt j hj k List.mem_cons_self)
      · exact Or.inr (List.mem_singleton.1 hj)
    rw [Bool.eq_false_iff, ne_eq, isAfter_some, ← key]
    rcases up_to with hlt | rfl
    · exact String.lt_asymm hlt
    · exact String.lt_irrefl j
  · rw [isAfter_some, ← key]
    exact above j hj

/-- The cursor moves to a record behind it, and records up to there change or go. -/
theorem SplitAt.advance {visited others : Collection} {k : String} {last : Record}
    {rewrite : Collection → Collection}
    (h : SplitAt cursor before ((visited ++ [(k, last)]) ++ others)) (hr : EntryWise rewrite) :
    SplitAt (some last.id) (before ++ rewrite (visited ++ [(k, last)])) others :=
  h.advance_left (hr.wellFormed h.wellFormed) (hr.keys _)

end Collection

/-! ## Pages -/

namespace Store

open Collection

variable (store : Store collectionBackend)

/-- A page shows what a clause asks for behind its cursor. -/
theorem exists_page_clause (base : Clause) (cursor : Option String) (limit : Nat) :
    ∃ clause, store.page base cursor limit = store.find clause [.byId] (some (.first limit)) ∧
      ∀ r, clause.holds r = (base.holds r && isAfter cursor r.id) := by
  cases cursor with
  | none => exact ⟨base, rfl, fun r => (Bool.and_true _).symm⟩
  | some id =>
    refine ⟨.all [base, .idAfter id], rfl, fun r => ?_⟩
    rw [Clause.holds_all, List.all_cons, List.all_cons, List.all_nil, Bool.and_true]
    rfl

theorem result_page {w : World collectionBackend} (h : w.records.WellFormed) (base : Clause)
    (cursor : Option String) (limit : Nat) :
    (store.page base cursor limit).result w =
      (.ok ((passing (fun r => base.holds r && isAfter cursor r.id) w.records).take limit), w) := by
  obtain ⟨clause, hpage, holds⟩ := store.exists_page_clause base cursor limit
  rw [hpage, result_find, find_byId h, ← funext holds]
  rfl

/-- A page shows what a clause asks for in the part of the records behind the cursor. -/
theorem result_page_behind {w : World collectionBackend} {cursor : Option String}
    {before after : Collection} (h : SplitAt cursor before after) (hw : w.records = before ++ after)
    (base : Clause) (limit : Nat) :
    (store.page base cursor limit).result w =
      (.ok ((passing (fun r => base.holds r) after).take limit), w) := by
  rw [result_page store (hw ▸ h.wellFormed), hw, h.passing]

/-! ## Walks -/

section

variable {σ : Type} (base : Clause) (limit : σ → Nat)
  (visit : List Record → σ → Action collectionBackend σ)

/-- A walk takes at most as many steps as there are records, and one more. -/
theorem result_walk_eq (start : σ) (w : World collectionBackend) :
    (store.walk base limit visit start).result w =
      (store.walkFrom base limit visit (w.records.length + 1) none start).result w := rfl

/-- A step of a walk whose limit is not zero. If no record behind the cursor satisfies the clause,
then the walk ends. Otherwise the step visits those in a first part of the records there, and the
walk goes on behind the last of them, unless the page has not been full. -/
theorem walkFrom_step {cursor : Option String} {before after : Collection} {acc : σ}
    {w : World collectionBackend} (h : SplitAt cursor before after) (hw : w.records = before ++ after)
    (hlimit : limit acc ≠ 0) :
    (passing (fun r => base.holds r) after = [] ∧ ∀ fuel,
      (store.walkFrom base limit visit (fuel + 1) cursor acc).result w = (.ok acc, w)) ∨
    ∃ visited k last others, after = (visited ++ [(k, last)]) ++ others ∧
      ∃ page, passing (fun r => base.holds r) (visited ++ [(k, last)]) = page ∧ page ≠ [] ∧
        page.length ≤ limit acc ∧
        (page.length < limit acc → passing (fun r => base.holds r) others = []) ∧ ∀ fuel,
        (store.walkFrom base limit visit (fuel + 1) cursor acc).result w =
          Effect.result (do
            let next ← visit page acc
            if page.length < limit acc then pure next
            else store.walkFrom base limit visit fuel (some last.id) next) w := by
  have read := store.result_page_behind h hw base (limit acc)
  rcases exists_page (fun r => base.holds r) after hlimit with
    hnone | ⟨visited, k, last, others, rfl, hpage, hlast, hshort⟩
  · refine .inl ⟨hnone, fun fuel => ?_⟩
    rw [walkFrom, if_neg hlimit, Effect.result_bind_ok read, hnone, List.take_nil]
    rfl
  refine .inr ⟨visited, k, last, others, rfl, _, rfl,
    List.ne_nil_of_mem (List.mem_of_getLast? hlast), ?_, hshort, fun fuel => ?_⟩
  · rw [← hpage]
    exact List.length_take_le _ _
  · rw [walkFrom, if_neg hlimit, Effect.result_bind_ok read, hpage]
    simp only [hlast]

/-- Whether visits that succeed leave all records alone that are not on their pages. Those that are
may change or go. -/
def StaysOnPage : Prop :=
  ∀ ⦃w w' : World collectionBackend⦄ ⦃before visited after : Collection⦄ ⦃acc next : σ⦄,
    w.records = before ++ (visited ++ after) → w.records.WellFormed →
    (visit (passing (fun r => base.holds r) visited) acc).result w = (.ok next, w') →
    ∃ left, w'.records = before ++ (left ++ after) ∧ w'.records.WellFormed ∧
      (Keyed.keys left).Sublist (Keyed.keys visited)

variable {base visit}

theorem staysOnPage_of_rewriting {rewrite : World collectionBackend → Collection → Collection}
    (hr : ∀ w, EntryWise (rewrite w))
    (hvisit : ∀ (w : World collectionBackend) before visited after acc,
      (before ++ (visited ++ after)).WellFormed → ∃ next,
        (visit (passing (fun r => base.holds r) visited) acc).result
          (w.withRecords (before ++ (visited ++ after))) =
        (.ok next, w.withRecords (before ++ (rewrite w visited ++ after)))) :
    StaysOnPage base visit := by
  intro w w' before visited after acc next hw h hresult
  have wellFormed : (before ++ (visited ++ after)).WellFormed := hw ▸ h
  obtain ⟨next', hnext⟩ := hvisit w before visited after acc wellFormed
  rw [← hw] at hnext
  change (visit _ acc).result w = _ at hnext
  obtain ⟨-, rfl⟩ := Prod.mk.inj (hnext.symm.trans hresult)
  exact ⟨rewrite w visited, rfl, (hr w).wellFormed wellFormed, (hr w).keys visited⟩

/-- The bound on the steps of a walk does not matter if it is above the number of records that the
walk may still visit. -/
theorem walkFrom_eq_of_lt (hvisit : StaysOnPage base visit) :
    ∀ (fuel fuel' : Nat) {cursor : Option String} {before after : Collection} {acc : σ}
      {w : World collectionBackend}, SplitAt cursor before after → w.records = before ++ after →
      (passing (fun r => base.holds r) after).length < fuel →
      (passing (fun r => base.holds r) after).length < fuel' →
      (store.walkFrom base limit visit fuel cursor acc).result w =
        (store.walkFrom base limit visit fuel' cursor acc).result w := by
  intro fuel
  induction fuel with
  | zero => exact fun _ _ _ _ _ _ _ _ h => absurd h (Nat.not_lt_zero _)
  | succ fuel ih =>
    intro fuel' cursor before after acc w hsplit hw hfuel hfuel'
    obtain ⟨fuel', rfl⟩ := Nat.exists_eq_add_one_of_ne_zero (Nat.ne_zero_of_lt hfuel')
    by_cases hlimit : limit acc = 0
    · rw [walkFrom, walkFrom, if_pos hlimit, if_pos hlimit]
    rcases store.walkFrom_step base limit visit hsplit hw hlimit with
      ⟨-, ends⟩ | ⟨visited, k, last, others, rfl, page, rfl, nonempty, -, -, step⟩
    · rw [ends, ends]
    rw [step, step, Effect.result_bind, Effect.result_bind]
    rcases hresult : (visit (passing (fun r => base.holds r) (visited ++ [(k, last)])) acc).result w
      with ⟨e | next, w'⟩
    · rfl
    dsimp only
    by_cases hshort : (passing (fun r => base.holds r) (visited ++ [(k, last)])).length < limit acc
    · rw [if_pos hshort, if_pos hshort]
    rw [if_neg hshort, if_neg hshort]
    obtain ⟨left, hrecords, wellFormed, hkeys⟩ := hvisit hw (hw ▸ hsplit.wellFormed) hresult
    have fewer := length_passing_lt nonempty others
    have advanced := hsplit.advance_left (hrecords ▸ wellFormed) hkeys
    exact ih fuel' advanced (hrecords.trans (List.append_assoc _ _ _).symm)
      (Nat.lt_of_lt_of_le fewer (Nat.le_of_lt_succ hfuel))
      (Nat.lt_of_lt_of_le fewer (Nat.le_of_lt_succ hfuel'))

/-- A walk never uses up its bound: it does the same with every greater one. -/
theorem walk_eq_walkFrom (hvisit : StaysOnPage base visit) {w : World collectionBackend}
    (h : w.records.WellFormed) (start : σ) {fuel : Nat} (hfuel : w.records.length < fuel) :
    (store.walk base limit visit start).result w =
      (store.walkFrom base limit visit fuel none start).result w := by
  have few := length_passing_le (fun r => base.holds r) w.records
  rw [result_walk_eq]
  exact store.walkFrom_eq_of_lt limit hvisit _ _ (SplitAt.start h) rfl (Nat.lt_succ_of_le few)
    (Nat.lt_of_le_of_lt few hfuel)

end

section

variable {σ : Type} (base : Clause) (limit : σ → Nat)
  {visit : List Record → σ → Action collectionBackend σ} {next : List Record → σ → σ}
  {f : Record → Record} {rewrite : Collection → Collection} {P : List Record → σ → Prop}
  {w : World collectionBackend}

/-- A walk whose visits change or drop records of their pages, and nothing behind them. What has
been accumulated is described by `P` in terms of the records visited so far. -/
theorem result_walkFrom (hr : EntryWise rewrite)
    (hvisit : ∀ before visited after acc, (before ++ (visited ++ after)).WellFormed →
      (visit (passing (fun r => base.holds r) visited) acc).result
          (w.withRecords (before ++ (visited ++ after))) =
        (.ok (next (passing (fun r => base.holds r) visited) acc),
          w.withRecords (before ++ (rewrite visited ++ after))))
    (hnext : ∀ done acc page, P done acc → page.length ≤ limit acc → page ≠ [] →
      P (done ++ page) (next page acc)) :
    ∀ (fuel : Nat) {cursor : Option String} {before after : Collection} {done : List Record}
      {acc : σ}, SplitAt cursor before after → P done acc →
      (passing (fun r => base.holds r) after).length < fuel →
      ∃ visited others final, after = visited ++ others ∧
        (store.walkFrom base limit visit fuel cursor acc).result
            (w.withRecords (before ++ after)) =
          (.ok final, w.withRecords (before ++ (rewrite visited ++ others))) ∧
        P (done ++ passing (fun r => base.holds r) visited) final ∧
        (limit final = 0 ∨ passing (fun r => base.holds r) others = []) := by
  intro fuel
  induction fuel with
  | zero => exact fun _ _ h => absurd h (Nat.not_lt_zero _)
  | succ fuel ih =>
    intro cursor before after done acc hsplit hacc hfuel
    have ended : P (done ++ passing (fun r => base.holds r) []) acc := by
      rwa [passing_nil, List.append_nil]
    by_cases hlimit : limit acc = 0
    · rw [walkFrom, if_pos hlimit]
      exact ⟨[], after, acc, rfl, by rw [hr.nil]; rfl, ended, Or.inl hlimit⟩
    have cases_of_step := store.walkFrom_step base limit visit hsplit
      (w := w.withRecords (before ++ after)) rfl hlimit
    rcases cases_of_step with ⟨hnone, ends⟩ |
      ⟨visited, k, last, others, rfl, page, rfl, nonempty, bounded, hshort, step⟩
    · exact ⟨[], after, acc, rfl, by rw [ends, hr.nil]; rfl, ended, Or.inr hnone⟩
    have hacc := hnext done acc _ hacc bounded nonempty
    rw [step, Effect.result_bind_ok
      (hvisit before (visited ++ [(k, last)]) others acc hsplit.wellFormed)]
    by_cases hfull : (passing (fun r => base.holds r) (visited ++ [(k, last)])).length < limit acc
    · rw [if_pos hfull]
      exact ⟨_, others, _, rfl, rfl, hacc, Or.inr (hshort hfull)⟩
    rw [if_neg hfull]
    have hsplit := hsplit.advance hr
    have hfuel := Nat.lt_of_lt_of_le (length_passing_lt nonempty others) (Nat.le_of_lt_succ hfuel)
    obtain ⟨further, others, final, rfl, hresult, hfinal, hend⟩ := ih hsplit hacc hfuel
    refine ⟨(visited ++ [(k, last)]) ++ further, others, final, ?_, ?_, ?_, hend⟩
    · rw [List.append_assoc _ further]
    · rw [← List.append_assoc before, hresult, hr.append (visited ++ [(k, last)]) further,
        List.append_assoc before, List.append_assoc]
    · rw [passing_append, ← List.append_assoc]
      exact hfinal

variable (visit) in
/-- A walk whose visits change or drop records of their pages ends. What it has visited is a first
part of the records that satisfied the clause at the start, and it has rewritten these and no
others; only a limit of zero leaves some of them. -/
theorem result_walk_rewriting (h : w.records.WellFormed) (hr : EntryWise rewrite)
    (hvisit : ∀ before visited after acc, (before ++ (visited ++ after)).WellFormed →
      (visit (passing (fun r => base.holds r) visited) acc).result
          (w.withRecords (before ++ (visited ++ after))) =
        (.ok (next (passing (fun r => base.holds r) visited) acc),
          w.withRecords (before ++ (rewrite visited ++ after))))
    {start : σ} (hstart : P [] start)
    (hnext : ∀ done acc page, P done acc → page.length ≤ limit acc → page ≠ [] →
      P (done ++ page) (next page acc)) :
    ∃ visited others final, w.records = visited ++ others ∧
      (store.walk base limit visit start).result w =
        (.ok final, w.withRecords (rewrite visited ++ others)) ∧
      P (passing (fun r => base.holds r) visited) final ∧
      (limit final = 0 ∨ passing (fun r => base.holds r) others = []) := by
  rw [result_walk_eq]
  exact store.result_walkFrom base limit hr hvisit hnext (w.records.length + 1) (SplitAt.start h)
    hstart (Nat.lt_succ_of_le (length_passing_le _ _))

end

/-! ## Walks that only read -/

section

variable {σ : Type} (base : Clause) {limit : σ → Nat}
  {visit : List Record → σ → Action collectionBackend σ}
  {P : List Record → σ → World collectionBackend → Prop} {records : Collection}

/-- A walk whose visits leave the records as they are. What the visits accumulate and do to the rest
of the world is described by `P` in terms of the records visited so far. -/
theorem result_walkFrom_of_kept (hlimit : ∀ acc, limit acc ≠ 0)
    (hrecords : ∀ done acc w, P done acc w → w.records = records)
    (hvisit : ∀ done acc w, P done acc w → ∀ page, ∃ next w',
      (visit page acc).result w = (.ok next, w') ∧ P (done ++ page) next w') :
    ∀ (fuel : Nat) {cursor : Option String} {before after : Collection} {done : List Record}
      {acc : σ} {w : World collectionBackend}, records = before ++ after →
      SplitAt cursor before after → P done acc w →
      (passing (fun r => base.holds r) after).length < fuel →
      ∃ final w', (store.walkFrom base limit visit fuel cursor acc).result w = (.ok final, w') ∧
        P (done ++ passing (fun r => base.holds r) after) final w' := by
  intro fuel
  induction fuel with
  | zero => exact fun _ _ _ h => absurd h (Nat.not_lt_zero _)
  | succ fuel ih =>
    intro cursor before after done acc w hparts hsplit hP hfuel
    have hw : w.records = before ++ after := (hrecords done acc w hP).trans hparts
    rcases store.walkFrom_step base limit visit hsplit hw (hlimit acc) with
      ⟨hnone, ends⟩ | ⟨visited, k, last, others, rfl, page, hpage, nonempty, -, hshort, step⟩
    · rw [hnone, List.append_nil]
      exact ⟨acc, w, ends fuel, hP⟩
    obtain ⟨next, w', hresult, hP'⟩ := hvisit done acc w hP page
    rw [step, Effect.result_bind_ok hresult, passing_append _ (visited ++ [(k, last)]), hpage,
      ← List.append_assoc]
    by_cases hfull : page.length < limit acc
    · rw [if_pos hfull, hshort hfull, List.append_nil]
      exact ⟨next, w', rfl, hP'⟩
    rw [if_neg hfull]
    have same : Keyed.mapValues (fun r : Record => r) (visited ++ [(k, last)]) =
        visited ++ [(k, last)] := List.map_id' _
    have hsplit := hsplit.advance (entryWise_mapValues (f := fun r => r) fun _ => rfl)
    rw [same] at hsplit
    have hfuel := Nat.lt_of_lt_of_le (length_passing_lt (hpage ▸ nonempty) others)
      (Nat.le_of_lt_succ hfuel)
    exact ih (by rw [hparts, List.append_assoc before]) hsplit hP' hfuel

/-- A walk whose visits leave the records as they are visits every record that satisfies the clause,
unless its limit is zero. -/
theorem result_walk_of_kept {w : World collectionBackend} (h : w.records.WellFormed)
    (hlimit : ∀ acc, limit acc ≠ 0) (hrecords : ∀ done acc v, P done acc v → v.records = w.records)
    (hvisit : ∀ done acc v, P done acc v → ∀ page, ∃ next v',
      (visit page acc).result v = (.ok next, v') ∧ P (done ++ page) next v')
    {start : σ} (hstart : P [] start w) :
    ∃ final v, (store.walk base limit visit start).result w = (.ok final, v) ∧
      P (passing (fun r => base.holds r) w.records) final v := by
  rw [result_walk_eq]
  exact store.result_walkFrom_of_kept base hlimit hrecords hvisit (w.records.length + 1) rfl
    (SplitAt.start h) hstart (Nat.lt_succ_of_le (length_passing_le _ _))

end

end Store

end RecordStore
