import RecordStore.Proofs.Backend.Evolution

/-!
# The records of an application

The records of an application (`Collection.ofApp`) and those of all others (`Collection.others`)
make up a collection. What is read through a clause that selects records of the application only is
read from the first part. What is written under ids that no other application uses
(`Collection.IsOpen`) changes the first part as it would change it alone, and leaves the second as it
is (`Collection.Within`).
-/

namespace RecordStore

namespace Collection

variable {app id : String} {r : Record} {records new : Collection}

/-- The records of an application. -/
def ofApp (app : String) (records : Collection) : Collection :=
  Keyed.select (fun r => r.appId == app) records

/-- The records of all applications but one. -/
def others (app : String) (records : Collection) : Collection :=
  Keyed.select (fun r => r.appId != app) records

/-- No record of another application has the id. -/
def IsOpen (app : String) (records : Collection) (id : String) : Prop :=
  Keyed.get? id (records.others app) = none

/-- A record of the application whose id no other application uses. -/
structure Writable (app : String) (records : Collection) (r : Record) : Prop where
  appId_eq : r.appId = app
  isOpen : records.IsOpen app r.id

theorem IsOpen.congr (h : records.IsOpen app id) (hothers : new.others app = records.others app) :
    new.IsOpen app id := by
  rwa [IsOpen, hothers]

theorem Writable.congr (h : records.Writable app r)
    (hothers : new.others app = records.others app) : new.Writable app r :=
  ⟨h.appId_eq, h.isOpen.congr hothers⟩

/-! ## Reading -/

theorem WellFormed.ofApp (h : records.WellFormed) (app : String) :
    (records.ofApp app).WellFormed :=
  ⟨h.sorted.select _, fun entry hentry => h.keyed entry (List.mem_filter.1 hentry).1⟩

theorem ofApp_ofApp (app : String) (records : Collection) :
    (records.ofApp app).ofApp app = records.ofApp app := by
  rw [Collection.ofApp, Collection.ofApp, Keyed.select, Keyed.select, List.filter_filter]
  simp only [Bool.and_self]

/-- An id is open if only the application has a record with it. -/
theorem isOpen_iff (h : records.WellFormed) :
    records.IsOpen app id ↔ ∀ r, Keyed.get? id records = some r → r.appId = app := by
  rw [IsOpen, others, Keyed.get?_select h.sorted, Option.filter_eq_none_iff]
  exact forall₂_congr fun r _ => by simp

theorem writable_of_stores (h : records.WellFormed) (hr : records.Stores r)
    (happ : r.appId = app) : records.Writable app r := by
  refine ⟨happ, (isOpen_iff h).2 fun s hs => ?_⟩
  rw [Stores, hs] at hr
  cases hr
  exact happ

theorem get?_ofApp (h : records.WellFormed) (hid : records.IsOpen app id) :
    Keyed.get? id (records.ofApp app) = Keyed.get? id records := by
  rw [ofApp, Keyed.get?_select h.sorted]
  cases hr : Keyed.get? id records with
  | none => rfl
  | some r => rw [Option.filter_some, if_pos (beq_iff_eq.2 ((isOpen_iff h).1 hid r hr))]

/-- What selects records of the application only selects them from its own. -/
theorem passing_ofApp {p : Record → Bool}
    (h : ∀ r ∈ Keyed.values records, p r = true → r.appId = app) :
    passing p (records.ofApp app) = passing p records := by
  rw [passing, ofApp, Keyed.values_select, List.filter_filter]
  refine List.filter_congr fun r hr => ?_
  cases hp : p r with
  | false => rfl
  | true => rw [h r hr hp, Bool.true_and, beq_self_eq_true]

theorem find_ofApp {clause : Clause}
    (h : ∀ r ∈ Keyed.values records, clause.holds r = true → r.appId = app)
    (order : List (String × SortDirection)) (slice : Option Slice) :
    find clause.document order slice (records.ofApp app) =
      find clause.document order slice records := by
  have same := passing_ofApp (p := fun r => clause.holds r) h
  rw [passing, passing] at same
  rw [find, find, select_document, select_document, same]

/-! ## Writing -/

/-- What is done to a whole collection is for an application what is done to its own records, and
leaves the records of all others as they are. -/
structure Within {α : Type} (app : String) (records : Collection) (whole own : α × Collection) :
    Prop where
  own_eq : own = (whole.1, whole.2.ofApp app)
  wellFormed : whole.2.WellFormed
  others_eq : whole.2.others app = records.others app

theorem Within.map {α β : Type} {whole own : α × Collection} (h : Within app records whole own)
    (f : α → β) : Within app records (f whole.1, whole.2) (f own.1, own.2) :=
  ⟨by rw [h.own_eq], h.wellFormed, h.others_eq⟩

theorem within_insertOne {α : Type} (h : records.WellFormed) (hr : records.Writable app r) (a : α) :
    Within app records (a, Keyed.insert r.id r records)
      (a, Keyed.insert r.id r (records.ofApp app)) := by
  have hold := (isOpen_iff h).1 hr.isOpen
  refine ⟨?_, h.insertOne r, ?_⟩
  · rw [ofApp, ofApp, Keyed.select_insert h.sorted fun s hs => by rw [hold s hs, hr.appId_eq],
      if_pos (beq_iff_eq.2 hr.appId_eq)]
  · have differs : (r.appId != app) = false := by simp [hr.appId_eq]
    rw [others, Keyed.select_insert h.sorted fun s hs => by rw [hold s hs, hr.appId_eq], differs]
    rfl

theorem within_eraseOne {α : Type} (h : records.WellFormed) (hid : records.IsOpen app id) (a : α) :
    Within app records (a, Keyed.erase id records) (a, Keyed.erase id (records.ofApp app)) := by
  refine ⟨?_, h.eraseOne id, ?_⟩
  · rw [ofApp, ofApp, Keyed.select_erase h.sorted]
  · refine ((h.eraseOne id).sorted.select _).ext (h.sorted.select _) fun k => ?_
    rw [others, Keyed.select_erase h.sorted, Keyed.get?_erase (h.sorted.select _)]
    split
    · next hk => rw [hk]; exact hid.symm
    · rfl

theorem within_self {α : Type} (h : records.WellFormed) (a : α) :
    Within app records (a, records) (a, records.ofApp app) := ⟨rfl, h, rfl⟩

/-! ### Inserting -/

theorem within_insert {batch : List Record} (h : records.WellFormed)
    (hbatch : ∀ r ∈ batch, records.Writable app r) :
    (records.ofApp app).insert batch = (records.insert batch).map (ofApp app) ∧
      ∀ new, records.insert batch = .ok new → new.others app = records.others app := by
  induction batch generalizing records with
  | nil => exact ⟨rfl, fun new hnew => by cases hnew; rfl⟩
  | cons r rest ih =>
    have hr := hbatch r List.mem_cons_self
    have step := within_insertOne h hr ()
    obtain ⟨own_eq, others_eq⟩ := ih step.wellFormed fun s hs =>
      (hbatch s (List.mem_cons_of_mem _ hs)).congr step.others_eq
    rw [insert, insert, Keyed.contains, Keyed.contains, get?_ofApp h hr.isOpen]
    split
    · exact ⟨rfl, fun new hnew => by cases hnew⟩
    · rw [(Prod.mk.inj step.own_eq).2]
      exact ⟨own_eq, fun new hnew => (others_eq new hnew).trans step.others_eq⟩

/-! ### Replacing and removing -/

/-- Steps that concern one part of a collection only do so together. -/
theorem Within.foldl {α : Type} {step : Nat × Collection → α → Nat × Collection}
    {p : Collection → α → Prop}
    (hcongr : ∀ a (old new : Collection), new.others app = old.others app → p old a → p new a)
    (hstep : ∀ (records : Collection) n a, records.WellFormed → p records a →
      Within app records (step (n, records) a) (step (n, records.ofApp app) a)) :
    ∀ (items : List α) (records : Collection) (n : Nat), records.WellFormed →
      (∀ a ∈ items, p records a) →
      Within app records (items.foldl step (n, records)) (items.foldl step (n, records.ofApp app))
  | [], records, n, h, _ => within_self h n
  | a :: rest, records, n, h, hitems => by
    have first := hstep records n a h (hitems a List.mem_cons_self)
    have others := Within.foldl hcongr hstep rest _ (step (n, records) a).1 first.wellFormed
      fun b hb => hcongr b _ _ first.others_eq (hitems b (List.mem_cons_of_mem _ hb))
    rw [List.foldl_cons, List.foldl_cons, first.own_eq]
    exact ⟨others.own_eq, others.wellFormed, others.others_eq.trans first.others_eq⟩

theorem within_replace (h : records.WellFormed) {replacements : List Record}
    (hreplacements : ∀ r ∈ replacements, records.Writable app r) :
    Within app records (replace replacements records)
      (replace replacements (records.ofApp app)) := by
  refine Within.foldl (p := fun records r => records.Writable app r)
    (fun r old new hothers hr => hr.congr hothers) (fun records n r h hr => ?_) replacements records
    0 h hreplacements
  rw [replaceOne, replaceOne, Keyed.contains, Keyed.contains, get?_ofApp h hr.isOpen]
  split
  · exact within_insertOne h hr _
  · exact within_self h n

theorem within_remove (h : records.WellFormed) {ids : List String}
    (hids : ∀ id ∈ ids, records.IsOpen app id) :
    Within app records (remove ids records) (remove ids (records.ofApp app)) := by
  refine Within.foldl (p := fun records id => records.IsOpen app id)
    (fun id old new hothers hid => hid.congr hothers) (fun records n id h hid => ?_) ids records 0 h
    hids
  rw [removeOne, removeOne, Keyed.contains, Keyed.contains, get?_ofApp h hid]
  split
  · exact within_eraseOne h hid _
  · exact within_self h n

theorem keys_replace (h : records.WellFormed) (replacements : List Record) :
    Keyed.keys (replace replacements records).2 = Keyed.keys records := by
  suffices (replace replacements records).2.WellFormed ∧
      Keyed.keys (replace replacements records).2 = Keyed.keys records from this.2
  exact replace_induction (P := fun current : Collection => current.WellFormed ∧
    Keyed.keys current = Keyed.keys records) ⟨h, rfl⟩ fun current r _ hfound hcurrent =>
      ⟨hcurrent.1.insertOne r,
        (Keyed.keys_insert_of_contains hcurrent.1.sorted hfound r).trans hcurrent.2⟩

theorem remove_sublist (ids : List String) (records : Collection) :
    (remove ids records).2.Sublist records := by
  unfold remove
  generalize 0 = n
  induction ids generalizing n records with
  | nil => exact List.Sublist.refl _
  | cons id rest ih =>
    rw [List.foldl_cons, removeOne]
    split
    · exact (ih _ _).trans (Keyed.erase_sublist id records)
    · exact ih _ _

/-! ### Marking -/

theorem within_markDeleted (h : records.WellFormed) {clause : Clause}
    (hclause : ∀ r ∈ Keyed.values records, clause.holds r = true → r.appId = app)
    (mark : DeletionMark) :
    Within app records (markDeleted clause.document mark records)
      (markDeleted clause.document mark (records.ofApp app)) := by
  have changed : ∀ (p : Record → Bool) (r : Record),
      (changeIf p (·.markDeleted mark) r).appId = r.appId := by
    intro p r
    unfold changeIf
    split <;> rfl
  rw [markDeleted_document, markDeleted_document, passing_ofApp hclause]
  refine ⟨?_, h.mapValues (changeIf_id _ fun _ => rfl), ?_⟩
  · rw [ofApp, ofApp, Keyed.select_mapValues fun r _ => by rw [changed]]
  · rw [others, Keyed.select_mapValues fun r _ => by rw [changed]]
    refine (List.map_congr_left fun entry hentry => ?_).trans (List.map_id _)
    obtain ⟨hstored, happ⟩ := List.mem_filter.1 hentry
    have unselected : ¬clause.holds entry.2 = true := by
      intro hholds
      exact absurd (hclause _ (List.mem_map_of_mem hstored) hholds) (bne_iff_ne.1 happ)
    rw [changeIf, if_neg unselected]
    rfl

end Collection

end RecordStore
