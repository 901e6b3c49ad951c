import RecordStore.Proofs.Reachable
import RecordStore.Proofs.Record

/-!
# The lifecycle of records

Unless records are written behind the back of the store, the marks of a deletion agree, a call
changes live records only and never their origin, and a record is lost in two ways only: a live one
to a hard deletion, and a deleted one to a cleanup (`Reachable.lifecycle`).
-/

namespace RecordStore

open Collection Evolution

/-! ## Calls -/

namespace Call

/-- Whether a call hands records or ids to the backend as they are. -/
def isDirect : Call → Bool
  | operation (.insert _) => true
  | operation (.replace _) => true
  | operation (.remove _) => true
  | _ => false

/-- The calls that write records only as the store does. -/
def Guarded (call : Call) : Prop := call.isDirect = false

/-- Whether a call is a cleanup. -/
def isCleanup : Call → Bool
  | cleanup _ _ => true
  | _ => false

/-- Whether a call is a hard deletion. -/
def isHardDeletion : Call → Bool
  | operation (.bulkDelete request) => request.hard
  | _ => false

/-- A guarded call keeps all records or removes some of a kind: a cleanup removes deleted records, and
a hard deletion live ones. -/
theorem Guarded.evolution_cases {call : Call} (h : call.Guarded) :
    call.evolution = kept ∨ ∃ lost, call.evolution = thinned lost ∧
      ∀ r : Record, lost r →
        r.isDeleted = true ∧ call.isCleanup = true ∨
          r.isDeleted = false ∧ call.isHardDeletion = true := by
  cases call with
  | cleanup request withCatalog => exact Or.inr ⟨_, rfl, fun r hr => Or.inl ⟨hr, rfl⟩⟩
  | operation op =>
    cases op with
    | insert => cases h
    | replace => cases h
    | remove => cases h
    | bulkDelete request =>
      cases hhard : request.hard with
      | true =>
        right
        refine ⟨fun r => r.isDeleted = false, ?_, fun r hr => Or.inr ⟨hr, hhard⟩⟩
        rw [evolution, hhard]
        rfl
      | false =>
        left
        rw [evolution, hhard]
        rfl
    | _ => exact Or.inl rfl

end Call

/-! ## Runs -/

theorem Reachable.marked {memory : Memory} (h : Reachable Call.Guarded memory) :
    memory.records.Marked := by
  induction h with
  | empty => exact fun _ _ h => by cases h
  | @run w call store hw hcall ih =>
    obtain ⟨-, evolves, -⟩ := call.admits_run store w hw.wellFormed trivial
    rcases hcall.evolution_cases with hkept | ⟨lost, hthinned, -⟩
    · rw [hkept] at evolves
      exact Kept.marked evolves ih
    · rw [hthinned] at evolves
      exact Thinned.marked evolves ih
  | fields _ _ ih => exact ih

/-- In any memory that guarded calls lead to, each record can be read from its document, stands
under its id, and has all marks of a deletion or none. A further call lets each record that it leaves
there continue as it has begun, and loses only deleted records, to a cleanup, and live ones, to a
hard deletion. -/
theorem Reachable.lifecycle {memory : Memory} (h : Reachable Call.Guarded memory) :
    (∀ k r, Keyed.get? k memory.records = some r →
      Record.ofValue? r.toValue = some r ∧ r.id = k ∧ r.MarksAgree) ∧
    ∀ (w : World collectionBackend) (store : Store collectionBackend) (call : Call),
      w.storage = memory → call.Guarded →
      (∀ k r s, Keyed.get? k w.records = some r →
        Keyed.get? k ((call.run store).result w).2.records = some s → r.Continues s) ∧
      ∀ k r, Keyed.get? k w.records = some r →
        Keyed.get? k ((call.run store).result w).2.records = none →
        r.isDeleted = true ∧ call.isCleanup = true ∨
          r.isDeleted = false ∧ call.isHardDeletion = true := by
  refine ⟨fun k r hr => ⟨r.ofValue?_toValue, h.wellFormed.id_of_get? hr, h.marked k r hr⟩, ?_⟩
  rintro w store call rfl hcall
  obtain ⟨-, evolves, -⟩ := call.admits_run store w h.wellFormed trivial
  rcases hcall.evolution_cases with hkept | ⟨lost, hthinned, hlost⟩
  · rw [hkept] at evolves
    refine ⟨fun k r s hr hs => ?_, fun k r hr hgone => ?_⟩
    · obtain ⟨s', hs', hcontinues⟩ := Kept.continues evolves k r hr
      rw [hs] at hs'
      cases hs'
      exact hcontinues
    · obtain ⟨s, hs, -⟩ := Kept.continues evolves k r hr
      rw [hgone] at hs
      cases hs
  · rw [hthinned] at evolves
    refine ⟨fun k r s hr hs => ?_, fun k r hr hgone => ?_⟩
    · rcases evolves k with hsame | ⟨hgone, -⟩
      · rw [hsame, hr] at hs
        cases hs
        exact .refl r
      · rw [hgone] at hs
        cases hs
    · rcases evolves k with hsame | ⟨-, r', hr', hkind⟩
      · rw [hsame, hr] at hgone
        cases hgone
      · rw [hr] at hr'
        cases hr'
        exact hlost r hkind

/-- A record is created and deleted, and deleting it again changes nothing. -/
theorem Reachable.lifecycle_deleted_twice :
    let draft : Draft := ⟨"app", "group", "tag", .null, false, none⟩
    let r := (Record.ofDraft draft "a" 1 default).markDeleted ⟨2, default⟩
    let w : World collectionBackend := ⟨⟨[("a", r)], []⟩, 3, default, none⟩
    let store : Store collectionBackend := ⟨(), .default⟩
    let delete : Call := .operation (.delete ⟨⟨"app", "tag"⟩, .empty, default, none⟩)
    Reachable Call.Guarded w.storage ∧ Record.ofValue? r.toValue = some r ∧ r.MarksAgree ∧
      Keyed.get? "a" ((delete.run store).result w).2.records = some r := by
  intro draft r w store delete
  have created : Reachable Call.Guarded ⟨[("a", .ofDraft draft "a" 1 default)], []⟩ :=
    @Reachable.of_run Call.Guarded ⟨Memory.empty, 1, ⟨["a"], "", 0⟩, none⟩
      (.operation (.create [draft] default)) .empty rfl store _ rfl []
  have deleted : Reachable Call.Guarded w.storage :=
    @Reachable.of_run Call.Guarded
      ⟨⟨[("a", .ofDraft draft "a" 1 default)], []⟩, 2, default, none⟩ delete created rfl store _
      rfl []
  obtain ⟨stored, steps⟩ := Reachable.lifecycle deleted
  obtain ⟨continues, lost⟩ := steps w store delete rfl rfl
  obtain ⟨hread, -, hmarks⟩ := stored "a" r rfl
  refine ⟨deleted, hread, hmarks, ?_⟩
  cases hagain : Keyed.get? "a" ((delete.run store).result w).2.records with
  | none =>
    rcases lost "a" r rfl hagain with ⟨-, hcleanup⟩ | ⟨-, hhard⟩
    · cases hcleanup
    · cases hhard
  | some s => rw [(continues "a" r s rfl hagain).deleted rfl]

end RecordStore
