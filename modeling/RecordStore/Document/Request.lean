import RecordStore.Backend.Collection
import RecordStore.Operation

/-!
# Requests to the collection

What can be asked of the collection backend in its own terms: query documents and the keys of
documents, without regard to scopes and deletions.
-/

namespace RecordStore

inductive DocumentRequest where
  | size
  /-- The ids of the records that satisfy a query document, in an order, or a slice of them. -/
  | find (filter : Value) (order : List (String × SortDirection)) (slice : Option Slice)
  | count (filter : Value)
  /-- Marks the records that satisfy a query document as deleted. -/
  | mark (filter : Value) (deletion : DeletionMark)

def DocumentRequest.answer : DocumentRequest → Effect Collection Answer
  | size => .reading fun records => .ok (.size records.length)
  | find filter order slice => .reading fun records =>
    return .ids ((← records.find filter order slice).map Record.id)
  | count filter => .reading fun records => return .number (← records.count filter)
  | mark filter deletion => .ofFunction fun records =>
    let (marked, records) := records.markDeleted filter deletion
    (marked.map fun n => .number n, records)

def DocumentRequest.run (request : DocumentRequest) : Action collectionBackend Answer :=
  .onStorage (Memory.onRecords request.answer)

end RecordStore
