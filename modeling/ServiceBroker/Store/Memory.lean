import ServiceBroker.Store.Basic

/-!
The store in the memory of the process: a table of records by id. What the other stores answer is
measured against it.
-/

namespace ServiceBroker

/-- Records by id. -/
abbrev Records := Fields Record

namespace Records

/-- The answer to a call, and the records after it. -/
def answer (call : StoreCall) (records : Records) : call.Answer × Records :=
  match call with
  | .get id =>
    match records.get? id with
    | some record => (pure record, records)
    | none => (throw (.notFound id), records)
  | .put record => (pure (), records.put record.id record)
  | .contains id => (pure (records.get? id).isSome, records)
  | .delete id => (pure (), records.erase id)
  | .list => (pure (Store.sortIds records.names), records)

end Records

def memoryStore : Store Records where
  backend := .memory
  answer := Records.answer

end ServiceBroker
