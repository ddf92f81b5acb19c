import ServiceBroker.Config.Basic
import ServiceBroker.Record

/-!
What every store of records does: it answers calls. Each call works on whole records, and a record
replaces the one that had its id before.
-/

namespace ServiceBroker

/-- A call of a store. -/
inductive StoreCall where
  | get (id : String)
  | put (record : Record)
  | contains (id : String)
  | delete (id : String)
  | list

/-- What a call is answered with, if it does not fail. -/
abbrev StoreCall.Reply : StoreCall → Type
  | get _ => Record
  | put _ => Unit
  | contains _ => Bool
  | delete _ => Unit
  | list => List String

abbrev StoreCall.Answer (call : StoreCall) : Type :=
  Except StoreError call.Reply

/-- A store that keeps its records in a state. -/
structure Store (σ : Type) where
  backend : Backend
  answer : (call : StoreCall) → σ → call.Answer × σ

namespace Store

/-- Ids in the order of their UTF-8 encodings, which is that of their characters. -/
def sortIds (ids : List String) : List String :=
  ids.mergeSort fun a b => !decide (b < a)

variable {σ : Type}

/-- Answers calls one after another. -/
def answers (store : Store σ) : List StoreCall → σ → List ((call : StoreCall) × call.Answer) × σ
  | [], state => ([], state)
  | call :: calls, state =>
    let (answer, state) := store.answer call state
    let (rest, state) := store.answers calls state
    (⟨call, answer⟩ :: rest, state)

end Store

end ServiceBroker
