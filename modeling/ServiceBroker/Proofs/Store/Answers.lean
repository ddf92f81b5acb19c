import Mathlib.Data.List.Sort
import ServiceBroker.Proofs.Fields
import ServiceBroker.Proofs.Text.Bytes
import ServiceBroker.Store.Memory

/-! What the calls of a store should be answered with: a record that was put is there, as it was
put, until another one is put in its place or it is deleted, and every id of a record is listed
once, in order. The store in memory answers so, and other stores are compared with it call by call.
-/

namespace ServiceBroker

namespace Store

theorem sortIds_perm (ids : List String) : (sortIds ids).Perm ids :=
  List.mergeSort_perm ids _

@[simp]
theorem mem_sortIds {ids : List String} {id : String} : id ∈ sortIds ids ↔ id ∈ ids :=
  (sortIds_perm ids).mem_iff

theorem pairwise_sortIds (ids : List String) : (sortIds ids).Pairwise (· ≤ ·) := by
  have hOrder (first second : String) : (!decide (second < first)) = true ↔ first ≤ second := by
    rw [Bool.not_eq_true', decide_eq_false_iff_not, not_lt]
  have hSorted : (sortIds ids).Pairwise fun first second => (!decide (second < first)) = true := by
    refine List.pairwise_mergeSort (fun first second third hBefore hAfter => ?_)
      (fun first second => ?_) ids
    · exact (hOrder _ _).mpr (le_trans ((hOrder _ _).mp hBefore) ((hOrder _ _).mp hAfter))
    · rw [Bool.or_eq_true, hOrder, hOrder]
      exact le_total first second
  exact hSorted.imp (hOrder _ _).mp

/-- Only which ids there are, and how often, counts. -/
theorem sortIds_eq_of_perm {first second : List String} (h : first.Perm second) :
    sortIds first = sortIds second :=
  ((sortIds_perm first).trans (h.trans (sortIds_perm second).symm)).eq_of_pairwise
    (fun _ _ _ _ hab hba => le_antisymm hab hba) (pairwise_sortIds first) (pairwise_sortIds second)

theorem filter_sortIds (p : String → Bool) (ids : List String) :
    (sortIds ids).filter p = sortIds (ids.filter p) :=
  (((sortIds_perm ids).filter p).trans (sortIds_perm _).symm).eq_of_pairwise
    (fun _ _ _ _ hab hba => le_antisymm hab hba) ((pairwise_sortIds ids).filter p)
    (pairwise_sortIds _)

/-- Different ids are listed in the order of their encodings. -/
theorem pairwise_sortIds_of_nodup {ids : List String} (once : ids.Nodup) :
    (sortIds ids).Pairwise fun first second => Bytes.ofText first < Bytes.ofText second := by
  have hOnce : (sortIds ids).Nodup := (sortIds_perm ids).nodup_iff.mpr once
  refine ((pairwise_sortIds ids).and hOnce).imp fun h => ?_
  exact Bytes.ofText_lt_iff.mpr (lt_of_le_of_ne h.1 h.2)

section Run

variable {σ τ : Type} {store : Store σ} {model : Store τ} {Keeps : τ → σ → Prop}
  {Fine : StoreCall → Prop} (view : (call : StoreCall) → call.Answer → call.Answer)

/-- A store that answers each call as a model of it does, seen in some way, answers all of them so.
-/
theorem answers_of_step
    (step : ∀ call modelled state, Fine call → Keeps modelled state →
      (store.answer call state).1 = view call (model.answer call modelled).1 ∧
        Keeps (model.answer call modelled).2 (store.answer call state).2)
    {calls : List StoreCall} {modelled : τ} {state : σ} (fine : ∀ call ∈ calls, Fine call)
    (h : Keeps modelled state) :
    (store.answers calls state).1 =
        (model.answers calls modelled).1.map fun answered =>
          ⟨answered.1, view answered.1 answered.2⟩ := by
  induction calls generalizing modelled state with
  | nil => rfl
  | cons call calls ih =>
      obtain ⟨hFirst, hCalls⟩ := List.forall_mem_cons.mp fine
      obtain ⟨hAnswer, hKeeps⟩ := step call modelled state hFirst h
      simp only [answers, List.map_cons, hAnswer, ih hCalls hKeeps]

end Run

/-- Each call is answered, in order. -/
@[simp]
theorem map_fst_answers {σ : Type} (store : Store σ) (calls : List StoreCall) (state : σ) :
    (store.answers calls state).1.map Sigma.fst = calls := by
  induction calls generalizing state with
  | nil => rfl
  | cons call calls ih => simp only [answers, List.map_cons, ih]

end Store

namespace StoreCall

/-- What lies under an id after a call, if `found` was there before. -/
def leaves (id : String) (found : Option Record) : StoreCall → Option Record
  | put record => if record.id = id then some record else found
  | delete deleted => if deleted = id then none else found
  | get _ | contains _ | list => found

/-- A call is answered as it should be where `held` says what lies under each id: a record is given
back as it was put, and every id of a record is listed once, in the order of the encodings. -/
def Right (held : String → Option Record) : (call : StoreCall) → call.Answer → Prop
  | get id, answer => answer = (held id).elim (.error (.notFound id)) .ok
  | put _, answer => answer = .ok ()
  | contains id, answer => answer = .ok (held id).isSome
  | delete _, answer => answer = .ok ()
  | list, answer => ∃ ids, answer = .ok ids ∧
      (ids.Pairwise fun first second => Bytes.ofText first < Bytes.ofText second) ∧
      ∀ id, id ∈ ids ↔ (held id).isSome

end StoreCall

namespace Records

/-- What lies under an id after calls: the record that was last put there, unless it was deleted
after that. -/
def after (records : Records) (calls : List StoreCall) (id : String) : Option Record :=
  calls.foldl (fun found call => call.leaves id found) (records.get? id)

/-- Every call is answered as it should be after the calls before it. -/
def Rightly (records : Records) (answered : List ((call : StoreCall) × call.Answer)) : Prop :=
  ∀ before call answer later, answered = before ++ ⟨call, answer⟩ :: later →
    call.Right (records.after (before.map Sigma.fst)) answer

variable {records : Records}

theorem nodup_nil : (Fields.names ([] : Records)).Nodup :=
  List.nodup_nil

theorem answer_get (id : String) : answer (.get id) records =
    ((records.get? id).elim (.error (.notFound id)) .ok, records) := by
  rw [answer]
  cases records.get? id <;> rfl

theorem get?_answer (call : StoreCall) (id : String) :
    (answer call records).2.get? id = call.leaves id (records.get? id) := by
  cases call with
  | get => rw [answer_get, StoreCall.leaves]
  | contains | list => rfl
  | put record =>
      by_cases h : record.id = id
      · simp [answer, StoreCall.leaves, ← h]
      · simp [answer, StoreCall.leaves, h, Fields.get?_put_of_ne _ _ (Ne.symm h)]
  | delete deleted =>
      by_cases h : deleted = id
      · simp [answer, StoreCall.leaves, h]
      · simp [answer, StoreCall.leaves, h, Fields.get?_erase_of_ne _ (Ne.symm h)]

theorem nodup_answer (once : records.names.Nodup) (call : StoreCall) :
    (answer call records).2.names.Nodup := by
  cases call with
  | get =>
      rw [answer_get]
      exact once
  | contains | list => exact once
  | put record => exact Fields.nodup_put once
  | delete deleted => exact Fields.nodup_erase once

theorem right_answer (once : records.names.Nodup) (call : StoreCall) :
    call.Right records.get? (answer call records).1 := by
  cases call with
  | get id => exact congrArg Prod.fst (answer_get id)
  | put | contains | delete => rfl
  | list =>
      refine ⟨_, rfl, Store.pairwise_sortIds_of_nodup once, fun id => ?_⟩
      rw [Store.mem_sortIds, Fields.mem_names_iff]

theorem after_cons (call : StoreCall) (calls : List StoreCall) :
    records.after (call :: calls) = (answer call records).2.after calls := by
  funext id
  rw [after, after, List.foldl_cons, get?_answer]

/-- The store in memory answers every call as it should. -/
theorem rightly_answers (once : records.names.Nodup) (calls : List StoreCall) :
    records.Rightly (memoryStore.answers calls records).1 := by
  induction calls generalizing records with
  | nil =>
      intro before call answer later h
      simp [Store.answers] at h
  | cons first calls ih =>
      intro before call answer later h
      cases before with
      | nil =>
          obtain ⟨h, -⟩ := List.cons.inj h
          cases h
          exact right_answer once first
      | cons head before =>
          obtain ⟨hHead, hRest⟩ := List.cons.inj h
          rw [List.map_cons, ← hHead, after_cons]
          exact ih (nodup_answer once first) before call answer later hRest

end Records

end ServiceBroker
