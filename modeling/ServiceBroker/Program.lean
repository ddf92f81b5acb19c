/-!
Programs that ask something of the world around them and go on with what they are answered.

A program is data: the next request, and for each answer the program that goes on. So one program
can be run against a pure state, against the real world, or step by step with others in between.
-/

namespace ServiceBroker

/-- What may be asked, and what kind of answer each request has. -/
structure Interface where
  Request : Type
  Reply : Request → Type

/-- A program over an interface that ends with a value. -/
inductive Program (I : Interface) (α : Type) where
  | done (value : α)
  | ask (request : I.Request) (next : I.Reply request → Program I α)

namespace Program

variable {I J : Interface} {α β σ : Type}

/-- Goes on with `next` where a program ends. -/
def bind : Program I α → (α → Program I β) → Program I β
  | done value, next => next value
  | ask request after, next => ask request fun reply => (after reply).bind next

instance : Monad (Program I) where
  pure := done
  bind := bind

/-- The program that asks one thing. -/
def request (request : I.Request) : Program I (I.Reply request) :=
  ask request done

/-- Runs a program against a state that answers each request. -/
def run (answer : (request : I.Request) → σ → I.Reply request × σ) : Program I α → σ → α × σ
  | done value, state => (value, state)
  | ask request next, state =>
    let (reply, state) := answer request state
    (next reply).run answer state

/-- The program over a wider interface that asks the same. -/
def embed (send : I.Request → J.Request)
    (back : (request : I.Request) → J.Reply (send request) → I.Reply request) :
    Program I α → Program J α
  | done value => done value
  | ask request next =>
    ask (send request) fun reply => (next (back request reply)).embed send back

/-- A finished program changes nothing. -/
@[simp]
theorem run_done (answer : (request : I.Request) → σ → I.Reply request × σ) (value : α)
    (state : σ) : (done value : Program I α).run answer state = (value, state) :=
  rfl

/-- The second part runs from where the first part ended. -/
theorem run_bind (answer : (request : I.Request) → σ → I.Reply request × σ)
    (first : Program I α) (next : α → Program I β) (state : σ) :
    (first.bind next).run answer state =
      (next (first.run answer state).1).run answer (first.run answer state).2 := by
  induction first generalizing state with
  | done value => rfl
  | ask request after ih => simp [bind, run, ih]

end Program

end ServiceBroker
