import Marginalia.Failure

/-!
# Calls

The parts of the library call one another and their host, and the host may call back while it is
being called. So each part is written as a machine that does not call but asks: a step ends the call
that the part is in, or asks a question and leaves in the part's state what remains to be done. The
answer comes with a later step, after any number of other calls.
-/

namespace Marginalia

/-- How a call ends. -/
inductive Outcome
  /-- Without a result. -/
  | returned
  /-- With the text of a file. -/
  | text (content : String)
  /-- With the number of something new. -/
  | made (id : Nat)
  /-- With a failure. -/
  | raised (why : Failure)
  deriving DecidableEq, Repr

/-- The failure that a call ends with, if any. -/
def Outcome.failure? : Outcome → Option Failure
  | .raised why => some why
  | _ => none

/-- Whoever takes care of failures can take care of how the call ends: it did not fail, or its
failure can be reported. -/
def Outcome.isContained (o : Outcome) : Bool :=
  o.failure?.all fun why => why.report.isOk

/-- What a step comes to: the end of the call, or a question. -/
inductive Turn (κ : Type)
  | ends (o : Outcome)
  | asks (question : κ)
  deriving DecidableEq, Repr

/-- A step of a part: its new state, what it did on the way, and what it comes to. -/
structure Step (σ ν κ : Type) where
  state : σ
  notes : List ν := []
  turn : Turn κ := .ends .returned

/-- Puts what was done before in front of a step. -/
def Step.after {σ ν κ : Type} (notes : List ν) (s : Step σ ν κ) : Step σ ν κ :=
  { s with notes := notes ++ s.notes }

end Marginalia
