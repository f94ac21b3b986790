import StyledEffects.Error
import StyledEffects.Json.Value

/-! Sources of instructions. A source is asked for one instruction at a time and is told
what came of the one before. It may answer at once or announce an answer for later. -/

namespace StyledEffects

open Json

inductive Reply where
  | ready (instruction : Value)
  /-- The instruction, the end or a failure comes later; with `pause`, only after the asker
  has had to wait for it. -/
  | deferred (pause : Bool) (later : Except EffectError (Option Value))
  | done
  | failed (error : EffectError)

/-- What the asker has once the answer is complete; no instruction means the end. -/
def Reply.result : Reply → Except EffectError (Option Value)
  | ready instruction => .ok (some instruction)
  | deferred _ later => later
  | done => .ok none
  | failed error => .error error

structure Source (S : Type) where
  /-- Asks for an instruction. The value is the outcome of the one before, if it had any. -/
  advance : Option Value → S → Reply × S

abbrev Item := Except EffectError Value

namespace Source

def items : Source (List Item) where
  advance
    | _, [] => (.done, [])
    | _, .ok v :: rest => (.ready v, rest)
    | _, .error e :: rest => (.failed e, rest)

/-- Defers every answer, even that there is none. With `pause` the instructions take time;
the end and a failure never do. -/
def stream (pause : Bool) : Source (List Item) where
  advance
    | _, [] => (.deferred false (.ok none), [])
    | _, .ok v :: rest => (.deferred pause (.ok (some v)), rest)
    | _, .error e :: rest => (.deferred false (.error e), rest)

/-- A source that makes each instruction from what came of the one before. -/
def coroutine {S : Type} (produce : Option Value → S → Except EffectError (Option Value) × S) :
    Source S where
  advance resume state :=
    match produce resume state with
    | (.ok (some v), state) => (.ready v, state)
    | (.ok none, state) => (.done, state)
    | (.error e, state) => (.failed e, state)

def nextItem : Option Value → List Item → Except EffectError (Option Value) × List Item
  | _, [] => (.ok none, [])
  | _, item :: rest => (item.map some, rest)

/-- The same source, with a record of the values that it has been resumed with, the last one
first. -/
def recording {S : Type} (source : Source S) : Source (S × List (Option Value)) where
  advance := fun resume (state, seen) =>
    let (reply, state) := source.advance resume state
    (reply, state, resume :: seen)

end Source

end StyledEffects
