import StyledEffects.Source

/-! Pulling instructions from a source, one by one. A pump that has met the end or a failure
never asks its source again. -/

namespace StyledEffects

open Json

structure Pump (S : Type) where
  state : S
  /-- The number of instructions pulled so far. -/
  pulled : Nat
  finished : Bool

namespace Pump

variable {S : Type}

def new (state : S) : Pump S := ⟨state, 0, false⟩

/-- Pulls the next instruction; none at the end of the source and ever after. -/
def step (source : Source S) (resume : Option Value) (pump : Pump S) :
    Except EffectError (Option Value) × Pump S :=
  if pump.finished then (.ok none, pump)
  else
    let (reply, state) := source.advance resume pump.state
    match reply.result with
    | .ok (some v) => (.ok (some v), ⟨state, pump.pulled + 1, false⟩)
    | result => (result, ⟨state, pump.pulled, true⟩)

/-- Whether the next step has to wait for a deferred instruction, and whether that takes
time. -/
def deferral? (source : Source S) (resume : Option Value) (pump : Pump S) : Option Bool :=
  if pump.finished then none
  else match (source.advance resume pump.state).1 with
    | .deferred pause _ => some pause
    | _ => none

end Pump

/-- A loop that pulls instructions and hands each one to a dispatcher working on a `D`. -/
structure Drive (S D : Type) where
  pump : Pump S
  /-- What the source is resumed with next. -/
  resume : Option Value
  work : D
  /-- Once the loop has ended, the number of instructions dispatched or the first error. -/
  result : Option (Except EffectError Nat)

namespace Drive

variable {S D : Type}

def new (state : S) (work : D) : Drive S D := ⟨.new state, none, work, none⟩

/-- One round: an instruction is pulled and dispatched, and what the dispatcher answers goes
to the source with the next pull. -/
def turn (source : Source S) (dispatch : Value → D → Except EffectError (Option Value) × D)
    (d : Drive S D) : Drive S D :=
  match d.result with
  | some _ => d
  | none =>
    match d.pump.step source d.resume with
    | (.error e, pump) => { d with pump, result := some (.error e) }
    | (.ok none, pump) => { d with pump, result := some (.ok pump.pulled) }
    | (.ok (some v), pump) =>
      match dispatch v d.work with
      | (.error e, work) => { d with pump, work, result := some (.error e) }
      | (.ok resume, work) => { d with pump, work, resume }

def run (source : Source S) (dispatch : Value → D → Except EffectError (Option Value) × D) :
    Nat → Drive S D → Drive S D
  | 0, d => d
  | rounds + 1, d => run source dispatch rounds (d.turn source dispatch)

end Drive

end StyledEffects
