import StyledEffects.Core
import StyledEffects.Pump
import StyledEffects.Stream.Pipe

/-! Running a source into a sequence of chunks of text: the texts of the writes, whatever
their channel, and the bursts of escapes, in order. Nothing is asked of the source before a
chunk is wanted. -/

namespace StyledEffects

open Json Style

structure PureRun (S : Type) where
  pump : Pump S
  /-- What the source is resumed with next. -/
  resume : Option Value
  core : Core
  /-- The chunks still to be handed out. -/
  chunks : List String
  ended : Bool

namespace PureRun

variable {S : Type}

def new (table : Table) (state : S) : PureRun S := ⟨.new state, none, .new table, [], false⟩

def chunkOf : Output → Option String
  | .text _ text => if text = "" then none else some text
  | .control escapes => some escapes

/-- One step: hands out the next chunk or, if there is none, asks the source. An error is
handed out last. -/
def step (source : Source S) (r : PureRun S) :
    Option (Option (Except EffectError String) × PureRun S) :=
  if r.ended then none
  else match r.chunks with
    | chunk :: chunks => some (some (.ok chunk), { r with chunks })
    | [] =>
      match r.pump.step source r.resume with
      | (.error e, pump) => some (some (.error e), { r with pump, ended := true })
      | (.ok none, pump) =>
        match r.core.finish with
        | .ok () => some (none, { r with pump, ended := true })
        | .error e => some (some (.error e), { r with pump, ended := true })
      | (.ok (some instruction), pump) =>
        match r.core.dispatch instruction with
        | (.error e, core, _) => some (some (.error e), { r with pump, core, ended := true })
        | (.ok resume, core, outputs) =>
          some (none, { r with pump, core, resume, chunks := outputs.filterMap chunkOf })

def notices (source : Source S) (r : PureRun S) : List Log.Event :=
  if r.ended || !r.chunks.isEmpty then []
  else
    let awaiting := match r.pump.deferral? source r.resume with
      | some _ => [.awaiting r.pump.pulled]
      | none => []
    let dispatching := match (r.pump.step source r.resume).1 with
      | .ok (some instruction) => r.core.notices instruction
      | _ => []
    awaiting ++ dispatching

def feed (source : Source S) : Feed (PureRun S) := ⟨step source, notices source⟩

def items (source : Source S) : Nat → PureRun S → List (Except EffectError String)
  | 0, _ => []
  | steps + 1, r =>
    match r.step source with
    | none => []
    | some (none, r) => items source steps r
    | some (some item, r) => item :: items source steps r

/-- How many steps are enough for a source that ends within `limit` requests. An effect has
two chunks at most. -/
def stepsFor (limit : Nat) : Nat := 3 * limit + 1

def evaluate (source : Source S) (limit : Nat) (table : Table) (state : S) :
    List (Except EffectError String) :=
  (new table state).items source (stepsFor limit)

def join : List (Except EffectError String) → Except EffectError String
  | [] => .ok ""
  | .ok chunk :: rest => (join rest).map (chunk ++ ·)
  | .error e :: _ => .error e

def collect (source : Source S) (limit : Nat) (state : S) : Except EffectError String :=
  join (evaluate source limit .ansi state)

/-- Writes everything to a stream. The stream is flushed at the end if nothing has failed. -/
def render {σ : Type} [OutputStream σ] (source : Source S) (limit : Nat) (table : Table)
    (state : S) (stream : σ) : Pipe (PureRun S) σ :=
  let p := (Pipe.new (new table state) stream).run (feed source) (stepsFor limit + 1)
  match p.result with
  | some (.ok ()) =>
    let (result, stream) := OutputStream.flush p.stream
    { p with stream, result := some (result.mapError .device) }
  | _ => p

end PureRun

end StyledEffects
