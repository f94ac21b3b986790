import StyledEffects.Pump
import StyledEffects.Run.Sink

/-! Running a source onto two streams. The loop over the source and the tasks of the two
writers make their moves in any order. The loop puts one output at a time; it never waits
for a task before it has closed the writers. -/

namespace StyledEffects

open Json Style Wire

structure Session (σ τ : Type) where
  core : Core
  sink : Sink σ τ
  /-- The outputs of the last effect that are still to be put. -/
  pending : List Output

namespace Session

variable {σ τ : Type}

def dispatch (instruction : Value) (s : Session σ τ) :
    Except EffectError (Option Value) × Session σ τ :=
  let (result, core, outputs) := s.core.dispatch instruction
  (result, { s with core, pending := outputs })

end Session

structure IoRun (S σ τ : Type) where
  drive : Drive S (Session σ τ)
  /-- How the run itself ended, the streams left aside; set when the writers are closed. -/
  verdict : Option (Except EffectError Unit)

/-- Who moves next: the loop over the source or the task of a writer. -/
inductive Move where
  | loop
  | writer (channel : Channel)
  deriving DecidableEq, Repr

namespace IoRun

variable {S σ τ : Type}

def new (table : Table) (state : S) (primary : σ) (secondary : τ) : IoRun S σ τ :=
  ⟨.new state ⟨.new table, .new primary secondary, []⟩, none⟩

def core (r : IoRun S σ τ) : Core := r.drive.work.core

def sink (r : IoRun S σ τ) : Sink σ τ := r.drive.work.sink

def pending (r : IoRun S σ τ) : List Output := r.drive.work.pending

def withSession (r : IoRun S σ τ) (work : Session σ τ) : IoRun S σ τ :=
  { r with drive := { r.drive with work } }

def withSink (r : IoRun S σ τ) (sink : Sink σ τ) : IoRun S σ τ :=
  r.withSession { r.drive.work with sink }

def judge (result : Except EffectError Nat) (core : Core) : Except EffectError Unit :=
  match result with
  | .error e => .error e
  | .ok _ => core.finish

/-- The loop's turn: an output is put or, after the last one, an instruction is pulled and
dispatched or, after the last of these, the writers are closed. -/
def turn (source : Source S) (r : IoRun S σ τ) : IoRun S σ τ :=
  match r.pending, r.drive.result, r.verdict with
  | output :: pending, _, _ => r.withSession ⟨r.core, (r.sink.put output).1, pending⟩
  | [], none, _ => { r with drive := r.drive.turn source Session.dispatch }
  | [], some result, none =>
    { r with verdict := some (judge result r.core) }.withSink r.sink.close
  | [], some _, some _ => r

/-- The result of a run that is over: its own error or else that of a stream. -/
def result? (r : IoRun S σ τ) : Option (Except EffectError Unit) :=
  match r.verdict, r.sink.outcome? with
  | some (.error e), some _ => some (.error e)
  | some (.ok ()), some outcome => some (outcome.mapError .device)
  | _, _ => none

def notices (source : Source S) (r : IoRun S σ τ) : List Log.Event :=
  match r.pending, r.drive.result with
  | output :: _, _ => (r.sink.put output).2
  | [], some (.ok count) => [.exhausted count]
  | [], some (.error _) => []
  | [], none =>
    match (r.drive.pump.step source r.drive.resume).1 with
    | .ok (some instruction) => r.core.notices instruction
    | _ => []

variable [OutputStream σ] [OutputStream τ]

/-- The run after a move and what is logged by it; none if that party cannot move. -/
def move (source : Source S) (m : Move) (r : IoRun S σ τ) :
    Option (IoRun S σ τ × List Log.Event) :=
  match m with
  | .loop => if r.verdict.isSome then none else some (r.turn source, r.notices source)
  | .writer .primary => r.sink.primary.step.map fun (primary, events) =>
    (r.withSink { r.sink with primary }, events)
  | .writer .secondary => r.sink.secondary.step.map fun (secondary, events) =>
    (r.withSink { r.sink with secondary }, events)

def after (source : Source S) : List Move → IoRun S σ τ → Option (IoRun S σ τ)
  | [], r => some r
  | m :: rest, r => (r.move source m).bind fun (r, _) => r.after source rest

end IoRun

end StyledEffects
