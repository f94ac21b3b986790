import StyledEffects.Run.Io

/-! A run onto two streams in which all parties share one thread. The task of a writer runs
only while the loop waits: before an instruction that takes time, and at the end. Then the
tasks run in rounds of shifts until each has to wait itself. -/

namespace StyledEffects

open Style Wire

structure OneThread (S σ τ : Type) where
  run : IoRun S σ τ
  log : List Log.Event

namespace OneThread

variable {S σ τ : Type} [OutputStream σ] [OutputStream τ]

omit [OutputStream σ] [OutputStream τ] in
def note (events : List Log.Event) (t : OneThread S σ τ) : OneThread S σ τ :=
  { t with log := t.log ++ events }

def loop (source : Source S) (t : OneThread S σ τ) : OneThread S σ τ :=
  match t.run.move source .loop with
  | none => t
  | some (run, events) => ⟨run, t.log ++ events⟩

def wait (t : OneThread S σ τ) : OneThread S σ τ :=
  let (sink, events) := t.run.sink.settle
  ⟨t.run.withSink sink, t.log ++ events⟩

/-- The loop puts its next output or gets its next instruction, and waits for that first if
it takes time. -/
def round (source : Source S) (t : OneThread S σ τ) : OneThread S σ τ :=
  match t.run.pending, t.run.drive.pump.deferral? source t.run.drive.resume with
  | _ :: _, _ | [], none => t.loop source
  | [], some pause =>
    let t := t.note [.awaiting t.run.drive.pump.pulled]
    (if pause then t.wait else t).loop source

def rounds (source : Source S) : Nat → OneThread S σ τ → OneThread S σ τ
  | 0, t => t
  | n + 1, t => if t.run.drive.result.isSome then t else rounds source n (t.round source)

omit [OutputStream σ] [OutputStream τ] in
def finished {ρ : Type} (w : Writer ρ) : List Log.Event :=
  match w.stopped? with
  | some (.ok ()) => [.finished w.label true]
  | some (.error _) => [.finished w.label false]
  | none => []

omit [OutputStream σ] [OutputStream τ] in
def finishedSince (before after : Sink σ τ) : List Log.Event :=
  (if before.secondary.stopped?.isSome then [] else finished after.secondary) ++
    (if before.primary.stopped?.isSome then [] else finished after.primary)

/-- A round of the tasks, after which the loop looks which of them have stopped. -/
def waitRound (t : OneThread S σ τ) : OneThread S σ τ :=
  let (sink, events) := t.run.sink.round
  ⟨t.run.withSink sink, t.log ++ events ++ finishedSince t.run.sink sink⟩

def waitRounds : Nat → OneThread S σ τ → OneThread S σ τ
  | 0, t => t
  | rounds + 1, t => if t.run.sink.woken.isEmpty then t else waitRounds rounds t.waitRound

/-- Closes the writers and waits for them. The loop looks at the tasks before that, the
primary one first, and again after each round, then the secondary one first. -/
def close (source : Source S) (t : OneThread S σ τ) : OneThread S σ τ :=
  let t := t.loop source
  let sink := t.run.sink
  (t.note (finished sink.primary ++ finished sink.secondary)).waitRounds sink.roundsLeft

/-- Runs a source that ends within `limit` requests. Each instruction takes three rounds at
most, as it has two outputs at most. -/
def evaluate (source : Source S) (limit : Nat) (table : Table) (state : S) (primary : σ)
    (secondary : τ) : OneThread S σ τ :=
  let t : OneThread S σ τ := ⟨.new table state primary secondary, []⟩
  (t.rounds source (3 * limit)).close source

end OneThread

end StyledEffects
