import StyledEffects.Cli.Arguments
import StyledEffects.Cli.Host
import StyledEffects.Instructions
import StyledEffects.Run.OneThread
import StyledEffects.Run.Pure

/-! The command: instructions from a file or the standard input are rendered on the standard
output and the standard error or, if everything is to go into one stream, on the standard
output alone. -/

namespace StyledEffects.Cli

open Style

/-- A line for the log or output for a display. -/
inductive Emission where
  | event (event : Log.Event)
  | output (display : Log.Display) (bytes : List UInt8)

/-- What a run has emitted, in order, and how it has ended. -/
structure Report where
  emissions : List Emission
  result : Except EffectError Unit

/-- Whether output is styled. Without a terminal `auto` means that it is not. -/
def ColorChoice.styles (choice : ColorChoice) (terminal : Bool) : Bool :=
  match choice with
  | auto => terminal
  | always => true
  | never => false

def Options.table (o : Options) (terminal : Bool) : Table :=
  if o.color.styles terminal then .ansi else .plain

def Options.logging (o : Options) : Option Log.Config :=
  o.level.map fun level =>
    ⟨.upTo level, match o.logFile with
      | some path => ⟨none, some path⟩
      | none => ⟨some .stderr, none⟩⟩

def unfinished : Except EffectError Unit := .error (.source "the run has not ended")

/-- The emissions of a run onto the standard output alone. Each drain hands over one chunk,
right after it has been announced; what is flushed at the end comes last. -/
def emissionsOfOne : List Log.Event → List (List UInt8) → List Emission
  | [], chunks => chunks.map (.output .stdout)
  | .draining length :: events, chunk :: chunks =>
    .event (.draining length) :: .output .stdout chunk :: emissionsOfOne events chunks
  | event :: events, chunks => .event event :: emissionsOfOne events chunks

def isFinished : Log.Event → Bool
  | .finished .. => true
  | _ => false

/-- The emissions of a run onto both displays. All output comes before the first report of a
writer that has finished. -/
def emissionsOfTwo (events : List Log.Event) (stdout stderr : List UInt8) : List Emission :=
  (events.takeWhile fun e => !isFinished e).map .event ++
    [.output .stdout stdout, .output .stderr stderr] ++
    (events.dropWhile fun e => !isFinished e).map .event

/-- The items of what has been read. A failure to read is the only item. -/
def itemsOf : Except DeviceError (List UInt8) → List Item
  | .ok bytes => Instructions.ofBytes bytes
  | .error e => [.error (.device e)]

def render (o : Options) (terminal : Bool) (input : Except DeviceError (List UInt8)) : Report :=
  let items := itemsOf input
  let device := BoundedDevice.new none none false
  let stream := Buffered.new device o.mark
  let limit := items.length + 1
  let table := o.table terminal
  if o.pure then
    let p := PureRun.render (.stream false) limit table items stream
    ⟨emissionsOfOne p.log p.stream.device.taken, p.result.getD unfinished⟩
  else
    let t := OneThread.evaluate (.stream false) limit table items stream stream
    let sink := t.run.sink
    ⟨emissionsOfTwo t.log sink.primary.stream.device.bytes sink.secondary.stream.device.bytes,
      t.run.result?.getD unfinished⟩

/-- What has to be known before the log is opened. -/
structure Setup where
  options : Options
  filter : Log.Filter
  layers : List Log.Layer

/-- The set-up that the arguments ask for; otherwise an exit code and a complaint. -/
def prepare (arguments : List String) : Except (Nat × String) Setup :=
  match parse arguments with
  | .error fault => .error (2, fault.message)
  | .ok options =>
    match options.logging with
    | none => .ok ⟨options, .off, []⟩
    | some config =>
      match config.layers with
      | .error fault => .error (1, fault.message)
      | .ok layers => .ok ⟨options, config.filter, layers⟩

variable {m : Type → Type} [Monad m]

def emit (host : Host m) (setup : Setup) : Emission → m Unit
  | .event event => host.log setup.filter setup.layers [event]
  | .output display bytes => host.write display bytes

def renderInput (host : Host m) (setup : Setup) : m Nat := do
  emit host setup (.event (.starting setup.options.label))
  match ← host.read setup.options.input with
  | none => do
    host.complain "the input cannot be opened"
    return 1
  | some input => do
    let report := render setup.options (← host.isTerminal) input
    report.emissions.forM (emit host setup)
    match report.result with
    | .ok () => do
      emit host setup (.event .rendered)
      return 0
    | .error e => do
      host.complain e.message
      return 1

/-- The command. The answer is the exit code: 2 for arguments that cannot be used, 101 for a
log file that cannot be opened, and 1 for every other failure. -/
def execute (host : Host m) (arguments : List String) : m Nat := do
  match prepare arguments with
  | .error (code, message) => do
    host.complain message
    return code
  | .ok setup => do
    if ← host.openLayers setup.layers then renderInput host setup
    else do
      host.complain "the log file cannot be opened"
      return 101

end StyledEffects.Cli
