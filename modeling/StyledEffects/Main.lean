import StyledEffects.Cli.Command

/-! The command line. -/

open StyledEffects

def console (display : Log.Display) : BaseIO IO.FS.Stream :=
  match display with
  | .stdout => IO.getStdout
  | .stderr => IO.getStderr

def openInput (path : Option String) : IO IO.FS.Stream := do
  match path with
  | some path => return .ofHandle (← IO.FS.Handle.mk path .read)
  | none => IO.getStdin

def readInput (path : Option String) : IO (Option (Except DeviceError (List UInt8))) := do
  match ← (openInput path).toBaseIO with
  | .error _ => return none
  | .ok stream =>
    match ← stream.readBinToEnd.toBaseIO with
    | .error e => return some (.error ⟨.other, toString e⟩)
    | .ok bytes => return some (.ok bytes.toList)

def writeAll (display : Log.Display) (bytes : List UInt8) : IO Unit := do
  let stream ← console display
  stream.write ⟨bytes.toArray⟩
  stream.flush

def logHandle (path : Log.FilePath) : IO IO.FS.Handle := IO.FS.Handle.mk path.text .append

def openLog (path : Log.FilePath) : IO Bool := do
  try
    unless path.folder = "" do IO.FS.createDirAll path.folder
    discard (logHandle path)
    return true
  catch _ => return false

def append (path : Log.FilePath) (bytes : List UInt8) : IO Unit := do
  (← logHandle path).write ⟨bytes.toArray⟩

def machine : Cli.Host IO :=
  ⟨do (← IO.getStdout).isTty, readInput, writeAll, openLog, append⟩

def main (arguments : List String) : IO UInt32 :=
  return UInt32.ofNat (← Cli.execute machine arguments)
