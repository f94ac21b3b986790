import StyledEffects.Log.Config
import StyledEffects.Log.Event
import StyledEffects.Text.Utf8

/-! What the command needs from the machine that it runs on. -/

namespace StyledEffects.Cli

open Log

structure Host (m : Type → Type) where
  /-- Whether the standard output is a terminal. -/
  isTerminal : m Bool
  /-- All bytes of a file or, without a path, of the standard input; nothing if it cannot be
  opened. -/
  read : Option String → m (Option (Except DeviceError (List UInt8)))
  write : Display → List UInt8 → m Unit
  /-- Makes sure that a log file, with its folders, is there; says whether that worked. -/
  openLog : FilePath → m Bool
  /-- Adds to the end of a log file. -/
  append : FilePath → List UInt8 → m Unit

namespace Host

variable {m : Type → Type} [Monad m]

def complain (host : Host m) (message : String) : m Unit :=
  host.write .stderr (Text.utf8 ("Error: " ++ message ++ "\n"))

def openLayers (host : Host m) : List Layer → m Bool
  | [] => return true
  | .file path _ :: rest => do
    if ← host.openLog path then host.openLayers rest else return false
  | _ :: rest => host.openLayers rest

def logLine (host : Host m) (line : String) : Layer → m Unit
  | .filter _ => pure ()
  | .display display _ => host.write display (Text.utf8 (line ++ "\n"))
  | .file path _ => host.append path (Text.utf8 (line ++ "\n"))

def takes (level : Level) : Layer → Bool
  | .filter filter | .display _ filter | .file _ filter => filter.passes level

def log (host : Host m) (filter : Filter) (layers : List Layer) (events : List Event) : m Unit :=
  (events.filter fun e => filter.passes e.level).forM fun e =>
    (layers.filter (takes e.level)).forM (host.logLine e.line)

end Host

end StyledEffects.Cli
