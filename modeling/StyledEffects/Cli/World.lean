import StyledEffects.Cli.Host
import StyledEffects.Files.Tree

/-! A machine in memory: its files, what comes in, and what has been written so far. -/

namespace StyledEffects.Cli

open Files

structure World where
  tree : Tree
  terminal : Bool
  stdin : List UInt8
  stdout : ByteArray
  stderr : ByteArray

namespace World

def write (world : World) (display : Log.Display) (bytes : List UInt8) : World :=
  match display with
  | .stdout => { world with stdout := world.stdout ++ ⟨bytes.toArray⟩ }
  | .stderr => { world with stderr := world.stderr ++ ⟨bytes.toArray⟩ }

def folderError : DeviceError := ⟨.other, "Is a directory"⟩

/-- What is read from a node. A folder can be opened but not read. -/
def contents (world : World) : Node → Option (Except DeviceError (List UInt8))
  | .file bytes => some (.ok bytes.toList)
  | .nothing => some (.ok [])
  | .input => some (.ok world.stdin)
  | .folder .. => some (.error folderError)
  | .locked | .display _ | .link _ => none

def read (world : World) : Option String → Option (Except DeviceError (List UInt8))
  | none => some (.ok world.stdin)
  | some path => (world.tree.find? path).bind fun place => world.contents place.node

def withPlace (world : World) (place : Place) : World :=
  { world with tree := { world.tree with root := place.root } }

def append (world : World) (path : Log.FilePath) (bytes : List UInt8) : World :=
  match world.tree.openFile path with
  | none => world
  | some place =>
    match place.node with
    | .file old => world.withPlace { place with node := .file (old ++ ⟨bytes.toArray⟩) }
    | .display display => world.write display bytes
    | _ => world

def host : Host (StateM World) where
  isTerminal := return (← get).terminal
  read path := return (← get).read path
  write display bytes := modify (·.write display bytes)
  openLog path := do
    let world ← get
    match world.tree.openFile path with
    | none => return false
    | some place => do
      set (world.withPlace place)
      return true
  append path bytes := modify (·.append path bytes)

end World

end StyledEffects.Cli
