import StyledEffects.Log.Level
import StyledEffects.Log.Path

/-! Where log output goes and how much of it there is. Configurations are added up: the most
verbose filter holds, and for the display and for the file the last one named. -/

namespace StyledEffects.Log

inductive Display where
  | stdout
  | stderr
  deriving DecidableEq, Repr

structure Target where
  display : Option Display
  file : Option String
  deriving DecidableEq, Repr

structure Config where
  filter : Filter
  target : Target
  deriving DecidableEq, Repr

namespace Target

/-! The four targets that there are. -/

@[match_pattern]
def none : Target := ⟨.none, .none⟩

@[match_pattern]
def shown (display : Display) : Target := ⟨some display, .none⟩

@[match_pattern]
def filed (file : String) : Target := ⟨.none, some file⟩

@[match_pattern]
def both (display : Display) (file : String) : Target := ⟨some display, some file⟩

/-- Both together; where both name something, the second one holds. -/
def merge : Target → Target → Target
  | none, it | it, none => it
  | shown display, filed file | filed file, shown display => both display file
  | shown _, shown display => shown display
  | filed _, filed file => filed file
  | both display _, filed file => both display file
  | both _ file, shown display => both display file
  | shown _, it@(both ..) | filed _, it@(both ..) | both .., it@(both ..) => it

instance : Add Target := ⟨merge⟩

theorem display_add (a b : Target) : (a + b).display = b.display.or a.display := by
  rcases a with ⟨_ | _, _ | _⟩ <;> rcases b with ⟨_ | _, _ | _⟩ <;> rfl

theorem file_add (a b : Target) : (a + b).file = b.file.or a.file := by
  rcases a with ⟨_ | _, _ | _⟩ <;> rcases b with ⟨_ | _, _ | _⟩ <;> rfl

end Target

namespace Config

def defaultFile : String := "effect_render.log"

def merge (a b : Config) : Config := ⟨a.filter.mostVerbose b.filter, a.target + b.target⟩

instance : Add Config := ⟨merge⟩

/-- A level alone logs to the default file. -/
def ofFilter (filter : Filter) : Config := ⟨filter, .filed defaultFile⟩

def ofTarget (target : Target) : Config := ⟨.upTo .debug, target⟩

def ofDisplay (display : Display) : Config := ofTarget (.shown display)

def installs (c : Config) : Bool := c.filter ≠ .off

end Config

/-- One part of a log set-up. The first is the filter of the whole; the others write down what
their own filter lets through. -/
inductive Layer where
  | filter (filter : Filter)
  | display (display : Display) (filter : Filter)
  | file (path : FilePath) (filter : Filter)
  deriving DecidableEq, Repr

namespace Config

def displayLayer? (c : Config) : Option Layer :=
  match c.target with
  | .both display _ | .shown display => some (.display display c.filter)
  | .none | .filed _ => none

def fileLayer? (c : Config) : Except PathFault (Option Layer) :=
  match c.target with
  | .both _ file | .filed file =>
    (FilePath.parse file).map fun path => some (.file path c.filter)
  | .none | .shown _ => .ok none

/-- The layers of a configuration. A file whose path is refused is the only thing that can
go wrong. -/
def layers (c : Config) : Except PathFault (List Layer) := do
  let file ← c.fileLayer?
  return .filter c.filter :: (c.displayLayer?.toList ++ file.toList)

end Config

end StyledEffects.Log
