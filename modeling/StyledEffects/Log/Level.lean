/-! Log levels, from least to most verbose. A filter lets through what is at most as
verbose as itself. -/

namespace StyledEffects.Log

inductive Level where
  | error | warn | info | debug | trace
  deriving DecidableEq, Repr

namespace Level

def verbosity : Level → Nat
  | error => 1
  | warn => 2
  | info => 3
  | debug => 4
  | trace => 5

def all : List Level := [error, warn, info, debug, trace]

def label : Level → String
  | error => "Error"
  | warn => "Warn"
  | info => "Info"
  | debug => "Debug"
  | trace => "Trace"

def column : Level → String
  | error => "ERROR"
  | warn => " WARN"
  | info => " INFO"
  | debug => "DEBUG"
  | trace => "TRACE"

end Level

inductive Filter where
  | off
  | upTo (level : Level)
  deriving DecidableEq, Repr

namespace Filter

def verbosity : Filter → Nat
  | off => 0
  | upTo level => level.verbosity

def all : List Filter := off :: Level.all.map upTo

def name : Filter → String
  | off => "off"
  | upTo .error => "error"
  | upTo .warn => "warn"
  | upTo .info => "info"
  | upTo .debug => "debug"
  | upTo .trace => "trace"

def ofName? (name : String) : Option Filter := all.find? (·.name = name)

def passes (filter : Filter) (level : Level) : Bool := level.verbosity ≤ filter.verbosity

def mostVerbose (a b : Filter) : Filter := if a.verbosity ≤ b.verbosity then b else a

end Filter

end StyledEffects.Log
