import StyledEffects.Log.Level
import StyledEffects.Wire.Effect

/-! What a run has to say about itself, and how it is written to a log. -/

namespace StyledEffects.Log

open Wire

inductive Event where
  /-- The command starts with these options. -/
  | starting (options : String)
  /-- The command has rendered everything. -/
  | rendered
  /-- A source has announced an instruction that is not there yet. -/
  | awaiting (pulled : Nat)
  /-- An effect is about to be carried out on a stack of this depth. -/
  | dispatching (verb : Verb) (depth : Nat)
  | switching (old new : Channel)
  | exhausted (count : Nat)
  /-- A stream wants to be drained after a write of `length` bytes. -/
  | draining (length : Nat)
  | writeFailed (writer : String) (error : DeviceError)
  | discarding (writer : String)
  | finished (writer : String) (ok : Bool)
  deriving DecidableEq, Repr

namespace Event

def level : Event → Level
  | awaiting _ | draining _ | finished .. => .trace
  | starting _ | rendered | dispatching .. | switching .. | exhausted _ => .debug
  | writeFailed .. | discarding _ => .warn

def message : Event → String
  | starting _ => "Start logging..."
  | rendered => "Done rendering"
  | awaiting _ => "awaiting deferred instruction"
  | dispatching .. => "dispatch"
  | switching .. => "channel switch, forcing newline"
  | exhausted _ => "producer exhausted"
  | draining _ => "backpressure, waiting for drain"
  | writeFailed .. => "write failed"
  | discarding _ => "writer task stopped, discarding text"
  | finished .. => "writer task finished"

def fields : Event → List (String × String)
  | starting options => [("cli_arg", options)]
  | rendered => []
  | awaiting pulled => [("pulled", toString pulled)]
  | dispatching verb depth => [("verb", verb.name), ("depth", toString depth)]
  | switching old new => [("from", old.name), ("to", new.name)]
  | exhausted count => [("count", toString count)]
  | draining length => [("len", toString length)]
  | writeFailed writer error => [("writer", Text.quoted writer), ("err", error.message)]
  | discarding writer => [("writer", Text.quoted writer)]
  | finished writer ok => [("writer", Text.quoted writer), ("ok", toString ok)]

def line (e : Event) : String :=
  String.intercalate " "
    ([e.level.column, e.message] ++ e.fields.map fun (name, value) => name ++ "=" ++ value)

end Event

def lines (filter : Filter) (events : List Event) : List String :=
  (events.filter fun e => filter.passes e.level).map Event.line

end StyledEffects.Log
