import StyledEffects.Log.Event
import StyledEffects.Style.Stack
import StyledEffects.Wire.Decode

/-! The part that all runs share: effects are carried out on a stack of styles, and what is
to be output is handed over in order. -/

namespace StyledEffects

open Json Style Wire

inductive Output where
  /-- The text of a write. -/
  | text (channel : Channel) (text : String)
  /-- One burst of escapes from a push or a pop. -/
  | control (escapes : String)
  deriving DecidableEq, Repr

structure Core where
  table : Table
  stack : Stack

namespace Core

def new (table : Table) : Core := ⟨table, .empty⟩

def hasEscape (text : String) : Bool := text.toList.contains esc

/-- Carries out an effect. One that fails hands nothing over and leaves the stack alone. -/
def perform (effect : Effect) (core : Core) : Except EffectError Unit × Core × List Output :=
  match effect with
  | .write text channel =>
    if hasEscape text then (.error .escapeInWrite, core, [])
    else (.ok (), core, [.text channel text])
  | .push spans =>
    let (stack, transition) := core.stack.push core.table spans
    (.ok (), { core with stack }, transition.bursts.map .control)
  | .pop =>
    match core.stack.pop? core.table with
    | none => (.error .popOnEmptyStack, core, [])
    | some (stack, transition) =>
      (.ok (), { core with stack }, transition.bursts.map .control)

/-- Decodes an instruction and carries it out. The value that the source is resumed with is
in the answer; no verb has one. -/
def dispatch (instruction : Value) (core : Core) :
    Except EffectError (Option Value) × Core × List Output :=
  match decode instruction with
  | .error e => (.error e, core, [])
  | .ok effect =>
    let (result, core, outputs) := core.perform effect
    (result.map fun _ => none, core, outputs)

def notices (instruction : Value) (core : Core) : List Log.Event :=
  match decode instruction with
  | .error _ => []
  | .ok effect => [.dispatching effect.verb core.stack.depth]

/-- The check at the end of a run: every push has been popped. -/
def finish (core : Core) : Except EffectError Unit :=
  if core.stack.isEmpty then .ok () else .error (.unbalancedStack core.stack.depth)

end Core

end StyledEffects
