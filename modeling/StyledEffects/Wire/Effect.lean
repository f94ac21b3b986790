import StyledEffects.Style.Span
import StyledEffects.Wire.Channel

/-! Effects, and the verbs that name them on the wire. -/

namespace StyledEffects.Wire

open Style

inductive Verb where
  | write
  | push
  | pop
  deriving DecidableEq, Repr

namespace Verb

def all : List Verb := [write, push, pop]

def spellings : Verb → List String
  | write => ["write"]
  | push => ["ansi-push", "push"]
  | pop => ["ansi-pop", "pop"]

def name (v : Verb) : String := v.spellings.headD ""

def ofName? (name : String) : Option Verb := all.find? (name ∈ ·.spellings)

end Verb

inductive Effect where
  | write (text : String) (channel : Channel)
  /-- Opens a level of styling; without spans, one in the style that is in force. -/
  | push (spans : Option (List Span))
  /-- Closes the innermost level of styling. -/
  | pop
  deriving DecidableEq, Repr

def Effect.verb : Effect → Verb
  | write .. => .write
  | push _ => .push
  | pop => .pop

def lookupSpan (name : String) : Except EffectError Span :=
  match Span.ofName? name with
  | some span => .ok span
  | none => .error (.unknownSpan name)

end StyledEffects.Wire
