import StyledEffects.Wire.Effect
import StyledEffects.Wire.Embedding

/-! Well-formed instructions, built from what they ask for. -/

namespace StyledEffects.Wire

open Json Style

def effectType : String := "Effect"

namespace Instruction

def ofPayload (verb : Verb) (payload : Value) : Value :=
  .object
    [("type", .string effectType),
     ("value", embed (.object [("value", embed payload), ("verb", .string verb.name)]))]

def write (text : String) (stream : UInt64) : Value :=
  ofPayload .write (.object
    [("options", embed (.object [("stream", .number (.natural stream))])),
     ("text", .string text)])

def push (spans : List Span) : Value :=
  ofPayload .push (.object [("spans", .array (spans.map fun span => .string span.name))])

/-- Open a level in the style that is in force. -/
def echo : Value := ofPayload .push (.object [])

def pop : Value := ofPayload .pop (.object [])

end Instruction

end StyledEffects.Wire
