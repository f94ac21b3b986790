import StyledEffects.Error
import StyledEffects.Json.Printer

/-! The two channels that text is written to. -/

namespace StyledEffects.Wire

open Json

/-- Where a text goes: the primary channel is usually the standard output, the secondary one
the standard error. -/
inductive Channel where
  | primary
  | secondary
  deriving DecidableEq, Repr

namespace Channel

def name : Channel → String
  | primary => "primary"
  | secondary => "secondary"

/-- The channel that a stream selector chooses. Selectors are compared with 1 and 2 to
within `2 ^ -52`. -/
def ofValue (selector : Value) : Except EffectError Channel :=
  match selector with
  | .number n =>
    if n.isNear 1 then .ok primary
    else if n.isNear 2 then .ok secondary
    else .error (.invalidStream selector.text)
  | _ => .error (.invalidStream selector.text)

end Channel

end StyledEffects.Wire
