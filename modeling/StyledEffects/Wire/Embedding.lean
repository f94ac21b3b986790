import StyledEffects.Error
import StyledEffects.Json.Printer

/-! Embedded expressions. On the wire a value inside an instruction is wrapped in an object
that says that it is embedded. -/

namespace StyledEffects.Wire

open Json

def embeddedType : String := "EmbeddedExpression"

def embed (value : Value) : Value :=
  .object [("type", .string embeddedType), ("value", value)]

/-- The wrapped value. `context` names the place in the error for a value that is not
wrapped. -/
def unwrap (value : Value) (context : String) : Except EffectError Value :=
  match (value.get? "type").bind Value.string?, value.get? "value" with
  | some type, some inner =>
    if type = embeddedType then .ok inner else .error (.malformedEmbedding context)
  | _, _ => .error (.malformedEmbedding context)

theorem unwrap_embed (value : Value) (context : String) :
    unwrap (embed value) context = .ok value := by
  simp [unwrap, embed, Value.get?, Fields.get?, Value.string?]

end StyledEffects.Wire
