import StyledEffects.Wire.Instruction

/-! Reading effects off the wire. The first thing that is wrong with an instruction decides
the error, from its envelope inwards. -/

namespace StyledEffects.Wire

open Json Style

inductive RecordFault where
  /-- It is neither an object nor an array. -/
  | kind (found : Value)
  /-- It is an array with another number of items than two. -/
  | length (count : Nat)
  deriving Repr

/-- The fields of a record with these two keys. The record is an object, whose other keys do
not count, or an array of the two. A field that is `null` is missing. -/
def record (first second : String) : Value → Except RecordFault (Option Value × Option Value)
  | .object fields =>
    .ok ((Value.object fields).field? first, (Value.object fields).field? second)
  | .array [a, b] => .ok (a.present?, b.present?)
  | .array items => .error (.length items.length)
  | v => .error (.kind v)

def describe : Value → String
  | .null => "null"
  | .bool b => "boolean `" ++ (Value.bool b).text ++ "`"
  | .number (.integer n h) => "integer `" ++ (Number.integer n h).text ++ "`"
  | .number (.float x) => "floating point `" ++ (Number.float x).text ++ "`"
  | .string s => "string " ++ Text.quoted s
  | .array _ => "sequence"
  | .object _ => "map"

def RecordFault.message : RecordFault → String
  | kind found => "invalid type: " ++ describe found ++ ", expected struct EffectBody"
  | length count =>
    "invalid length " ++ toString count ++
      (if count < 2 then ", expected struct EffectBody with 2 elements"
       else ", expected fewer elements in array")

def openEnvelope (instruction : Value) : Except EffectError Value :=
  match record "type" "value" instruction with
  | .ok (none, _) => .error (.unexpectedInstruction "nothing")
  | .ok (some (.string type), value) =>
    if type ≠ effectType then .error (.unexpectedInstruction (Text.quoted type))
    else match value with
      | none => .error (.malformedEmbedding "instruction")
      | some value => .ok value
  | .ok (some _, _) | .error _ => .error (.unexpectedInstruction instruction.text)

def readBody (body : Value) : Except EffectError (Verb × Option Value) :=
  match record "verb" "value" body with
  | .error fault => .error (.invalidField "value" fault.message)
  | .ok (none, _) => .error (.missingField "verb")
  | .ok (some (.string name), payload) =>
    match Verb.ofName? name with
    | some verb => .ok (verb, payload)
    | none => .error (.unknownVerb name)
  | .ok (some other, _) => .error (.unknownVerb other.text)

/-- The channel in the options of a write; the primary one unless another is asked for. -/
def channelOf (options : Option Value) : Except EffectError Channel :=
  match options with
  | none => .ok .primary
  | some options => do
    let options ← unwrap options "write options"
    match options.field? "stream" with
    | none => .ok .primary
    | some selector => Channel.ofValue selector

def decodeWrite (payload : Option Value) : Except EffectError Effect := do
  let some payload := payload | .error (.missingField "value")
  let payload ← unwrap payload "write payload"
  match payload.get? "text" with
  | none => .error (.missingField "text")
  | some (.string text) => do
    let channel ← channelOf (payload.field? "options")
    .ok (.write text channel)
  | some other => .error (.invalidField "text" ("expected a string, found " ++ other.text))

def spanOf : Value → Except EffectError Span
  | .string name => lookupSpan name
  | other => .error (.invalidField "spans" ("expected span names, found " ++ other.text))

def decodePush (payload : Option Value) : Except EffectError Effect :=
  match payload with
  | none => .ok (.push none)
  | some payload => do
    let payload ← unwrap payload "ansi-push payload"
    match payload.field? "spans" with
    | none => .ok (.push none)
    | some (.array items) => do
      let spans ← items.mapM spanOf
      .ok (.push (if spans.isEmpty then none else some spans))
    | some other => .error (.invalidField "spans" ("expected an array, found " ++ other.text))

def decode (instruction : Value) : Except EffectError Effect := do
  let embedded ← openEnvelope instruction
  let body ← unwrap embedded "instruction"
  let (verb, payload) ← readBody body
  match verb with
  | .write => decodeWrite payload
  | .push => decodePush payload
  | .pop => .ok .pop

end StyledEffects.Wire
