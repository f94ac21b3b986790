import StyledEffects.Text.Quoted

/-! Everything that can stop a run, with the words and the code it is reported by. -/

namespace StyledEffects

inductive Failure where
  | brokenPipe
  | writeZero
  | storageFull
  | connectionReset
  | invalidData
  | other
  deriving DecidableEq, Repr

def Failure.name : Failure → String
  | brokenPipe => "BrokenPipe"
  | writeZero => "WriteZero"
  | storageFull => "StorageFull"
  | connectionReset => "ConnectionReset"
  | invalidData => "InvalidData"
  | other => "Other"

structure DeviceError where
  kind : Failure
  message : String
  deriving DecidableEq, Repr

inductive EffectError where
  /-- The instruction is of another type, or is no instruction. -/
  | unexpectedInstruction (found : String)
  | malformedEmbedding (context : String)
  | missingField (field : String)
  | invalidField (field reason : String)
  | unknownVerb (verb : String)
  | invalidStream (found : String)
  /-- A text to be written has an escape character. -/
  | escapeInWrite
  | popOnEmptyStack
  /-- The source ended with `depth` frames still on the stack. -/
  | unbalancedStack (depth : Nat)
  | unknownSpan (name : String)
  /-- The source of instructions failed. -/
  | source (message : String)
  | device (error : DeviceError)
  deriving DecidableEq, Repr

namespace EffectError

def name : EffectError → String
  | unexpectedInstruction _ => "UnexpectedInstruction"
  | malformedEmbedding _ => "MalformedEmbedding"
  | missingField _ => "MissingField"
  | invalidField .. => "InvalidField"
  | unknownVerb _ => "UnknownVerb"
  | invalidStream _ => "InvalidStream"
  | escapeInWrite => "EscapeInWrite"
  | popOnEmptyStack => "PopOnEmptyStack"
  | unbalancedStack _ => "UnbalancedStack"
  | unknownSpan _ => "UnknownSpan"
  | source _ => "Source"
  | device _ => "Io"

def message : EffectError → String
  | unexpectedInstruction found =>
    "Expected an instruction of type 'Effect', found " ++ found
  | malformedEmbedding context => "Malformed embedded value in " ++ context
  | missingField field => "Missing field '" ++ field ++ "' in effect payload"
  | invalidField field reason => "Invalid field '" ++ field ++ "' in effect payload: " ++ reason
  | unknownVerb verb => "Unexpected call of \x7bverb: " ++ Text.quoted verb ++ "\x7d"
  | invalidStream found =>
    "Invalid stream selector " ++ found ++ ", expected 1 (stdout) or 2 (stderr)"
  | escapeInWrite => "Cannot write ANSI escape to io VM, instead use ansi-push"
  | popOnEmptyStack => "cannot pop: stack empty"
  | unbalancedStack depth =>
    "Unbalanced styling: " ++ toString depth ++
      " span frame(s) still open when the source ended"
  | unknownSpan name => "Unknown span identifier '" ++ name ++ "'"
  | source message => "Effect source failed: " ++ message
  | device error => error.message

def code : EffectError → String
  | unexpectedInstruction _ => "r3bl_effect_io::protocol::unexpected_instruction"
  | malformedEmbedding _ => "r3bl_effect_io::protocol::malformed_embedding"
  | missingField _ => "r3bl_effect_io::protocol::missing_field"
  | invalidField .. => "r3bl_effect_io::protocol::invalid_field"
  | unknownVerb _ => "r3bl_effect_io::protocol::unknown_verb"
  | invalidStream _ => "r3bl_effect_io::protocol::invalid_stream"
  | escapeInWrite => "r3bl_effect_io::payload::escape_in_write"
  | popOnEmptyStack => "r3bl_effect_io::styling::pop_on_empty_stack"
  | unbalancedStack _ => "r3bl_effect_io::styling::unbalanced_stack"
  | unknownSpan _ => "r3bl_effect_io::styling::unknown_span"
  | source _ => "r3bl_effect_io::source"
  | device _ => "r3bl_effect_io::io"

def help : EffectError → Option String
  | malformedEmbedding _ =>
    some "Embedded values look like \x7b\"type\": \"EmbeddedExpression\", \"value\": ...\x7d"
  | unknownVerb _ => some "Known verbs are 'write', 'ansi-push' ('push') and 'ansi-pop' ('pop')"
  | escapeInWrite => some "Styling must only enter the output through 'ansi-push' and 'ansi-pop'"
  | unbalancedStack _ =>
    some "Every 'ansi-push' must be matched by an 'ansi-pop' in the same run"
  | _ => none

end EffectError

end StyledEffects
