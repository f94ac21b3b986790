import StyledEffects.Style.Frame

/-! The stack of open styles. Only the frame on top is in force. Stacks are never changed:
a push or a pop gives a new stack and the escapes that lead from the old style to the new. -/

namespace StyledEffects.Style

/-- A frame on top of a stack, with the number of frames from there down. -/
inductive Stack where
  | empty
  | on (frame : Frame) (below : Stack) (depth : Nat)
  deriving DecidableEq, Repr, Inhabited

namespace Stack

def depth : Stack → Nat
  | empty => 0
  | on _ _ depth => depth

def isEmpty : Stack → Bool
  | empty => true
  | on .. => false

def top? : Stack → Option Frame
  | empty => none
  | on frame _ _ => some frame

def frames : Stack → List Frame
  | empty => []
  | on frame below _ => frame :: below.frames

/-- The frame in force; below the last frame that is one without spans. -/
def current (s : Stack) : Frame := s.top?.getD ⟨[]⟩

/-- The spans of a new frame: those asked for or, without any, those in force already. -/
def spansFor (s : Stack) : Option (List Span) → List Span
  | none | some [] => s.current.spans
  | some spans => spans

def push (table : Table) (spans : Option (List Span)) (s : Stack) : Stack × Transition :=
  let frame : Frame := ⟨s.spansFor spans⟩
  (on frame s (s.depth + 1), .between table s.current frame)

def pop? (table : Table) : Stack → Option (Stack × Transition)
  | empty => none
  | on frame below _ => some (below, .between table frame below.current)

end Stack

end StyledEffects.Style
