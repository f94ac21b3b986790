import StyledEffects.Style.Table

/-! One level of styling: the spans that are in force together. They are opened in order
and closed in reverse order, so the span opened last is closed first. -/

namespace StyledEffects.Style

structure Frame where
  spans : List Span
  deriving DecidableEq, Repr, Inhabited

namespace Frame

def hasSpans (f : Frame) : Bool := !f.spans.isEmpty

def opening (table : Table) (f : Frame) : String :=
  String.join (f.spans.map fun span => (table span).opening)

def closing (table : Table) (f : Frame) : String :=
  String.join (f.spans.reverse.map fun span => (table span).closing)

theorem opening_ansi (f : Frame) :
    f.opening .ansi = String.join ((f.spans.map fun s => s.codes.1).map Sgr.text) := by
  rw [opening, List.map_map]
  rfl

theorem closing_ansi (f : Frame) :
    f.closing .ansi = String.join ((f.spans.reverse.map fun s => s.codes.2).map Sgr.text) := by
  rw [closing, List.map_map]
  rfl

end Frame

/-- The escapes of one change of style, written closing first. An empty one is left out. -/
structure Transition where
  closing : Option String
  opening : Option String
  deriving DecidableEq, Repr

def nonEmpty (s : String) : Option String := if s = "" then none else some s

namespace Transition

def between (table : Table) (old new : Frame) : Transition :=
  ⟨nonEmpty (old.closing table), nonEmpty (new.opening table)⟩

def bursts (t : Transition) : List String := t.closing.toList ++ t.opening.toList

end Transition

end StyledEffects.Style
