import StyledEffects.Style.Stack

/-! A tree of stacks grown from the empty one. Each push or pop works on any earlier version
and adds a version. Two versions are the same stack if the frames on top of them were put
there by one and the same push, whatever the frames hold. -/

namespace StyledEffects.Style

structure Version where
  stack : Stack
  /-- For each frame, the top one first, the number of the push that made it. -/
  pushes : List Nat
  deriving DecidableEq, Repr

namespace Version

def start : Version := ⟨.empty, []⟩

def sameAs (a b : Version) : Bool := a.pushes.head? = b.pushes.head?

end Version

/-- The versions after the empty stack, the newest first. -/
structure History where
  later : List Version
  deriving DecidableEq, Repr

namespace History

def new : History := ⟨[]⟩

def count (h : History) : Nat := h.later.length + 1

def version? (h : History) (i : Nat) : Option Version :=
  if i = 0 then some .start else h.later.reverse[i - 1]?

/-- Pushes on version `i`. The push is numbered by the version that it makes. -/
def push (table : Table) (spans : Option (List Span)) (i : Nat) (h : History) :
    Option (History × Transition) :=
  (h.version? i).map fun v =>
    let (stack, transition) := v.stack.push table spans
    (⟨⟨stack, h.count :: v.pushes⟩ :: h.later⟩, transition)

def pop? (table : Table) (i : Nat) (h : History) : Option (History × Transition) :=
  (h.version? i).bind fun v => (v.stack.pop? table).map fun (stack, transition) =>
    (⟨⟨stack, v.pushes.tail⟩ :: h.later⟩, transition)

def same (h : History) (i j : Nat) : Bool :=
  match h.version? i, h.version? j with
  | some a, some b => a.sameAs b
  | _, _ => false

end History

end StyledEffects.Style
