import StyledEffects.Stream.Basic

/-! A stream in memory that keeps every write. It can be made to ask for a drain after every
so many writes, and to fail each drain. -/

namespace StyledEffects

structure Recorder where
  /-- After how many writes it asks for a drain, if ever; 0 counts as 1. -/
  every : Option Nat
  failDrain : Bool
  /-- The writes so far, the last one first. -/
  recent : List String
  drains : Nat
  flushes : Nat
  deriving DecidableEq, Repr

namespace Recorder

def new (every : Option Nat) (failDrain : Bool) : Recorder := ⟨every, failDrain, [], 0, 0⟩

def writes (r : Recorder) : List String := r.recent.reverse

def text (r : Recorder) : String := String.join r.writes

@[inline] def takesMore (every : Option Nat) (count : Nat) : Bool :=
  match every with
  | none => true
  | some n => count % max n 1 ≠ 0

instance : OutputStream Recorder where
  write text r :=
    (takesMore r.every (r.recent.length + 1), { r with recent := text :: r.recent })
  drain r :=
    (if r.failDrain then .error ⟨.brokenPipe, "mock drain failed"⟩ else .ok (),
     { r with drains := r.drains + 1 })
  flush r := (.ok (), { r with flushes := r.flushes + 1 })

end Recorder

end StyledEffects
