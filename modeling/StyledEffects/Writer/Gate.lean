import StyledEffects.Writer.Basic

/-! Letting the task of a writer run until it has to wait. It waits for the handle when its
queue is empty, and for its stream when a drain is held up by a gate. -/

namespace StyledEffects

/-- Holds up drains, each until it is released. A release that comes when no drain waits is
kept for the next one; only one is kept. -/
structure Gate where
  gated : Bool
  /-- A drain has come to the gate and waits. -/
  waiting : Bool
  /-- The drain that waited has been released. -/
  released : Bool
  kept : Bool
  deriving DecidableEq, Repr

namespace Gate

def absent : Gate := ⟨false, false, false, false⟩

def shut : Gate := ⟨true, false, false, false⟩

def release (g : Gate) : Gate :=
  if g.waiting then { g with waiting := false, released := true } else { g with kept := true }

def pass (g : Gate) : Bool × Gate :=
  if !g.gated then (true, g)
  else if g.released then (true, { g with released := false })
  else if g.waiting then (false, g)
  else if g.kept then (true, { g with kept := false })
  else (false, { g with waiting := true })

end Gate

namespace Writer

variable {σ : Type} [OutputStream σ]

/-- One turn of the task, unless that is a drain which the gate holds up. -/
def stepThrough (gate : Gate) (w : Writer σ) : Gate × Option (Writer σ × List Log.Event) :=
  match w.phase with
  | .draining _ =>
    match gate.pass with
    | (true, gate) => (gate, w.step)
    | (false, gate) => (gate, none)
  | _ => (gate, w.step)

def settleWithin : Nat → Gate → Writer σ → Gate × Writer σ × List Log.Event
  | 0, gate, w => (gate, w, [])
  | turns + 1, gate, w =>
    match w.stepThrough gate with
    | (gate, none) => (gate, w, [])
    | (gate, some (w, events)) =>
      let (gate, w, later) := settleWithin turns gate w
      (gate, w, events ++ later)

/-- Lets the task run until it has to wait. It takes no more turns than it has work. -/
def settleThrough (gate : Gate) (w : Writer σ) : Gate × Writer σ × List Log.Event :=
  settleWithin w.work gate w

theorem step_settleWithin_absent (turns : Nat) (w : Writer σ) (h : w.work ≤ turns) :
    (settleWithin turns .absent w).2.1.step = none := by
  induction turns generalizing w with
  | zero =>
    cases hs : w.step with
    | none => simpa [settleWithin] using hs
    | some r => exact absurd (work_lt_of_step hs) (by omega)
  | succ turns ih =>
    have through : w.stepThrough .absent = (.absent, w.step) := by
      unfold stepThrough
      split <;> simp [Gate.pass, Gate.absent]
    unfold settleWithin
    rw [through]
    cases hs : w.step with
    | none => simpa using hs
    | some r =>
      have := work_lt_of_step hs
      exact ih r.1 (by omega)

theorem step_settleThrough_absent (w : Writer σ) : (w.settleThrough .absent).2.1.step = none :=
  step_settleWithin_absent w.work w (Nat.le_refl _)

end Writer

end StyledEffects
