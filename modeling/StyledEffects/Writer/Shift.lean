import StyledEffects.Writer.Basic

/-! Tasks on one thread work in shifts. A shift ends when the task has to wait for its
handle or has stopped, and also when it wants a signal after it has taken its share of
them. Then it pauses, even if there is no signal left to take. -/

namespace StyledEffects

structure Shift (σ : Type) where
  writer : Writer σ
  paused : Bool
  events : List Log.Event

namespace Writer

variable {σ : Type}

/-- How many signals a task takes in one shift at most. -/
def share : Nat := 128

def wantsSignal (w : Writer σ) : Bool :=
  match w.phase with
  | .waiting => true
  | _ => false

variable [OutputStream σ]

/-- A shift of at most `turns` turns in which `left` more signals may be taken. -/
def shiftWithin : Nat → Nat → Writer σ → Shift σ
  | 0, _, w => ⟨w, false, []⟩
  | turns + 1, left, w =>
    if w.wantsSignal && left = 0 then ⟨w, true, []⟩
    else match w.step with
      | none => ⟨w, false, []⟩
      | some (next, events) =>
        let rest := shiftWithin turns (if w.wantsSignal then left - 1 else left) next
        { rest with events := events ++ rest.events }

def shift (w : Writer σ) : Shift σ := shiftWithin w.work share w

theorem work_shiftWithin_le (turns left : Nat) (w : Writer σ) :
    (shiftWithin turns left w).writer.work ≤ w.work := by
  induction turns generalizing left w with
  | zero => simp [shiftWithin]
  | succ turns ih =>
    unfold shiftWithin
    split
    · exact Nat.le_refl _
    · cases hs : w.step with
      | none => exact Nat.le_refl _
      | some r => exact Nat.le_trans (ih _ r.1) (Nat.le_of_lt (work_lt_of_step hs))

theorem work_shift_le (w : Writer σ) : w.shift.writer.work ≤ w.work :=
  work_shiftWithin_le w.work share w

theorem work_shift_lt (w : Writer σ) (h : w.shift.paused = true) :
    w.shift.writer.work < w.work := by
  unfold shift at h ⊢
  cases hw : w.work with
  | zero => simp [hw, shiftWithin] at h
  | succ turns =>
    rw [hw] at h
    unfold shiftWithin at h ⊢
    rw [if_neg (by simp [share])] at h ⊢
    cases hs : w.step with
    | none => simp [hs] at h
    | some r =>
      have := work_lt_of_step hs
      have := work_shiftWithin_le turns (if w.wantsSignal then share - 1 else share) r.1
      simp only
      omega

theorem step_shift (w : Writer σ) (h : w.shift.paused = false) : w.shift.writer.step = none := by
  suffices H : ∀ (turns left : Nat) (w : Writer σ), w.work ≤ turns →
      (shiftWithin turns left w).paused = false →
        (shiftWithin turns left w).writer.step = none from H _ _ w (Nat.le_refl _) h
  intro turns
  induction turns with
  | zero =>
    intro left w hw _
    cases hs : w.step with
    | none => simpa [shiftWithin] using hs
    | some r => exact absurd (work_lt_of_step hs) (by omega)
  | succ turns ih =>
    intro left w hw hp
    unfold shiftWithin at hp ⊢
    split at hp
    · simp at hp
    · rename_i hl
      rw [if_neg hl]
      cases hs : w.step with
      | none => exact hs
      | some r =>
        rw [hs] at hp
        have := work_lt_of_step hs
        exact ih _ r.1 (by omega) hp

end Writer

end StyledEffects
