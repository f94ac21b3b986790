import StyledEffects.Core
import StyledEffects.Writer.Shift

/-! Output on two streams that may end up on one terminal. Each channel has a writer. When a
text goes to the other channel than the text before it, it starts on a new line. Escapes all
go to the primary channel. -/

namespace StyledEffects

open Wire

structure Sink (σ τ : Type) where
  /-- The channel of the last text. -/
  active : Option Channel
  primary : Writer σ
  secondary : Writer τ
  /-- The writers whose tasks have something new to look at, in the order they got it. -/
  woken : List Channel

namespace Sink

variable {σ τ : Type}

/-- Both tasks are yet to look at their queues for the first time. -/
def new (primary : σ) (secondary : τ) : Sink σ τ :=
  ⟨none, .new "primary" primary, .new "secondary" secondary, [.primary, .secondary]⟩

def startsLine (text : String) : Bool := text.toList.head? = some '\n'

def forcesNewline (active : Option Channel) (channel : Channel) (text : String) : Bool :=
  match active with
  | none => false
  | some active => active ≠ channel && !startsLine text

def wake (channel : Channel) (s : Sink σ τ) : Sink σ τ :=
  if channel ∈ s.woken then s else { s with woken := s.woken ++ [channel] }

def send (channel : Channel) (text : String) (s : Sink σ τ) : Sink σ τ × List Log.Event :=
  let s := if text = "" then s else s.wake channel
  match channel with
  | .primary =>
    let (primary, events) := s.primary.send text
    ({ s with primary }, events)
  | .secondary =>
    let (secondary, events) := s.secondary.send text
    ({ s with secondary }, events)

def writeText (channel : Channel) (text : String) (s : Sink σ τ) : Sink σ τ × List Log.Event :=
  let s' := { s with active := some channel }
  if forcesNewline s.active channel text then
    let (s', events) := s'.send channel ("\n" ++ text)
    (s', .switching (s.active.getD channel) channel :: events)
  else s'.send channel text

def writeControl (escapes : String) (s : Sink σ τ) : Sink σ τ × List Log.Event :=
  s.send .primary escapes

def put (output : Output) (s : Sink σ τ) : Sink σ τ × List Log.Event :=
  match output with
  | .text channel text => s.writeText channel text
  | .control escapes => s.writeControl escapes

def close (s : Sink σ τ) : Sink σ τ :=
  let s := { s with primary := s.primary.close, secondary := s.secondary.close }
  (s.wake .primary).wake .secondary

variable [OutputStream σ] [OutputStream τ]

/-- A shift of one task. If it pauses it is the first to go on. -/
def shiftOne (channel : Channel) (s : Sink σ τ) : Sink σ τ × List Log.Event :=
  match channel with
  | .primary =>
    let shift := s.primary.shift
    ({ s with
        primary := shift.writer
        woken := if shift.paused then .primary :: s.woken else s.woken }, shift.events)
  | .secondary =>
    let shift := s.secondary.shift
    ({ s with
        secondary := shift.writer
        woken := if shift.paused then .secondary :: s.woken else s.woken }, shift.events)

def shiftEach : List Channel → Sink σ τ → Sink σ τ × List Log.Event
  | [], s => (s, [])
  | channel :: rest, s =>
    let (s, events) := s.shiftOne channel
    let (s, later) := shiftEach rest s
    (s, events ++ later)

/-- A round: a shift of each task that has been woken. Of those that pause, the last one is
the first in the next round. -/
def round (s : Sink σ τ) : Sink σ τ × List Log.Event :=
  shiftEach s.woken { s with woken := [] }

omit [OutputStream σ] [OutputStream τ] in
def work (s : Sink σ τ) : Nat := s.primary.work + s.secondary.work

def settleWithin : Nat → Sink σ τ → Sink σ τ × List Log.Event
  | 0, s => (s, [])
  | rounds + 1, s =>
    if s.woken.isEmpty then (s, [])
    else
      let (s, events) := s.round
      let (s, later) := settleWithin rounds s
      (s, events ++ later)

/-- How many rounds are enough. After each one but the last a task has paused, so there is
less work left. -/
def roundsLeft (s : Sink σ τ) : Nat := s.work + 1

def settle (s : Sink σ τ) : Sink σ τ × List Log.Event := settleWithin s.roundsLeft s

theorem work_shiftOne (channel : Channel) (s : Sink σ τ) :
    (s.shiftOne channel).1.work ≤ s.work ∧
      ((s.shiftOne channel).1.woken = s.woken ∨ (s.shiftOne channel).1.work < s.work) := by
  cases channel with
  | primary =>
    have hle := s.primary.work_shift_le
    cases hp : s.primary.shift.paused with
    | false => simp [shiftOne, work, hp, hle]
    | true =>
      have := s.primary.work_shift_lt hp
      simp [shiftOne, work, this, hle]
  | secondary =>
    have hle := s.secondary.work_shift_le
    cases hp : s.secondary.shift.paused with
    | false => simp [shiftOne, work, hp, hle]
    | true =>
      have := s.secondary.work_shift_lt hp
      simp [shiftOne, work, this, hle]

theorem work_shiftEach (channels : List Channel) (s : Sink σ τ) :
    (shiftEach channels s).1.work ≤ s.work ∧
      ((shiftEach channels s).1.woken = s.woken ∨ (shiftEach channels s).1.work < s.work) := by
  induction channels generalizing s with
  | nil => simp [shiftEach]
  | cons channel rest ih =>
    have one := work_shiftOne channel s
    have all := ih (s.shiftOne channel).1
    simp only [shiftEach]
    refine ⟨by omega, ?_⟩
    rcases one.2 with h | h
    · rcases all.2 with h' | h'
      · exact .inl (h'.trans h)
      · exact .inr (by omega)
    · exact .inr (by omega)

theorem work_round_lt (s : Sink σ τ) (h : s.round.1.woken ≠ []) : s.round.1.work < s.work :=
  (work_shiftEach s.woken { s with woken := [] }).2.resolve_left h

theorem woken_settleWithin (rounds : Nat) (s : Sink σ τ)
    (h : s.woken ≠ [] → s.work < rounds) :
    (settleWithin rounds s).1.woken = [] := by
  induction rounds generalizing s with
  | zero =>
    by_cases hw : s.woken = []
    · simpa [settleWithin] using hw
    · exact absurd (h hw) (by omega)
  | succ rounds ih =>
    unfold settleWithin
    by_cases hw : s.woken = []
    · simp [hw]
    · rw [if_neg (by simpa using hw)]
      refine ih s.round.1 fun hr => ?_
      have := work_round_lt s hr
      have := h hw
      omega

theorem woken_settle (s : Sink σ τ) : s.settle.1.woken = [] :=
  woken_settleWithin _ s fun _ => Nat.lt_succ_self _

omit [OutputStream σ] [OutputStream τ] in
/-- The outcome of the two tasks, once both have stopped: the first error, the primary
writer's before the secondary's. -/
def outcome? (s : Sink σ τ) : Option Outcome :=
  match s.primary.stopped?, s.secondary.stopped? with
  | some (.error e), some _ => some (.error e)
  | some (.ok ()), some outcome => some outcome
  | _, _ => none

end Sink

end StyledEffects
