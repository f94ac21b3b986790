import StyledEffects.Proofs.Bursts
import StyledEffects.Wire.Instruction

/-! Instructions sent to a core one after the other, whether they fail or not. One that fails
hands nothing over and leaves the core as it is, so that those after it never know of it. One
that is carried out hands over its own text or the bursts of a change of style. -/

namespace StyledEffects

open Json Style Wire

/-- An instruction that has been sent to a core: the core before and after it, the result, and
what has been handed over. -/
structure Attempt where
  instruction : Value
  before : Core
  result : Except EffectError (Option Value)
  after : Core
  outputs : List Output

namespace Attempt

def succeeded (a : Attempt) : Bool := a.result.isOk

@[simp] theorem succeeded_ok (v : Value) (core core' : Core) (next : Option Value)
    (outputs : List Output) : succeeded ⟨v, core, .ok next, core', outputs⟩ = true := rfl

@[simp] theorem succeeded_error (v : Value) (core core' : Core) (e : EffectError)
    (outputs : List Output) : succeeded ⟨v, core, .error e, core', outputs⟩ = false := rfl

end Attempt

namespace Core

def attempt (core : Core) (v : Value) : Attempt :=
  let (result, after, outputs) := core.dispatch v
  ⟨v, core, result, after, outputs⟩

/-- Instructions sent one after the other. One that fails does not stop those after it. -/
def attempts : List Value → Core → List Attempt
  | [], _ => []
  | v :: rest, core => core.attempt v :: (core.attempt v).after.attempts rest

def sent (instructions : List Value) (core : Core) : Core :=
  instructions.foldl (fun core v => (core.attempt v).after) core

inductive Rejects (core : Core) (v : Value) : EffectError → Prop
  | undecodable {e} (h : decode v = .error e) : Rejects core v e
  | escape {text channel} (h : decode v = .ok (.write text channel))
      (escaped : esc ∈ text.toList) : Rejects core v .escapeInWrite
  | underflow (h : decode v = .ok .pop) (bare : core.stack.isEmpty) :
    Rejects core v .popOnEmptyStack

end Core

inductive Attempt.Lawful : Attempt → Prop
  | failed {v e} {core : Core} (why : core.Rejects v e) : Lawful ⟨v, core, .error e, core, []⟩
  | written {v text channel} {core : Core} (h : decode v = .ok (.write text channel))
      (plain : esc ∉ text.toList) : Lawful ⟨v, core, .ok none, core, [.text channel text]⟩
  | restyled {v effect} {core core' : Core} {bursts : List String} (h : decode v = .ok effect)
      (change : effect.verb ≠ .write)
      (frames : reopened core.stack.frames effect = some core'.stack.frames)
      (few : bursts.length ≤ 2) (nonempty : "" ∉ bursts) :
    Lawful ⟨v, core, .ok none, core', bursts.map .control⟩

namespace Core

theorem bursts_between_spec (table : Table) (old new : Frame) :
    (Transition.between table old new).bursts.length ≤ 2 ∧
      "" ∉ (Transition.between table old new).bursts := by
  rw [bursts_between]
  exact ⟨List.length_filter_le _ _, by simp⟩

theorem attempt_of_dispatch {core core' : Core} {v : Value} {outputs : List Output}
    {result : Except EffectError (Option Value)}
    (h : core.dispatch v = (result, core', outputs)) :
    core.attempt v = ⟨v, core, result, core', outputs⟩ := by
  rw [attempt, h]

theorem attempt_of_error {core : Core} {v : Value} {e : EffectError} (h : decode v = .error e) :
    core.attempt v = ⟨v, core, .error e, core, []⟩ := by
  simp only [attempt, dispatch, h]

theorem attempt_of_ok {core : Core} {v : Value} {effect : Effect} (h : decode v = .ok effect) :
    core.attempt v = ⟨v, core, (core.perform effect).1.map fun _ => none,
      (core.perform effect).2.1, (core.perform effect).2.2⟩ := by
  simp only [attempt, dispatch, h]

theorem attempt_lawful (core : Core) (v : Value) : (core.attempt v).Lawful := by
  cases hd : decode v with
  | error e =>
    rw [attempt_of_error hd]
    exact .failed (.undecodable hd)
  | ok effect =>
    rw [attempt_of_ok hd]
    cases effect with
    | write text channel =>
      cases he : hasEscape text with
      | true =>
        simp only [perform, he, if_true]
        exact .failed (.escape hd (hasEscape_eq_true.1 he))
      | false =>
        simp only [perform, he, Bool.false_eq_true, if_false]
        exact .written hd (hasEscape_eq_false.1 he)
    | push spans =>
      obtain ⟨few, nonempty⟩ :=
        bursts_between_spec core.table core.stack.current ⟨core.stack.spansFor spans⟩
      exact .restyled hd (by simp [Effect.verb]) (reopened_push core.stack spans) few nonempty
    | pop =>
      cases hs : core.stack with
      | empty =>
        simp only [perform, hs, Stack.pop?]
        exact .failed (.underflow hd (by rw [hs]; rfl))
      | on frame below depth =>
        obtain ⟨few, nonempty⟩ := bursts_between_spec core.table frame below.current
        simp only [perform, hs, Stack.pop?]
        exact .restyled hd (by decide) (by rw [hs]; rfl) few nonempty

theorem attempt_of_failed {core : Core} {v : Value} (h : (core.attempt v).succeeded = false) :
    (core.attempt v).after = core ∧ (core.attempt v).outputs = [] := by
  have before : (core.attempt v).before = core := rfl
  have lawful := core.attempt_lawful v
  generalize core.attempt v = a at h before lawful
  cases lawful with
  | failed why => exact ⟨before, rfl⟩
  | written hd plain => cases h
  | restyled hd change frames few nonempty => cases h

theorem sent_cons (v : Value) (rest : List Value) (core : Core) :
    core.sent (v :: rest) = (core.attempt v).after.sent rest := rfl

theorem attempts_append (earlier later : List Value) (core : Core) :
    core.attempts (earlier ++ later) =
      core.attempts earlier ++ (core.sent earlier).attempts later := by
  induction earlier generalizing core with
  | nil => rfl
  | cons v rest ih => rw [List.cons_append, attempts, ih, attempts, sent_cons, List.cons_append]

theorem length_attempts (instructions : List Value) (core : Core) :
    (core.attempts instructions).length = instructions.length := by
  induction instructions generalizing core with
  | nil => rfl
  | cons v rest ih => rw [attempts, List.length_cons, List.length_cons, ih]

theorem attempts_lawful (instructions : List Value) (core : Core) :
    ∀ a ∈ core.attempts instructions, a.Lawful := by
  induction instructions generalizing core with
  | nil => exact List.forall_mem_nil _
  | cons v rest ih => exact List.forall_mem_cons.2 ⟨core.attempt_lawful v, ih _⟩

def carried (instructions : List Value) (core : Core) : List Value :=
  ((core.attempts instructions).filter Attempt.succeeded).map Attempt.instruction

theorem carried_cons_of_succeeded {core : Core} {v : Value} (rest : List Value)
    (h : (core.attempt v).succeeded = true) :
    core.carried (v :: rest) = v :: (core.attempt v).after.carried rest := by
  rw [carried, attempts, List.filter_cons_of_pos h, List.map_cons]
  rfl

theorem carried_cons_of_failed {core : Core} {v : Value} (rest : List Value)
    (h : (core.attempt v).succeeded = false) : core.carried (v :: rest) = core.carried rest := by
  rw [carried, attempts, List.filter_cons_of_neg (ne_true_of_eq_false h), (attempt_of_failed h).1]
  rfl

/-- With the failing instructions left out the others do what they did before. -/
theorem attempts_carried (instructions : List Value) (core : Core) :
    core.attempts (core.carried instructions) =
        (core.attempts instructions).filter Attempt.succeeded ∧
      core.sent (core.carried instructions) = core.sent instructions := by
  induction instructions generalizing core with
  | nil => exact ⟨rfl, rfl⟩
  | cons v rest ih =>
    cases h : (core.attempt v).succeeded with
    | true =>
      obtain ⟨same, last⟩ := ih (core.attempt v).after
      rw [carried_cons_of_succeeded rest h, attempts, same, attempts, List.filter_cons_of_pos h]
      exact ⟨rfl, last⟩
    | false =>
      obtain ⟨same, last⟩ := ih core
      rw [carried_cons_of_failed rest h, attempts, List.filter_cons_of_neg (ne_true_of_eq_false h),
        sent_cons, (attempt_of_failed h).1]
      exact ⟨same, last⟩

theorem outputs_carried (instructions : List Value) (core : Core) :
    ((core.attempts instructions).filter Attempt.succeeded).flatMap Attempt.outputs =
      (core.attempts instructions).flatMap Attempt.outputs := by
  induction instructions generalizing core with
  | nil => rfl
  | cons v rest ih =>
    cases h : (core.attempt v).succeeded with
    | true => rw [attempts, List.filter_cons_of_pos h, List.flatMap_cons, ih, List.flatMap_cons]
    | false =>
      rw [attempts, List.filter_cons_of_neg (ne_true_of_eq_false h), ih, List.flatMap_cons,
        (attempt_of_failed h).2, List.nil_append]

end Core

/-- Instructions sent to a core in any state, with any style table. One that fails hands nothing
over and leaves the core as it is. One that is carried out is a write, which hands over its text
as it is, without an escape character, and leaves the core alone, or a push or a pop, which hands
over two bursts at most, none of them empty. So an instruction that fails can as well be left
out: those after it do the same, and without all of those that fail the others do what they did. -/
theorem failed_instructions_leave_no_trace (core : Core) (instructions : List Value) :
    (∀ a ∈ core.attempts instructions, a.Lawful) ∧
    core.attempts (core.carried instructions) =
      (core.attempts instructions).filter Attempt.succeeded ∧
    (core.attempts (core.carried instructions)).flatMap Attempt.outputs =
      (core.attempts instructions).flatMap Attempt.outputs ∧
    core.sent (core.carried instructions) = core.sent instructions ∧
    ∀ earlier v later, instructions = earlier ++ v :: later →
      ((core.sent earlier).attempt v).succeeded = false →
        core.sent (earlier ++ [v]) = core.sent earlier ∧
        core.attempts (earlier ++ later) = core.attempts earlier ++
          (core.attempts instructions).drop (earlier.length + 1) := by
  obtain ⟨same, last⟩ := core.attempts_carried instructions
  refine ⟨core.attempts_lawful instructions, same, ?_, last, ?_⟩
  · rw [same]
    exact core.outputs_carried instructions
  · rintro earlier v later rfl fails
    have kept := (Core.attempt_of_failed fails).1
    constructor
    · rw [Core.sent, List.foldl_append]
      exact kept
    · have count : earlier.length = (core.attempts earlier).length :=
        (core.length_attempts earlier).symm
      rw [core.attempts_append, core.attempts_append, count, List.drop_append,
        Core.attempts, kept]
      simp

def boldTextAmongFailures : List Value :=
  [Instruction.pop, Instruction.push [.bold], Instruction.write "\x1b[0m" 1, Instruction.write "a" 1,
    .null, Instruction.pop]

/-- Without the three that fail, or without the first of them, the others do the same. -/
theorem boldTextAmongFailures_carried :
    let core := Core.new .ansi
    let sent := [Instruction.push [.bold], Instruction.write "a" 1, Instruction.pop]
    core.carried boldTextAmongFailures = sent ∧
      (core.attempts sent).flatMap Attempt.outputs =
        [.control "\x1b[1m", .text .primary "a", .control "\x1b[22m"] ∧
      (core.attempts boldTextAmongFailures).flatMap Attempt.outputs =
        [.control "\x1b[1m", .text .primary "a", .control "\x1b[22m"] ∧
      (core.attempt Instruction.pop).succeeded = false ∧
      core.attempts boldTextAmongFailures.tail =
        (core.attempts boldTextAmongFailures).drop 1 := by
  intro core sent
  have carried : core.carried boldTextAmongFailures = sent := rfl
  have fails : (core.attempt Instruction.pop).succeeded = false := rfl
  obtain ⟨-, -, outputs, -, without⟩ :=
    failed_instructions_leave_no_trace core boldTextAmongFailures
  obtain ⟨-, later⟩ := without [] Instruction.pop boldTextAmongFailures.tail rfl fails
  rw [carried] at outputs
  exact ⟨carried, by decide, outputs.symm.trans (by decide), fails, later⟩

end StyledEffects
