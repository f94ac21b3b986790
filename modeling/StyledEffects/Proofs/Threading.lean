import StyledEffects.Proofs.Isolation
import StyledEffects.Proofs.Rounds

/-! Values on their way between a source and a dispatcher, whatever the two are. Each instruction
of the source is dispatched once, and the next question takes to the source what the dispatcher
has made of it. The first error on either side is the end. A pump that has met the end or an
error leaves its source alone. -/

namespace StyledEffects

open Json

def instruction? : Except EffectError (Option Value) → Option Value
  | .ok v => v
  | .error _ => none

structure Handling where
  instruction : Value
  answer : Except EffectError (Option Value)

namespace Pump

variable {S : Type} {source : Source S}

def steps (source : Source S) :
    List (Option Value) → Pump S → List (Except EffectError (Option Value)) × Pump S
  | [], pump => ([], pump)
  | resume :: rest, pump =>
    let (answer, pump) := pump.step source resume
    let (answers, pump) := steps source rest pump
    (answer :: answers, pump)

theorem steps_append (first more : List (Option Value)) (pump : Pump S) :
    pump.steps source (first ++ more) =
      ((pump.steps source first).1 ++ ((pump.steps source first).2.steps source more).1,
        ((pump.steps source first).2.steps source more).2) := by
  induction first generalizing pump with
  | nil => rfl
  | cons resume rest ih => simp [steps, ih]

theorem step_counts (source : Source S) (resume : Option Value) (pump : Pump S) :
    (pump.step source resume).2.pulled =
        pump.pulled + (instruction? (pump.step source resume).1).toList.length ∧
      (instruction? (pump.step source resume).1 = none →
        (pump.step source resume).2.finished = true) := by
  cases hf : pump.finished with
  | true => simp [step, hf, instruction?]
  | false =>
    rcases ha : (source.advance resume pump.state).1.result with e | _ | v
    · simp [step_error hf ha, exhausted, instruction?]
    · simp [step_end hf ha, exhausted, instruction?]
    · simp [step_item hf ha, pulledOne, instruction?]

theorem steps_of_finished {pump : Pump S} (h : pump.finished = true)
    (resumes : List (Option Value)) :
    pump.steps source resumes = (List.replicate resumes.length (.ok none), pump) := by
  have still (resume : Option Value) : pump.step source resume = (.ok none, pump) := by
    simp [step, h]
  induction resumes with
  | nil => rfl
  | cons resume rest ih => simp [steps, still, ih, List.replicate_succ]

/-- Along any steps the instructions are counted, and an answer without one finishes the pump. -/
theorem steps_count (source : Source S) (resumes : List (Option Value)) (pump : Pump S) :
    (pump.steps source resumes).2.pulled =
        pump.pulled + ((pump.steps source resumes).1.filterMap instruction?).length ∧
      ((∃ a ∈ (pump.steps source resumes).1, instruction? a = none) →
        (pump.steps source resumes).2.finished = true) := by
  induction resumes generalizing pump with
  | nil => simp [steps]
  | cons resume rest ih =>
    obtain ⟨pulled, finished⟩ := step_counts source resume pump
    obtain ⟨later, finished'⟩ := ih (pump.step source resume).2
    simp only [steps]
    refine ⟨?_, ?_⟩
    · rw [later, pulled, List.filterMap_cons]
      cases instruction? (pump.step source resume).1 with
      | none => rfl
      | some v => simp only [Option.toList_some, List.length_cons, List.length_nil]; omega
    · rintro ⟨a, ha, hn⟩
      rcases List.mem_cons.1 ha with rfl | ha
      · rw [steps_of_finished (finished hn)]
        exact finished hn
      · exact finished' ⟨a, ha, hn⟩

end Pump

namespace Drive

variable {S D : Type}

/-- The same dispatcher, with a record of its calls, the last one first. -/
def keeping (dispatch : Value → D → Except EffectError (Option Value) × D) :
    Value → D × List Handling → Except EffectError (Option Value) × (D × List Handling) :=
  fun v (work, record) =>
    let (answer, work) := dispatch v work
    (answer, work, ⟨v, answer⟩ :: record)

section Records

variable (d : Drive (S × List Exchange) (D × List Handling))

def asked : List Exchange := d.pump.state.2.reverse

def handled : List Handling := d.work.2.reverse

def bare : Drive S D :=
  ⟨⟨d.pump.state.1, d.pump.pulled, d.pump.finished⟩, d.resume, d.work.1, d.result⟩

end Records

variable {source : Source S} {dispatch : Value → D → Except EffectError (Option Value) × D}
  {d : Drive (S × List Exchange) (D × List Handling)}

theorem bare_turn (d : Drive (S × List Exchange) (D × List Handling)) :
    (d.turn source.transcribing (keeping dispatch)).bare = d.bare.turn source dispatch := by
  obtain ⟨⟨⟨state, record⟩, pulled, finished⟩, resume, ⟨work, calls⟩, result⟩ := d
  cases result with
  | some result => rfl
  | none =>
    cases finished with
    | true => rfl
    | false =>
      rcases ha : (source.advance resume state).1.result with e | _ | v
      · simp [turn, bare, Pump.step, Source.transcribing, ha]
      · simp [turn, bare, Pump.step, Source.transcribing, ha]
      · rcases hd : dispatch v work with ⟨e | next, work'⟩ <;>
          simp [turn, bare, Pump.step, Source.transcribing, ha, keeping, hd]

theorem bare_run (rounds : Nat) (d : Drive (S × List Exchange) (D × List Handling)) :
    (d.run source.transcribing (keeping dispatch) rounds).bare =
      d.bare.run source dispatch rounds := by
  induction rounds with
  | zero => rfl
  | succ n ih => rw [run_succ, run_succ, bare_turn, ih]

/-- Questions that have all brought an instruction, and the calls with these, all of which have
gone well. The source is asked with nothing first and then with what each call has answered;
`next` is what the last one has. -/
structure InStep (asked : List Exchange) (handled : List Handling) (next : Option Value) :
    Prop where
  answers : asked.map Exchange.answer = handled.map fun h => .ok (some h.instruction)
  resumes : (asked.map Exchange.resume ++ [next]).map .ok =
    .ok none :: handled.map Handling.answer

theorem inStep_nil : InStep [] [] none := ⟨rfl, rfl⟩

theorem InStep.concat {asked : List Exchange} {handled : List Handling} {resume : Option Value}
    (h : InStep asked handled resume) (v : Value) (next : Option Value) :
    InStep (asked ++ [⟨resume, .ok (some v)⟩]) (handled ++ [⟨v, .ok next⟩]) next := by
  refine ⟨?_, ?_⟩
  · simp [h.answers]
  · have calls : (handled ++ [(⟨v, .ok next⟩ : Handling)]).map Handling.answer =
        handled.map Handling.answer ++ [.ok next] := List.map_append
    rw [calls, ← List.cons_append, ← h.resumes]
    simp

theorem InStep.length_eq {asked : List Exchange} {handled : List Handling}
    {next : Option Value} (h : InStep asked handled next) : asked.length = handled.length := by
  simpa using congrArg List.length h.answers

/-- What a loop has on record after some rounds: it goes on, or its last question or call has
been the end. -/
inductive Threads (rounds : Nat) (d : Drive (S × List Exchange) (D × List Handling)) : Prop
  | going (result : d.result = none) (unfinished : d.pump.finished = false)
      (pulled : d.pump.pulled = d.handled.length) (length : d.handled.length = rounds)
      (inStep : InStep d.asked d.handled d.resume)
  | ended {asked next} (result : d.result = some (.ok d.handled.length))
      (last : d.asked = asked ++ [⟨next, .ok none⟩]) (inStep : InStep asked d.handled next)
  | failed {asked next e} (result : d.result = some (.error e))
      (last : d.asked = asked ++ [⟨next, .error e⟩]) (inStep : InStep asked d.handled next)
  | refused {asked handled next v e} (result : d.result = some (.error e))
      (last : d.asked = asked ++ [⟨next, .ok (some v)⟩])
      (call : d.handled = handled ++ [⟨v, .error e⟩]) (inStep : InStep asked handled next)

theorem threads_new (state : S) (work : D) : Threads 0 (.new (state, []) (work, [])) :=
  .going rfl rfl rfl rfl inStep_nil

/-- A round asks one question more and, if that brings an instruction, makes one call more. -/
theorem Threads.turn {rounds : Nat} (h : Threads rounds d) :
    Threads (rounds + 1) (d.turn source.transcribing (keeping dispatch)) := by
  have stays (hr : d.result.isSome) :
      d.turn source.transcribing (keeping dispatch) = d := turn_of_result hr
  cases h with
  | ended result last inStep =>
    rw [stays (by rw [result]; rfl)]
    exact .ended result last inStep
  | failed result last inStep =>
    rw [stays (by rw [result]; rfl)]
    exact .failed result last inStep
  | refused result last call inStep =>
    rw [stays (by rw [result]; rfl)]
    exact .refused result last call inStep
  | going result unfinished pulled length inStep =>
    rcases ha : (source.transcribing.advance d.resume d.pump.state).1.result with e | _ | v
    · rw [turn_failed result unfinished ha]
      refine .failed rfl ?_ inStep
      rw [← ha]
      exact List.reverse_cons
    · rw [turn_ended result unfinished ha]
      refine .ended ?_ ?_ inStep
      · exact congrArg (some ∘ Except.ok) pulled
      · rw [← ha]
        exact List.reverse_cons
    · have question : (d.pump.pulledOne source.transcribing d.resume).state.2.reverse =
          d.asked ++ [⟨d.resume, .ok (some v)⟩] := by
        rw [← ha]
        exact List.reverse_cons
      rcases hd : dispatch v d.work.1 with ⟨e | next, work⟩
      · have call : keeping dispatch v d.work = (.error e, work, ⟨v, .error e⟩ :: d.work.2) := by
          simp [keeping, hd]
        rw [turn_refused result unfinished ha call]
        exact .refused rfl question List.reverse_cons inStep
      · have call : keeping dispatch v d.work = (.ok next, work, ⟨v, .ok next⟩ :: d.work.2) := by
          simp [keeping, hd]
        have handled : (⟨v, .ok next⟩ :: d.work.2).reverse = d.handled ++ [⟨v, .ok next⟩] :=
          List.reverse_cons
        rw [turn_carried result unfinished ha call]
        refine .going result rfl ?_ ?_ ?_
        · rw [Drive.handled, handled, List.length_append, ← pulled]
          rfl
        · rw [Drive.handled, handled, List.length_append, length]
          rfl
        · rw [Drive.asked, Drive.handled, question, handled]
          exact inStep.concat v next

theorem threads_run (source : Source S)
    (dispatch : Value → D → Except EffectError (Option Value) × D) (state : S) (work : D)
    (rounds : Nat) : Threads rounds
      ((Drive.new (state, []) (work, [])).run source.transcribing (keeping dispatch) rounds) := by
  induction rounds with
  | zero => exact threads_new state work
  | succ n ih =>
    rw [run_succ]
    exact ih.turn

/-! ## What the record says -/

section

variable {asked : List Exchange} {handled : List Handling} {next : Option Value}

theorem InStep.instructions (h : InStep asked handled next) :
    handled.map Handling.instruction = (asked.map Exchange.answer).filterMap instruction? := by
  rw [h.answers, List.filterMap_map, ← List.filterMap_eq_map]
  rfl

theorem InStep.answer_notMem (h : InStep asked handled next)
    (answer : Except EffectError (Option Value)) (ha : instruction? answer = none) :
    answer ∉ asked.map Exchange.answer := by
  rw [h.answers]
  intro hm
  obtain ⟨call, -, rfl⟩ := List.mem_map.1 hm
  cases ha

theorem InStep.error_notMem (h : InStep asked handled next) (e : EffectError) :
    .error e ∉ handled.map Handling.answer := by
  intro hm
  have answer := List.mem_cons_of_mem (.ok none) hm
  rw [← h.resumes] at answer
  obtain ⟨r, -, same⟩ := List.mem_map.1 answer
  cases same

end

variable {rounds : Nat}

theorem Threads.instructions (h : Threads rounds d) :
    d.handled.map Handling.instruction = (d.asked.map Exchange.answer).filterMap instruction? := by
  cases h with
  | going _ _ _ _ inStep => exact inStep.instructions
  | ended _ last inStep => simp [last, inStep.instructions, instruction?]
  | failed _ last inStep => simp [last, inStep.instructions, instruction?]
  | refused _ last call inStep => simp [last, call, inStep.instructions, instruction?]

/-- The source is told what the dispatcher has answered, one question later. -/
theorem Threads.resumes (h : Threads rounds d) :
    (d.asked.map Exchange.resume).map .ok <+: .ok none :: d.handled.map Handling.answer := by
  cases h with
  | going _ _ _ _ inStep =>
    rw [← inStep.resumes]
    exact (List.prefix_append _ _).map _
  | ended _ last inStep =>
    rw [← inStep.resumes, last, List.map_append]
    exact List.prefix_refl _
  | failed _ last inStep =>
    rw [← inStep.resumes, last, List.map_append]
    exact List.prefix_refl _
  | refused _ last call inStep =>
    rw [call, List.map_append, ← List.cons_append, ← inStep.resumes, last, List.map_append]
    exact List.prefix_append _ _

theorem Threads.result_ok_iff (h : Threads rounds d) (count : Nat) :
    d.result = some (.ok count) ↔
      .ok none ∈ d.asked.map Exchange.answer ∧ count = d.handled.length := by
  cases h with
  | going result _ _ _ inStep =>
    have open' := inStep.answer_notMem (.ok none) rfl
    simp [result, open', -List.mem_map]
  | ended result last inStep => simp [result, last, eq_comm]
  | failed result last inStep =>
    have open' := inStep.answer_notMem (.ok none) rfl
    simp [result, last, open', -List.mem_map]
  | refused result last call inStep =>
    have open' := inStep.answer_notMem (.ok none) rfl
    simp [result, last, open', -List.mem_map]

theorem Threads.result_error_iff (h : Threads rounds d) (e : EffectError) :
    d.result = some (.error e) ↔
      .error e ∈ d.asked.map Exchange.answer ∨ .error e ∈ d.handled.map Handling.answer := by
  cases h with
  | going result _ _ _ inStep =>
    have well := inStep.answer_notMem (.error e) rfl
    simp [result, well, inStep.error_notMem, -List.mem_map]
  | ended result last inStep =>
    have well := inStep.answer_notMem (.error e) rfl
    simp [result, last, well, inStep.error_notMem, -List.mem_map]
  | failed result last inStep =>
    have well := inStep.answer_notMem (.error e) rfl
    simp [result, last, well, inStep.error_notMem, eq_comm, -List.mem_map]
  | refused result last call inStep =>
    have well := inStep.answer_notMem (.error e) rfl
    simp [result, last, call, well, inStep.error_notMem, eq_comm, -List.mem_map]

/-- The source has been asked as often as the dispatcher has been called, or once more if the last
question has met the end or an error. -/
theorem Threads.length_asked (h : Threads rounds d) :
    (d.result = none → d.asked.length = rounds ∧ d.handled.length = rounds) ∧
    ((∃ answer ∈ d.asked.map Exchange.answer, instruction? answer = none) →
      d.asked.length = d.handled.length + 1) ∧
    ((∃ e, .error e ∈ d.handled.map Handling.answer) → d.asked.length = d.handled.length) := by
  cases h with
  | going result _ _ length inStep =>
    refine ⟨fun _ => ⟨inStep.length_eq.trans length, length⟩, ?_, fun _ => inStep.length_eq⟩
    rintro ⟨answer, hm, ha⟩
    exact absurd hm (inStep.answer_notMem answer ha)
  | ended result last inStep =>
    refine ⟨by simp [result], fun _ => by simp [last, inStep.length_eq], ?_⟩
    rintro ⟨e, hm⟩
    exact absurd hm (inStep.error_notMem e)
  | failed result last inStep =>
    refine ⟨by simp [result], fun _ => by simp [last, inStep.length_eq], ?_⟩
    rintro ⟨e, hm⟩
    exact absurd hm (inStep.error_notMem e)
  | refused result last call inStep =>
    refine ⟨by simp [result], ?_, fun _ => by simp [last, call, inStep.length_eq]⟩
    rintro ⟨answer, hm, ha⟩
    rw [last, List.map_append] at hm
    rcases List.mem_append.1 hm with hm | hm
    · exact absurd hm (inStep.answer_notMem answer ha)
    · obtain rfl := List.mem_singleton.1 hm
      cases ha

end Drive

section

variable {S D : Type}

/-- For any source and any dispatcher, after any number of rounds, with both on record. The calls
are made with the instructions that the source has answered with, and the source is asked with
nothing first and then with the answers to the calls. A loop that goes on has asked and called
once a round. It has an error as its result exactly if that is on record, and the number of
calls if the end is; after that nothing is asked. The source has been asked once more than there
are calls if it has met the end or an error, and just as often if a call has failed. A pump
counts its instructions; after any other answer it has no more, and asks no more. -/
theorem values_threaded (source : Source S)
    (dispatch : Value → D → Except EffectError (Option Value) × D) (state : S) (work : D)
    (rounds : Nat) :
    let start := Drive.new (state, ([] : List Exchange)) (work, ([] : List Handling))
    let d := start.run source.transcribing (Drive.keeping dispatch) rounds
    let replies := d.asked.map Exchange.answer
    let answers := d.handled.map Handling.answer
    d.bare = (Drive.new state work).run source dispatch rounds ∧
    d.handled.map Handling.instruction = replies.filterMap instruction? ∧
    (d.asked.map Exchange.resume).map .ok <+: .ok none :: answers ∧
    (d.result = none → d.asked.length = rounds ∧ d.handled.length = rounds) ∧
    (∀ count, d.result = some (.ok count) ↔ .ok none ∈ replies ∧ count = d.handled.length) ∧
    (∀ e, d.result = some (.error e) ↔ .error e ∈ replies ∨ .error e ∈ answers) ∧
    (d.result.isSome →
      ∀ more, start.run source.transcribing (Drive.keeping dispatch) (rounds + more) = d) ∧
    ((∃ reply ∈ replies, instruction? reply = none) →
      d.asked.length = d.handled.length + 1) ∧
    ((∃ e, .error e ∈ answers) → d.asked.length = d.handled.length) ∧
    ∀ (pump : Pump (S × List Exchange)) (resumes more : List (Option Value)),
      let stepped := pump.steps source.transcribing resumes
      stepped.2.pulled = pump.pulled + (stepped.1.filterMap instruction?).length ∧
      ((∃ reply ∈ stepped.1, instruction? reply = none) →
        pump.steps source.transcribing (resumes ++ more) =
          (stepped.1 ++ List.replicate more.length (.ok none), stepped.2)) := by
  intro start d replies answers
  have threads : Drive.Threads rounds d := Drive.threads_run source dispatch state work rounds
  obtain ⟨going, asked, refused⟩ := threads.length_asked
  refine ⟨Drive.bare_run rounds start, threads.instructions, threads.resumes, going,
    threads.result_ok_iff, threads.result_error_iff, fun ended more => ?_, asked, refused, ?_⟩
  · rw [Drive.run_add, Drive.run_of_result more ended]
  · intro pump resumes more stepped
    obtain ⟨pulled, finished⟩ := pump.steps_count source.transcribing resumes
    refine ⟨pulled, fun ended => ?_⟩
    rw [Pump.steps_append, Pump.steps_of_finished (finished ended)]

/-- A source that announces what it is told, three times. -/
def echo : Source Nat where
  advance
    | _, 0 => (.done, 0)
    | resume, n + 1 => (.deferred true (.ok (some (resume.getD (.string "start")))), n)

/-- Answers each call with a number, counted down, and refuses at zero. -/
def countdown : Value → Nat → Except EffectError (Option Value) × Nat
  | _, 0 => (.error .popOnEmptyStack, 0)
  | _, n + 1 => (.ok (some (.string (toString n))), n)

/-- The second call is with the answer to the first, and is refused. The end is not reached. -/
theorem echo_refused :
    let d := (Drive.new (3, ([] : List Exchange)) (1, ([] : List Handling))).run
      echo.transcribing (Drive.keeping countdown) 5
    d.handled.map Handling.instruction = [.string "start", .string "0"] ∧
      d.result = some (.error .popOnEmptyStack) ∧ d.asked.length = 2 ∧
      (Pump.new (1, ([] : List Exchange))).steps echo.transcribing
          ([none, none] ++ [some (.string "late")]) =
        ([.ok (some (.string "start")), .ok none, .ok none],
          ((Pump.new (1, [])).steps echo.transcribing [none, none]).2) := by
  intro d
  obtain ⟨-, instructions, -, -, -, error, -, -, refused, pumps⟩ :=
    values_threaded echo countdown 3 1 5
  obtain ⟨-, stopped⟩ := pumps (.new (1, [])) [none, none] [some (.string "late")]
  have refusal : .error .popOnEmptyStack ∈ d.handled.map Handling.answer :=
    List.mem_cons_of_mem _ List.mem_cons_self
  refine ⟨instructions, (error .popOnEmptyStack).2 (Or.inr refusal), refused ⟨_, refusal⟩, ?_⟩
  exact stopped ⟨.ok none, List.mem_cons_of_mem _ List.mem_cons_self, rfl⟩

end

end StyledEffects
