import StyledEffects.Proofs.Atomicity
import StyledEffects.Proofs.Grammar
import StyledEffects.Proofs.Isolation
import StyledEffects.Proofs.Rounds

/-! A run into chunks asks its source as late as possible. What comes from an answer is handed
out before the source is asked again, an error is handed out last, and after it the source is
not asked any more. -/

namespace StyledEffects

open Json Style Wire

abbrev Answer := Except EffectError (Option Value)

structure Handout where
  item : Except EffectError String
  asked : Nat

namespace Core

/-- What comes from the answers of a source, each item with the position of its answer. -/
def due (core : Core) (position : Nat) : List Answer → List Handout
  | [] => []
  | .error e :: _ => [⟨.error e, position⟩]
  | .ok none :: _ =>
    match core.finish with
    | .ok () => []
    | .error e => [⟨.error e, position⟩]
  | .ok (some v) :: later =>
    match core.dispatch v with
    | (.error e, _, _) => [⟨.error e, position⟩]
    | (.ok _, core, outputs) =>
      (outputs.filterMap PureRun.chunkOf).map (⟨.ok ·, position⟩) ++ core.due (position + 1) later

/-- The answers that a run ends with, and what is handed out last. -/
inductive Closes (core : Core) : Answer → Option (Except EffectError String) → Prop
  | settled (h : core.stack.isEmpty) : Closes core (.ok none) none
  | unbalanced (h : core.stack.isEmpty = false) :
    Closes core (.ok none) (some (.error (.unbalancedStack core.stack.depth)))
  | failed {e} : Closes core (.error e) (some (.error e))
  | refused {v e} (h : core.dispatch v = (.error e, core, [])) :
    Closes core (.ok (some v)) (some (.error e))

variable {core core' : Core} {v : Value}

theorem closes_end (core : Core) :
    (core.finish = .ok () ∧ core.Closes (.ok none) none) ∨
      ∃ e, core.finish = .error e ∧ core.Closes (.ok none) (some (.error e)) := by
  cases h : core.stack.isEmpty with
  | true => exact .inl ⟨by rw [finish, if_pos h], .settled h⟩
  | false => exact .inr ⟨_, by rw [finish, h]; rfl, .unbalanced h⟩

theorem eq_of_refused {e : EffectError} {outputs : List Output}
    (h : core.dispatch v = (.error e, core', outputs)) : core' = core ∧ outputs = [] := by
  have attempted := attempt_of_dispatch h
  have failed : (core.attempt v).succeeded = false := by rw [attempted]; rfl
  have kept := attempt_of_failed failed
  rwa [attempted] at kept

theorem sent_concat (instructions : List Value) (v : Value) (core : Core) :
    core.sent (instructions ++ [v]) = ((core.sent instructions).attempt v).after := by
  rw [sent, List.foldl_append]
  rfl

theorem due_of_closes {answer : Answer} {last : Option (Except EffectError String)}
    (h : core.Closes answer last) (position : Nat) (later : List Answer) :
    core.due position (answer :: later) = last.toList.map (⟨·, position⟩) := by
  cases h with
  | settled h => simp [due, finish, h]
  | unbalanced h => simp [due, finish, h]
  | failed => rfl
  | refused h => simp [due, h]

theorem due_of_dispatch {next : Option Value} {outputs : List Output}
    (h : core.dispatch v = (.ok next, core', outputs)) (position : Nat) (later : List Answer) :
    core.due position (.ok (some v) :: later) =
      (outputs.filterMap PureRun.chunkOf).map (⟨.ok ·, position⟩) ++
        core'.due (position + 1) later := by
  simp [due, h]

end Core

namespace Wire

end Wire

namespace PureRun

variable {S : Type} {source : Source S}

def answers (r : PureRun (S × List Exchange)) : List Answer :=
  r.pump.state.2.reverse.map Exchange.answer

/-- What the next `steps` steps hand out, each item with the number of times that the source has
been asked when the step is over. -/
def handouts (source : Source S) : Nat → PureRun (S × List Exchange) → List Handout
  | 0, _ => []
  | steps + 1, r =>
    match r.step source.transcribing with
    | none => []
    | some (none, r) => handouts source steps r
    | some (some item, r) => ⟨item, r.answers.length⟩ :: handouts source steps r

/-- What one step does that is no end: it hands out a chunk that is there, or else it asks the
source once and takes what comes of the answer. -/
inductive Step (r : PureRun (S × List Exchange)) :
    Option (Except EffectError String) → PureRun (S × List Exchange) → Prop
  | handsOut {chunk chunks} (h : r.chunks = chunk :: chunks) :
    Step r (some (.ok chunk)) { r with chunks }
  | carries {pump next core outputs v} (h : r.chunks = []) (unfinished : pump.finished = false)
      (asked : pump.state.2 = ⟨r.resume, .ok (some v)⟩ :: r.pump.state.2)
      (hd : r.core.dispatch v = (.ok next, core, outputs)) :
    Step r none { r with pump, core, resume := next, chunks := outputs.filterMap chunkOf }
  | ends {pump answer last} (h : r.chunks = [])
      (asked : pump.state.2 = ⟨r.resume, answer⟩ :: r.pump.state.2)
      (hc : r.core.Closes answer last) : Step r last { r with pump, ended := true }

theorem exists_step (source : Source S) {r : PureRun (S × List Exchange)} (going : r.ended = false)
    (unfinished : r.pump.finished = false) :
    ∃ item r', r.step source.transcribing = some (item, r') ∧ Step r item r' := by
  obtain ⟨pump, resume, core, chunks, ended⟩ := r
  obtain rfl : ended = false := going
  cases chunks with
  | cons chunk chunks => exact ⟨_, _, rfl, .handsOut rfl⟩
  | nil =>
    have noted : ∀ {answer}, (source.transcribing.advance resume pump.state).1.result = answer →
        (source.transcribing.advance resume pump.state).2.2 = ⟨resume, answer⟩ :: pump.state.2 := by
      rintro _ rfl
      rfl
    rcases ha : (source.transcribing.advance resume pump.state).1.result with e | _ | v
    · have pull := Pump.step_error unfinished ha
      exact ⟨_, _, by simp only [step, pull]; rfl, .ends rfl (noted ha) .failed⟩
    · have pull := Pump.step_end unfinished ha
      rcases core.closes_end with ⟨h, closes⟩ | ⟨e, h, closes⟩
      · exact ⟨_, _, by simp only [step, pull, h]; rfl, .ends rfl (noted ha) closes⟩
      · exact ⟨_, _, by simp only [step, pull, h]; rfl, .ends rfl (noted ha) closes⟩
    · have pull := Pump.step_item unfinished ha
      rcases hd : core.dispatch v with ⟨e | next, core', outputs⟩
      · obtain ⟨rfl, rfl⟩ := Core.eq_of_refused hd
        exact ⟨_, _, by simp only [step, pull, hd]; rfl, .ends rfl (noted ha) (.refused hd)⟩
      · exact ⟨_, _, by simp only [step, pull, hd]; rfl, .carries rfl rfl (noted ha) hd⟩

theorem answers_of_asked {r r' : PureRun (S × List Exchange)} {answer : Answer}
    (h : r'.pump.state.2 = ⟨r.resume, answer⟩ :: r.pump.state.2) :
    r'.answers = r.answers ++ [answer] := by
  simp [answers, h]

def pulled (instructions : List Value) : List Answer := instructions.map fun v => .ok (some v)

/-- A run that goes on. All answers are instructions that have been carried out, only chunks have
been handed out, and what is due is what has been handed out, then the chunks that are there, then
what comes from later answers. -/
structure Going (first : Core) (r : PureRun (S × List Exchange)) (given : List Handout) : Prop where
  going : r.ended = false
  unfinished : r.pump.finished = false
  moving : ∃ instructions, r.answers = pulled instructions ∧ r.core = first.sent instructions
  fine : ∀ handout ∈ given, handout.item.isOk
  due : ∀ later, first.due 1 (r.answers ++ later) =
    given ++ r.chunks.map (⟨.ok ·, r.answers.length⟩) ++ r.core.due (r.answers.length + 1) later

/-- A run that has ended. What is due has been handed out, and more answers would not add to it.
All instructions before the last answer have been carried out. -/
structure Over (first : Core) (r : PureRun (S × List Exchange)) (given : List Handout) : Prop where
  ended : r.ended = true
  due : ∀ later, first.due 1 (r.answers ++ later) = given
  closed : ∃ instructions answer chunks last, r.answers = pulled instructions ++ [answer] ∧
    (first.sent instructions).Closes answer last ∧ (∀ handout ∈ chunks, handout.item.isOk) ∧
    given = chunks ++ last.toList.map (⟨·, r.answers.length⟩)

theorem Going.step {first : Core} {r r' : PureRun (S × List Exchange)} {given : List Handout}
    {item : Option (Except EffectError String)} (h : Going first r given) (hs : Step r item r') :
    Going first r' (given ++ item.toList.map (⟨·, r'.answers.length⟩)) ∨
      Over first r' (given ++ item.toList.map (⟨·, r'.answers.length⟩)) := by
  cases hs with
  | @handsOut chunk chunks hc =>
    refine .inl ⟨h.going, h.unfinished, h.moving, ?_, fun later => ?_⟩
    · intro handout mem
      rcases List.mem_append.1 mem with mem | mem
      · exact h.fine handout mem
      · obtain rfl := List.mem_singleton.1 mem
        rfl
    · have due := h.due later
      rw [hc] at due
      simpa [answers] using due
  | @carries pump next core outputs v hc unfinished asked hd =>
    have grown : answers { r with
        pump, core, resume := next, chunks := outputs.filterMap chunkOf } = r.answers ++ [_] :=
      answers_of_asked asked
    refine .inl ⟨h.going, unfinished, ?_, by simpa using h.fine, fun later => ?_⟩
    · obtain ⟨instructions, answered, sent⟩ := h.moving
      have carried : core = (r.core.attempt v).after := by rw [Core.attempt_of_dispatch hd]
      refine ⟨instructions ++ [v], by rw [grown, answered]; simp [pulled], ?_⟩
      rw [Core.sent_concat, ← sent]
      exact carried
    · have due := h.due (.ok (some v) :: later)
      rw [hc, Core.due_of_dispatch hd] at due
      rw [grown]
      simpa using due
  | @ends pump answer _ hc asked closes =>
    have grown : answers { r with pump, ended := true } = r.answers ++ [answer] :=
      answers_of_asked asked
    refine .inr ⟨rfl, fun later => ?_, ?_⟩
    · have due := h.due (answer :: later)
      rw [hc, Core.due_of_closes closes] at due
      rw [grown]
      simpa using due
    · obtain ⟨instructions, answered, sent⟩ := h.moving
      rw [answered] at grown
      exact ⟨instructions, answer, given, item, grown, sent ▸ closes, h.fine, rfl⟩

theorem handouts_of_step {r r' : PureRun (S × List Exchange)}
    {item : Option (Except EffectError String)}
    (h : r.step source.transcribing = some (item, r')) (steps : Nat) :
    r.handouts source (steps + 1) =
      item.toList.map (⟨·, r'.answers.length⟩) ++ r'.handouts source steps := by
  rw [handouts, h]
  cases item <;> rfl

theorem after_of_step {source : Source S} {r r' : PureRun S}
    {item : Option (Except EffectError String)} (h : r.step source = some (item, r'))
    (steps : Nat) : r.after source (steps + 1) = r'.after source steps := by
  rw [after, h]

theorem handouts_of_ended {r : PureRun (S × List Exchange)} (h : r.ended = true) (steps : Nat) :
    r.handouts source steps = [] := by
  cases steps <;> simp [handouts, step, h]

theorem Going.after {first : Core} {r : PureRun (S × List Exchange)} {given : List Handout}
    (h : Going first r given) (source : Source S) (steps : Nat) :
    Going first (r.after source.transcribing steps) (given ++ r.handouts source steps) ∨
      Over first (r.after source.transcribing steps) (given ++ r.handouts source steps) := by
  induction steps generalizing r given with
  | zero => exact .inl (by simpa [handouts, PureRun.after] using h)
  | succ steps ih =>
    obtain ⟨item, r', hs, made⟩ := exists_step source h.going h.unfinished
    rw [after_of_step hs, handouts_of_step hs, ← List.append_assoc]
    rcases h.step made with going | stopped
    · exact ih going
    · rw [after_ended stopped.ended, handouts_of_ended stopped.ended, List.append_nil]
      exact .inr stopped

/-- What the next step of a run does, where `left` is due and has not been handed out. -/
inductive Next (source : Source S) (r : PureRun (S × List Exchange)) : List Handout → Prop
  /-- The source is left alone as long as there is something to hand out. -/
  | handsOut {handout left r'}
      (h : r.step source.transcribing = some (some handout.item, r'))
      (position : handout.asked = r.answers.length) (unasked : r'.pump = r.pump) :
    Next source r (handout :: left)
  /-- The source is asked once if there is nothing. -/
  | asks {item answer r'} (h : r.step source.transcribing = some (item, r'))
      (asked : r'.answers = r.answers ++ [answer]) : Next source r []
  | ended (h : r.step source.transcribing = none) : Next source r []

theorem Going.next {first : Core} {r : PureRun (S × List Exchange)} {given : List Handout}
    (h : Going first r given) (source : Source S) :
    ∃ left, first.due 1 r.answers = given ++ left ∧ Next source r left := by
  have due := h.due []
  simp only [Core.due, List.append_nil] at due
  refine ⟨_, due, ?_⟩
  obtain ⟨item, r', hs, made⟩ := exists_step source h.going h.unfinished
  cases made with
  | handsOut hc =>
    rw [hc]
    exact .handsOut hs rfl rfl
  | carries hc unfinished asked hd =>
    rw [hc]
    exact .asks hs (answers_of_asked asked)
  | ends hc asked closes =>
    rw [hc]
    exact .asks hs (answers_of_asked asked)

theorem Over.next {first : Core} {r : PureRun (S × List Exchange)} {given : List Handout}
    (h : Over first r given) (source : Source S) :
    ∃ left, first.due 1 r.answers = given ++ left ∧ Next source r left := by
  have due := h.due []
  rw [List.append_nil] at due
  refine ⟨[], by rw [due, List.append_nil], .ended ?_⟩
  simp [step, h.ended]

end PureRun

end StyledEffects
