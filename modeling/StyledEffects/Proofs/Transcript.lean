import StyledEffects.Core
import StyledEffects.Pump

/-! A run with the streams left aside. Its transcript has the instructions that are carried
out, each with the state after it and what it hands over, and how the run ends. A source
that yields a list of items has the transcript that is read off the list. -/

namespace StyledEffects

open Json Style Wire

def Output.content : Output → String
  | .text _ t => t
  | .control escapes => escapes

/-- An instruction that has been carried out: the state after it and its outputs. -/
structure Stage where
  core : Core
  outputs : List Output

structure Transcript where
  stages : List Stage
  verdict : Except EffectError Unit

namespace Transcript

def outputs (t : Transcript) : List Output := t.stages.flatMap Stage.outputs

def after (stage : Stage) (t : Transcript) : Transcript := ⟨stage :: t.stages, t.verdict⟩

/-- The run of a list of items. The first error stops it: the failure of an item, or that of
an instruction that cannot be carried out. -/
def of (core : Core) : List Item → Transcript
  | [] => ⟨[], core.finish⟩
  | .error e :: _ => ⟨[], .error e⟩
  | .ok v :: rest =>
    match core.dispatch v with
    | (.error e, _, _) => ⟨[], .error e⟩
    | (.ok _, core, outputs) => (of core rest).after ⟨core, outputs⟩

@[simp] theorem outputs_nil (verdict : Except EffectError Unit) :
    outputs ⟨[], verdict⟩ = [] := rfl

@[simp] theorem outputs_after (stage : Stage) (t : Transcript) :
    (t.after stage).outputs = stage.outputs ++ t.outputs := rfl

@[simp] theorem stages_after (stage : Stage) (t : Transcript) :
    (t.after stage).stages = stage :: t.stages := rfl

@[simp] theorem verdict_after (stage : Stage) (t : Transcript) :
    (t.after stage).verdict = t.verdict := rfl

end Transcript

namespace Core

theorem hasEscape_eq_true {text : String} : hasEscape text = true ↔ esc ∈ text.toList :=
  List.contains_iff_mem

theorem hasEscape_eq_false {text : String} : hasEscape text = false ↔ esc ∉ text.toList := by
  rw [← hasEscape_eq_true, Bool.not_eq_true]

/-- What an effect that is carried out does: a write hands over its text as it is, a push or
a pop the escapes from the old style to the new. -/
theorem perform_cases {effect : Effect} {core core' : Core} {outputs : List Output}
    (h : core.perform effect = (.ok (), core', outputs)) :
    (∃ text channel, effect = .write text channel ∧ hasEscape text = false ∧ core' = core ∧
      outputs = [.text channel text]) ∨
    ((∀ text channel, effect ≠ .write text channel) ∧ core'.table = core.table ∧
      outputs = (Transition.between core.table core.stack.current
        core'.stack.current).bursts.map .control) := by
  cases effect with
  | write text channel =>
    left
    cases he : hasEscape text with
    | true => simp [perform, he] at h
    | false =>
      obtain ⟨rfl, rfl⟩ : core = core' ∧ _ = outputs := by simpa [perform, he] using h
      exact ⟨text, channel, rfl, he, rfl, rfl⟩
  | push spans =>
    right
    obtain ⟨rfl, rfl⟩ : _ = core' ∧ _ = outputs := by simpa [perform] using h
    exact ⟨by simp, rfl, rfl⟩
  | pop =>
    right
    cases hs : core.stack with
    | empty => simp [perform, hs, Stack.pop?] at h
    | on frame below depth =>
      obtain ⟨rfl, rfl⟩ : _ = core' ∧ _ = outputs := by
        simpa [perform, hs, Stack.pop?] using h
      exact ⟨by simp, rfl, rfl⟩

theorem perform_error {effect : Effect} {core core' : Core} {e : EffectError}
    {outputs : List Output} (h : core.perform effect = (.error e, core', outputs)) :
    outputs = [] := by
  cases effect with
  | write text channel => cases he : hasEscape text <;> simp_all [perform]
  | push spans => simp [perform] at h
  | pop => cases hs : core.stack <;> simp_all [perform, Stack.pop?]

/-- An instruction that is carried out holds an effect that is. The source is never resumed
with a value. -/
theorem dispatch_ok {v : Value} {core core' : Core} {resume : Option Value}
    {outputs : List Output} (h : core.dispatch v = (.ok resume, core', outputs)) :
    resume = none ∧ ∃ effect, decode v = .ok effect ∧
      core.perform effect = (.ok (), core', outputs) := by
  unfold dispatch at h
  cases hd : decode v with
  | error e => simp [hd] at h
  | ok effect =>
    rcases hp : core.perform effect with ⟨result, c, o⟩
    cases result with
    | error e => simp [hd, hp, Except.map] at h
    | ok u =>
      obtain ⟨rfl, rfl, rfl⟩ : resume = none ∧ c = core' ∧ o = outputs := by
        simpa [hd, hp, Except.map, eq_comm] using h
      exact ⟨rfl, effect, rfl, hp⟩

theorem dispatch_error {v : Value} {core core' : Core} {e : EffectError}
    {outputs : List Output} (h : core.dispatch v = (.error e, core', outputs)) :
    outputs = [] := by
  unfold dispatch at h
  cases hd : decode v with
  | error e' =>
    obtain ⟨-, -, rfl⟩ : e' = e ∧ core = core' ∧ [] = outputs := by simpa [hd] using h
    rfl
  | ok effect =>
    rcases hp : core.perform effect with ⟨result, c, o⟩
    cases result with
    | ok u => simp [hd, hp, Except.map] at h
    | error e' =>
      obtain ⟨-, -, rfl⟩ : e' = e ∧ c = core' ∧ o = outputs := by
        simpa [hd, hp, Except.map] using h
      exact perform_error hp

end Core

namespace Pump

variable {S : Type} {source : Source S} {resume : Option Value} {pump : Pump S}

def exhausted (source : Source S) (resume : Option Value) (pump : Pump S) : Pump S :=
  ⟨(source.advance resume pump.state).2, pump.pulled, true⟩

def pulledOne (source : Source S) (resume : Option Value) (pump : Pump S) : Pump S :=
  ⟨(source.advance resume pump.state).2, pump.pulled + 1, false⟩

theorem step_end (hf : pump.finished = false)
    (h : (source.advance resume pump.state).1.result = .ok none) :
    pump.step source resume = (.ok none, pump.exhausted source resume) := by
  simp [step, hf, h, exhausted]

theorem step_error {e : EffectError} (hf : pump.finished = false)
    (h : (source.advance resume pump.state).1.result = .error e) :
    pump.step source resume = (.error e, pump.exhausted source resume) := by
  simp [step, hf, h, exhausted]

theorem step_item {v : Value} (hf : pump.finished = false)
    (h : (source.advance resume pump.state).1.result = .ok (some v)) :
    pump.step source resume = (.ok (some v), pump.pulledOne source resume) := by
  simp [step, hf, h, pulledOne]

end Pump

namespace Drive

variable {S D : Type} {source : Source S} {d : Drive S D}
  {dispatch : Value → D → Except EffectError (Option Value) × D}

/-- The four things that a round can come to. -/
theorem turn_ended (hd : d.result = none) (hf : d.pump.finished = false)
    (h : (source.advance d.resume d.pump.state).1.result = .ok none) :
    d.turn source dispatch = { d with
      pump := d.pump.exhausted source d.resume
      result := some (.ok d.pump.pulled) } := by
  simp [turn, hd, Pump.step_end hf h, Pump.exhausted]

theorem turn_failed {e : EffectError} (hd : d.result = none) (hf : d.pump.finished = false)
    (h : (source.advance d.resume d.pump.state).1.result = .error e) :
    d.turn source dispatch = { d with
      pump := d.pump.exhausted source d.resume
      result := some (.error e) } := by
  simp [turn, hd, Pump.step_error hf h]

theorem turn_refused {v : Value} {e : EffectError} {work : D} (hd : d.result = none)
    (hf : d.pump.finished = false)
    (h : (source.advance d.resume d.pump.state).1.result = .ok (some v))
    (hc : dispatch v d.work = (.error e, work)) :
    d.turn source dispatch = { d with
      pump := d.pump.pulledOne source d.resume
      work := work
      result := some (.error e) } := by
  simp [turn, hd, Pump.step_item hf h, hc]

theorem turn_carried {v : Value} {next : Option Value} {work : D} (hd : d.result = none)
    (hf : d.pump.finished = false)
    (h : (source.advance d.resume d.pump.state).1.result = .ok (some v))
    (hc : dispatch v d.work = (.ok next, work)) :
    d.turn source dispatch = { d with
      pump := d.pump.pulledOne source d.resume
      resume := next
      work := work } := by
  simp [turn, hd, Pump.step_item hf h, hc]

end Drive

namespace Source

variable {S : Type}

/-- Asked again and again, the source gives these items and then ends. What it would do
after a failure does not count. -/
def Yields (source : Source S) : S → List Item → Prop
  | s, [] => (source.advance none s).1.result = .ok none
  | s, .error e :: _ => (source.advance none s).1.result = .error e
  | s, .ok v :: rest =>
    (source.advance none s).1.result = .ok (some v) ∧
      source.Yields (source.advance none s).2 rest

/-- The run of a source, resumed with a value, from a state of the core. -/
inductive Plays (source : Source S) : Option Value → S → Core → Transcript → Prop
  | ended {resume s core} (h : (source.advance resume s).1.result = .ok none) :
    Plays source resume s core ⟨[], core.finish⟩
  | failed {resume s core e} (h : (source.advance resume s).1.result = .error e) :
    Plays source resume s core ⟨[], .error e⟩
  | refused {resume s core v e core' outputs}
      (h : (source.advance resume s).1.result = .ok (some v))
      (hd : core.dispatch v = (.error e, core', outputs)) :
    Plays source resume s core ⟨[], .error e⟩
  | carried {resume s core v next core' outputs t}
      (h : (source.advance resume s).1.result = .ok (some v))
      (hd : core.dispatch v = (.ok next, core', outputs))
      (ht : Plays source next (source.advance resume s).2 core' t) :
    Plays source resume s core (t.after ⟨core', outputs⟩)

theorem Plays.unique {source : Source S} {resume : Option Value} {s : S} {core : Core}
    {t t' : Transcript} (h : source.Plays resume s core t) (h' : source.Plays resume s core t') :
    t = t' := by
  induction h generalizing t' with
  | ended h => cases h' <;> simp_all
  | failed h => cases h' <;> simp_all
  | refused h hd => cases h' <;> simp_all
  | carried h hd _ ih =>
    cases h' with
    | carried h₁ hd₁ ht₁ =>
      obtain rfl : _ = _ := by simpa [h] using h₁
      obtain ⟨rfl, rfl, rfl⟩ := by simpa [hd] using hd₁
      rw [ih ht₁]
    | _ => simp_all

/-- What holds of each text without escapes and of each burst between two styles holds of all
that a play puts out. -/
theorem Plays.forall_outputs {source : Source S} {resume : Option Value} {s : S} {core : Core}
    {t : Transcript} {P : Output → Prop} (h : source.Plays resume s core t)
    (text : ∀ channel t, Core.hasEscape t = false → P (.text channel t))
    (control : ∀ old new, ∀ escapes ∈ (Transition.between core.table old new).bursts,
      P (.control escapes)) :
    ∀ o ∈ t.outputs, P o := by
  induction h with
  | ended => exact List.forall_mem_nil P
  | failed => exact List.forall_mem_nil P
  | refused => exact List.forall_mem_nil P
  | carried h hd _ ih =>
    obtain ⟨-, effect, -, hp⟩ := Core.dispatch_ok hd
    rw [Transcript.outputs_after]
    rcases Core.perform_cases hp with ⟨t, channel, -, he, rfl, rfl⟩ | ⟨-, htable, rfl⟩
    · refine List.forall_mem_append.2 ⟨fun o ho => ?_, ih control⟩
      obtain rfl := List.mem_singleton.1 ho
      exact text channel t he
    · rw [htable] at ih
      refine List.forall_mem_append.2 ⟨fun o ho => ?_, ih control⟩
      obtain ⟨escapes, he, rfl⟩ := List.mem_map.1 ho
      exact control _ _ escapes he

theorem Yields.plays {source : Source S} {items : List Item} {s : S} (core : Core)
    (h : source.Yields s items) : source.Plays none s core (.of core items) := by
  induction items generalizing s core with
  | nil => exact .ended h
  | cons item rest ih =>
    cases item with
    | error e => exact .failed h
    | ok v =>
      obtain ⟨hv, hrest⟩ := h
      rcases hd : core.dispatch v with ⟨result, core', outputs⟩
      cases result with
      | error e =>
        rw [show Transcript.of core (.ok v :: rest) = ⟨[], .error e⟩ by simp [Transcript.of, hd]]
        exact .refused hv hd
      | ok next =>
        obtain ⟨rfl, -⟩ := Core.dispatch_ok hd
        rw [show Transcript.of core (.ok v :: rest) =
          (Transcript.of core' rest).after ⟨core', outputs⟩ by simp [Transcript.of, hd]]
        exact .carried hv hd (ih core' hrest)

theorem yields_items (items : List Item) : Source.items.Yields items items := by
  induction items with
  | nil => rfl
  | cons item rest ih =>
    cases item with
    | error e => rfl
    | ok v => exact ⟨rfl, ih⟩

theorem yields_stream (pause : Bool) (items : List Item) :
    (Source.stream pause).Yields items items := by
  induction items with
  | nil => rfl
  | cons item rest ih =>
    cases item with
    | error e => rfl
    | ok v => exact ⟨rfl, ih⟩

theorem yields_coroutine (items : List Item) :
    (Source.coroutine Source.nextItem).Yields items items := by
  induction items with
  | nil => rfl
  | cons item rest ih =>
    cases item with
    | error e => rfl
    | ok v => exact ⟨rfl, ih⟩

end Source

end StyledEffects
