import StyledEffects.Proofs.Grammar
import StyledEffects.Run.OneThread
import StyledEffects.Run.Pure

/-! The builders of instructions and the decoder undo each other, and a run sees of its
instructions only what they decode to. So a source may spell its instructions as it likes: with
the spelling of the builders in their place, all runs stay the same. -/

namespace StyledEffects.Wire

open Json Style

def Effect.instruction : Effect → Value
  | write text .primary => Instruction.write text 1
  | write text .secondary => Instruction.write text 2
  | push none => Instruction.echo
  | push (some spans) => Instruction.push spans
  | pop => Instruction.pop

/-- An instruction in the spelling of the builders. What is no instruction stays as it is. -/
def canonical (v : Value) : Value :=
  match decode v with
  | .ok effect => effect.instruction
  | .error _ => v

/-! ## Decoding what the builders make -/

theorem embeds_embed (value : Value) : Embeds (embed value) value := ⟨rfl, rfl⟩

theorem name_mem_spanWords (span : Span) : (span.name, span) ∈ spanWords := by
  cases span <;> decide

theorem Verb.name_mem_verbWords (verb : Verb) : (verb.name, verb) ∈ verbWords := by
  cases verb <;> decide

def bodyOf (verb : Verb) (payload : Value) : Value :=
  .object [("value", embed payload), ("verb", .string verb.name)]

theorem wraps_ofPayload (verb : Verb) (payload : Value) :
    Wraps (Instruction.ofPayload verb payload) (bodyOf verb payload) :=
  ⟨_, .object, embeds_embed _⟩

theorem asks_bodyOf (verb : Verb) (payload : Value) :
    Asks (bodyOf verb payload) verb (some (embed payload)) :=
  ⟨verb.name, verb.name_mem_verbWords, .object⟩

theorem decode_ofPayload (verb : Verb) (payload : Value) :
    decode (Instruction.ofPayload verb payload) = decodePayload verb (some (embed payload)) := by
  rw [decode_of_asks (wraps_ofPayload verb payload) (asks_bodyOf verb payload)]
  rfl

theorem ofValue_natural (n : UInt64) :
    Channel.ofValue (.number (.natural n)) =
      if n = 1 then .ok .primary
      else if n = 2 then .ok .secondary
      else .error (.invalidStream (toString n.toNat)) := by
  have one : (n.toNat : Int) = 1 ↔ n = 1 := by
    rw [← UInt64.toNat_inj]
    exact Int.ofNat_inj
  have two : (n.toNat : Int) = 2 ↔ n = 2 := by
    rw [← UInt64.toNat_inj]
    exact Int.ofNat_inj
  simp only [Channel.ofValue, Number.natural, Number.isNear, decide_eq_true_eq, one, two]
  rfl

theorem channelOf_embed (n : Number) :
    channelOf (some (embed (.object [("stream", .number n)]))) = Channel.ofValue (.number n) := by
  simp only [channelOf, unwrap_embed]
  rfl

theorem decode_write (text : String) (n : UInt64) :
    decode (Instruction.write text n) =
      if n = 1 then .ok (.write text .primary)
      else if n = 2 then .ok (.write text .secondary)
      else .error (.invalidStream (toString n.toNat)) := by
  have decoded : decode (Instruction.write text n) =
      (Channel.ofValue (.number (.natural n))).bind fun channel => .ok (.write text channel) := by
    rw [Instruction.write, decode_ofPayload, ← channelOf_embed]
    simp only [decodePayload, decodeWrite, unwrap_embed]
    rfl
  rw [decoded, ofValue_natural]
  split
  · rfl
  · split <;> rfl

theorem decode_push (spans : List Span) :
    decode (Instruction.push spans) = .ok (.push (if spans = [] then none else some spans)) := by
  have names : List.Forall₂ Names (spans.map fun span => .string span.name) spans := by
    rw [List.forall₂_map_left_iff]
    exact List.forall₂_same.2 fun span _ => ⟨span.name, name_mem_spanWords span, rfl⟩
  have fills : Fills .push (some (embed (.object [("spans",
      .array (spans.map fun span => .string span.name))])))
      (.push (if spans = [] then none else some spans)) :=
    .push (embeds_embed _) rfl names
  rw [Instruction.push, decode_ofPayload]
  exact decodePayload_of_fills fills

theorem decode_echo : decode Instruction.echo = .ok (.push none) := by
  rw [Instruction.echo, decode_ofPayload]
  rfl

theorem decode_pop : decode Instruction.pop = .ok .pop := by
  rw [Instruction.pop, decode_ofPayload]
  rfl

/-- An effect decodes from what the builders make of it, unless it is to push an empty list of
spans. -/
theorem decode_instruction {effect : Effect} (h : effect ≠ .push (some [])) :
    decode effect.instruction = .ok effect := by
  rcases effect with ⟨text, _ | _⟩ | ⟨_ | spans⟩ | _
  · exact decode_write text 1
  · exact decode_write text 2
  · exact decode_echo
  · have hne : spans ≠ [] := fun hs => h (by rw [hs])
    rw [Effect.instruction, decode_push, if_neg hne]
  · exact decode_pop

theorem Fills.ne_push_nil {verb : Verb} {payload : Option Value} {effect : Effect}
    (h : Fills verb payload effect) : effect ≠ .push (some []) := by
  cases h with
  | @push _ _ _ spans _ _ _ => by_cases hs : spans = [] <;> simp [hs]
  | _ => simp

theorem decode_instruction_of_decode {v : Value} {effect : Effect} (h : decode v = .ok effect) :
    decode effect.instruction = .ok effect := by
  obtain ⟨body, verb, payload, -, -, hf⟩ := encodes_of_decode h
  exact decode_instruction hf.ne_push_nil

theorem decode_canonical (v : Value) : decode (canonical v) = decode v := by
  unfold canonical
  cases h : decode v with
  | ok effect => exact decode_instruction_of_decode h
  | error e => exact h

end StyledEffects.Wire

namespace StyledEffects

open Json Style Wire

/-! ## Sources with their instructions in another spelling -/

def Reply.respell (f : Value → Value) : Reply → Reply
  | ready instruction => ready (f instruction)
  | deferred pause later => deferred pause (later.map (Option.map f))
  | done => done
  | failed error => failed error

def Source.respell {S : Type} (f : Value → Value) (source : Source S) : Source S where
  advance := fun resume state =>
    let (reply, state) := source.advance resume state
    (reply.respell f, state)

def Source.canonical {S : Type} (source : Source S) : Source S := source.respell Wire.canonical

theorem Reply.result_respell (f : Value → Value) (r : Reply) :
    (r.respell f).result = r.result.map (Option.map f) := by
  cases r <;> rfl

section Respelling

variable {S : Type} {source : Source S} {f : Value → Value}

theorem Pump.step_respell (resume : Option Value) (pump : Pump S) :
    pump.step (source.respell f) resume =
      ((pump.step source resume).1.map (Option.map f), (pump.step source resume).2) := by
  cases hf : pump.finished with
  | true => simp only [step, hf, if_true, Except.map, Option.map]
  | false =>
    simp only [step, hf, Source.respell, Reply.result_respell]
    rcases (source.advance resume pump.state).1.result with e | _ | v <;> rfl

theorem Pump.deferral?_respell (resume : Option Value) (pump : Pump S) :
    pump.deferral? (source.respell f) resume = pump.deferral? source resume := by
  cases hf : pump.finished with
  | true => simp only [deferral?, hf, if_true]
  | false =>
    simp only [deferral?, hf, Source.respell]
    cases (source.advance resume pump.state).1 <;> rfl

theorem Drive.turn_respell {D : Type}
    {dispatch : Value → D → Except EffectError (Option Value) × D}
    (hd : ∀ v work, dispatch (f v) work = dispatch v work) (d : Drive S D) :
    d.turn (source.respell f) dispatch = d.turn source dispatch := by
  cases hr : d.result with
  | some result => simp only [turn, hr]
  | none =>
    simp only [turn, hr, Pump.step_respell]
    rcases d.pump.step source d.resume with ⟨e | _ | v, pump⟩
    · rfl
    · rfl
    · simp only [Except.map, Option.map, hd]

variable (hf : ∀ v, decode (f v) = decode v)

include hf

theorem Core.dispatch_respell (v : Value) (core : Core) :
    core.dispatch (f v) = core.dispatch v := by
  simp only [dispatch, hf]

theorem Core.notices_respell (v : Value) (core : Core) :
    core.notices (f v) = core.notices v := by
  simp only [notices, hf]

/-! ## Runs onto two streams -/

namespace IoRun

variable {σ τ : Type}

theorem turn_respell (r : IoRun S σ τ) : r.turn (source.respell f) = r.turn source := by
  have same : r.drive.turn (source.respell f) Session.dispatch =
      r.drive.turn source Session.dispatch := by
    apply Drive.turn_respell
    intro v work
    simp only [Session.dispatch, Core.dispatch_respell hf]
  simp only [turn, same]

theorem notices_respell (r : IoRun S σ τ) :
    r.notices (source.respell f) = r.notices source := by
  simp only [notices, Pump.step_respell]
  rcases (r.drive.pump.step source r.drive.resume).1 with e | _ | v
  · rfl
  · rfl
  · simp only [Except.map, Option.map, Core.notices_respell hf]

variable [OutputStream σ] [OutputStream τ]

theorem move_respell (m : Move) (r : IoRun S σ τ) :
    r.move (source.respell f) m = r.move source m := by
  rcases m with _ | _ | _
  · simp only [move, turn_respell hf, notices_respell hf]
  · rfl
  · rfl

theorem after_respell (moves : List Move) (r : IoRun S σ τ) :
    r.after (source.respell f) moves = r.after source moves := by
  induction moves generalizing r with
  | nil => rfl
  | cons m rest ih => simp only [after, move_respell hf, ih]

end IoRun

namespace OneThread

variable {σ τ : Type} [OutputStream σ] [OutputStream τ]

theorem loop_respell (t : OneThread S σ τ) : t.loop (source.respell f) = t.loop source := by
  simp only [loop, IoRun.move_respell hf]

theorem round_respell (t : OneThread S σ τ) : t.round (source.respell f) = t.round source := by
  simp only [round, Pump.deferral?_respell, loop_respell hf]

theorem rounds_respell (n : Nat) (t : OneThread S σ τ) :
    t.rounds (source.respell f) n = t.rounds source n := by
  induction n generalizing t with
  | zero => rfl
  | succ n ih => simp only [rounds, round_respell hf, ih]

theorem evaluate_respell (limit : Nat) (table : Table) (state : S) (primary : σ)
    (secondary : τ) : evaluate (source.respell f) limit table state primary secondary =
      evaluate source limit table state primary secondary := by
  simp only [evaluate, rounds_respell hf, close, loop_respell hf]

end OneThread

/-! ## Runs into chunks -/

namespace PureRun

theorem step_respell (r : PureRun S) : r.step (source.respell f) = r.step source := by
  simp only [step, Pump.step_respell]
  rcases r.pump.step source r.resume with ⟨e | _ | v, pump⟩
  · rfl
  · rfl
  · simp only [Except.map, Option.map, Core.dispatch_respell hf]

theorem notices_respell (r : PureRun S) :
    r.notices (source.respell f) = r.notices source := by
  simp only [notices, Pump.step_respell, Pump.deferral?_respell]
  rcases (r.pump.step source r.resume).1 with e | _ | v
  · rfl
  · rfl
  · simp only [Except.map, Option.map, Core.notices_respell hf]

theorem feed_respell : feed (source.respell f) = feed source := by
  have steps : step (source.respell f) = step source := funext (step_respell hf)
  have logs : notices (source.respell f) = notices source := funext (notices_respell hf)
  rw [feed, feed, steps, logs]

theorem items_respell (steps : Nat) (r : PureRun S) :
    r.items (source.respell f) steps = r.items source steps := by
  induction steps generalizing r with
  | zero => rfl
  | succ steps ih => simp only [items, step_respell hf, ih]

end PureRun

end Respelling

/-- What the builders make decodes to what it was made from, and what decodes is the same as
what the builders make of its effect: every run of a source, onto two streams on any schedule or
on one thread, into chunks or onto one stream, is the run of the source in the spelling of the
builders. -/
theorem decode_inverts_builders :
    (∀ text n, decode (Instruction.write text n) =
      if n = 1 then .ok (.write text .primary)
      else if n = 2 then .ok (.write text .secondary)
      else .error (.invalidStream (toString n.toNat))) ∧
    (∀ spans, decode (Instruction.push spans) =
      .ok (.push (if spans = [] then none else some spans))) ∧
    decode Instruction.echo = .ok (.push none) ∧
    decode Instruction.pop = .ok .pop ∧
    (∀ v effect, decode v = .ok effect → decode effect.instruction = .ok effect) ∧
    ∀ {S σ τ : Type} [OutputStream σ] [OutputStream τ] (source : Source S),
      (∀ moves (r : IoRun S σ τ), r.after source.canonical moves = r.after source moves) ∧
      (∀ limit table state (primary : σ) (secondary : τ),
        OneThread.evaluate source.canonical limit table state primary secondary =
          OneThread.evaluate source limit table state primary secondary) ∧
      (∀ limit table state, PureRun.evaluate source.canonical limit table state =
        PureRun.evaluate source limit table state) ∧
      ∀ limit table state (stream : σ),
        PureRun.render source.canonical limit table state stream =
          PureRun.render source limit table state stream := by
  refine ⟨decode_write, decode_push, decode_echo, decode_pop,
    fun _ _ => decode_instruction_of_decode, fun source => ⟨?_, ?_, ?_, ?_⟩⟩
  · exact IoRun.after_respell decode_canonical
  · exact OneThread.evaluate_respell decode_canonical
  · intro limit table state
    exact PureRun.items_respell decode_canonical _ _
  · intro limit table state stream
    rw [PureRun.render, PureRun.render, Source.canonical, PureRun.feed_respell decode_canonical]

/-- A push of a span by its other name, with both records written as arrays. -/
def grayPush : Value :=
  .array [.string "Effect",
    embed (.array [.string "push", embed (.object [("spans", .array [.string "gray"])])])]

theorem grayPush_decodes : decode grayPush = .ok (.push (some [.blackBright])) ∧
    decode (Instruction.push [.blackBright]) = .ok (.push (some [.blackBright])) := by
  have decoded : decode grayPush = .ok (.push (some [.blackBright])) := by decide +kernel
  exact ⟨decoded, decode_inverts_builders.2.2.2.2.1 grayPush _ decoded⟩

end StyledEffects
