import StyledEffects.Proofs.Chunks
import StyledEffects.Proofs.Rendering
import StyledEffects.Run.OneThread

/-! A run on one thread is one of the schedules. Which tasks have been woken makes no difference to
what a move does, and every task that could move has been woken; so a run on one thread comes to an
end, and there it is what all other schedules come to. -/

namespace StyledEffects

open Json Style Wire Output

/-! ## Woken tasks -/

namespace Sink

variable {σ τ : Type}

def asleep (s : Sink σ τ) : Sink σ τ := { s with woken := [] }

theorem asleep_wake (channel : Channel) (s : Sink σ τ) : (s.wake channel).asleep = s.asleep := by
  unfold wake
  split <;> rfl

theorem asleep_eq {s s' : Sink σ τ} (active : s.active = s'.active)
    (primary : s.primary = s'.primary) (secondary : s.secondary = s'.secondary) :
    s.asleep = s'.asleep := by
  simp [asleep, active, primary, secondary]

theorem asleep_put (output : Output) (s : Sink σ τ) :
    (s.put output).1.asleep = (s.asleep.put output).1.asleep := by
  apply asleep_eq
  · rw [put_active, put_active]
    rfl
  · rw [put_primary, put_primary]
    rfl
  · rw [put_secondary, put_secondary]
    rfl

theorem asleep_close (s : Sink σ τ) : s.close.asleep = s.asleep.close.asleep := by
  simp only [close, asleep_wake]
  rfl

variable [OutputStream σ] [OutputStream τ]

def Idle (s : Sink σ τ) : Channel → Prop
  | .primary => s.primary.step = none
  | .secondary => s.secondary.step = none

/-- A task that has not been woken has nothing to do. -/
def Alert (s : Sink σ τ) : Prop := ∀ channel, channel ∉ s.woken → s.Idle channel

omit [OutputStream σ] [OutputStream τ] in
theorem mem_woken_wake {channel c : Channel} {s : Sink σ τ} :
    c ∈ (s.wake channel).woken ↔ c = channel ∨ c ∈ s.woken := by
  unfold wake
  split
  · next h =>
    constructor
    · exact Or.inr
    · rintro (rfl | hc)
      · exact h
      · exact hc
  · simp [or_comm]

theorem Alert.send {s : Sink σ τ} (h : s.Alert) (channel : Channel) (text : String) :
    (s.send channel text).1.Alert := by
  intro c hc
  by_cases empty : text = ""
  · subst empty
    cases channel <;> simpa [Sink.send, Writer.send] using h c (by simpa [Sink.send] using hc)
  · have woken : (s.send channel text).1.woken = (s.wake channel).woken := by
      cases channel <;> simp [Sink.send, empty]
    rw [woken, mem_woken_wake, not_or] at hc
    have idle := h c hc.2
    cases c with
    | primary => rwa [Idle, send_primary, if_neg (Ne.symm hc.1)]
    | secondary => rwa [Idle, send_secondary, if_neg (Ne.symm hc.1)]

theorem Alert.put {s : Sink σ τ} (h : s.Alert) (output : Output) : (s.put output).1.Alert := by
  have same : ({ s with active := output.lastAfter s.active } : Sink σ τ).Alert := by
    intro c hc
    cases c <;> exact h _ hc
  rw [put_eq_send]
  exact same.send _ _

theorem alert_close (s : Sink σ τ) : s.close.Alert := by
  intro c hc
  rw [close, mem_woken_wake, mem_woken_wake] at hc
  cases c <;> simp at hc

theorem idle_shiftOne {s : Sink σ τ} {c channel : Channel} (h : c ≠ channel → s.Idle c)
    (hc : c ∉ (s.shiftOne channel).1.woken) : (s.shiftOne channel).1.Idle c := by
  cases channel <;> cases c
  · refine s.primary.step_shift (Bool.eq_false_iff.2 fun paused => ?_)
    simp [shiftOne, paused] at hc
  · exact h (by decide)
  · exact h (by decide)
  · refine s.secondary.step_shift (Bool.eq_false_iff.2 fun paused => ?_)
    simp [shiftOne, paused] at hc

theorem woken_subset_shiftOne (channel : Channel) (s : Sink σ τ) :
    s.woken ⊆ (s.shiftOne channel).1.woken := by
  cases channel <;> simp only [shiftOne] <;> split <;> simp

theorem alert_shiftEach {channels : List Channel} {s : Sink σ τ}
    (h : ∀ c, c ∉ s.woken → c ∉ channels → s.Idle c) : (shiftEach channels s).1.Alert := by
  induction channels generalizing s with
  | nil => exact fun c hc => h c hc List.not_mem_nil
  | cons channel rest ih =>
    refine ih fun c hc hr => idle_shiftOne (fun ne => h c ?_ ?_) hc
    · exact fun hw => hc (woken_subset_shiftOne channel s hw)
    · simp [ne, hr]

theorem Alert.settleWithin {s : Sink σ τ} (h : s.Alert) (rounds : Nat) :
    (settleWithin rounds s).1.Alert := by
  induction rounds generalizing s with
  | zero => exact h
  | succ rounds ih =>
    unfold Sink.settleWithin
    split
    · exact h
    · refine ih (alert_shiftEach fun c _ hc => ?_)
      have idle := h c hc
      cases c <;> exact idle

/-- Once they have settled, neither task has anything to do. -/
theorem Alert.idle_settle {s : Sink σ τ} (h : s.Alert) (c : Channel) : s.settle.1.Idle c :=
  have none_woken := s.woken_settle
  h.settleWithin _ c (by rw [← settle, none_woken]; exact List.not_mem_nil)

end Sink

/-! ## Schedules -/

namespace IoRun

variable {S σ τ : Type} {source : Source S}

def asleep (r : IoRun S σ τ) : IoRun S σ τ := r.withSink r.sink.asleep

theorem asleep_turn (source : Source S) (r : IoRun S σ τ) :
    (r.turn source).asleep = (r.asleep.turn source).asleep := by
  obtain ⟨⟨pump, resume, ⟨core, sink, pending⟩, result⟩, verdict⟩ := r
  cases pending with
  | cons output rest =>
    have put := sink.asleep_put output
    simp only [turn, asleep, withSink, withSession, IoRun.pending, IoRun.sink, IoRun.core, put]
  | nil =>
    cases result with
    | none =>
      rcases hs : pump.step source resume with ⟨_ | _ | v, pump'⟩
      · simp [turn, asleep, withSink, withSession, IoRun.pending, IoRun.sink, Drive.turn, hs]
        rfl
      · simp [turn, asleep, withSink, withSession, IoRun.pending, IoRun.sink, Drive.turn, hs]
        rfl
      · rcases hd : core.dispatch v with ⟨_ | next, core', outputs⟩ <;>
          simp [turn, asleep, withSink, withSession, IoRun.pending, IoRun.sink, Drive.turn, hs,
            Session.dispatch, hd] <;> rfl
    | some result =>
      cases verdict with
      | some verdict => rfl
      | none =>
        have closed := sink.asleep_close
        simp only [turn, asleep, withSink, withSession, IoRun.pending, IoRun.sink, IoRun.core,
          closed]

theorem result?_asleep (r : IoRun S σ τ) : r.asleep.result? = r.result? := rfl

variable [OutputStream σ] [OutputStream τ]

theorem asleep_move (source : Source S) (m : Move) (r : IoRun S σ τ) :
    (r.move source m).map (·.1.asleep) = (r.asleep.move source m).map (·.1.asleep) := by
  match m with
  | .loop =>
    cases hv : r.verdict with
    | none =>
      have hv' : r.asleep.verdict = none := hv
      simp [move, hv, hv', asleep_turn source r]
    | some v =>
      have hv' : r.asleep.verdict = some v := hv
      simp [move, hv, hv']
  | .writer .primary =>
    have same : r.asleep.sink.primary = r.sink.primary := rfl
    simp only [move, same, Option.map_map]
    rfl
  | .writer .secondary =>
    have same : r.asleep.sink.secondary = r.sink.secondary := rfl
    simp only [move, same, Option.map_map]
    rfl

/-- The same moves can be made whichever tasks have been woken, and to the same effect. -/
theorem after_asleep {moves : List Move} {r r' s : IoRun S σ τ} (same : r.asleep = s.asleep)
    (h : r.after source moves = some r') :
    ∃ s', s.after source moves = some s' ∧ s'.asleep = r'.asleep := by
  induction moves generalizing r s with
  | nil =>
    obtain rfl : r = r' := Option.some.inj h
    exact ⟨s, rfl, same.symm⟩
  | cons m rest ih =>
    obtain ⟨⟨r₁, events⟩, hm, hrest⟩ := Option.bind_eq_some_iff.1 h
    have moved := asleep_move source m s
    rw [← same, ← asleep_move source m r, hm] at moved
    obtain ⟨⟨s₁, events'⟩, hs, same₁⟩ := Option.map_eq_some_iff.1 moved
    obtain ⟨s', hs', same'⟩ := ih same₁.symm hrest
    exact ⟨s', by rw [after, hs]; exact hs', same'⟩

/-- Some moves lead from one run to another, the tasks that have been woken left aside. -/
def Reaches (source : Source S) (r r' : IoRun S σ τ) : Prop :=
  ∃ moves r₁, r.after source moves = some r₁ ∧ r₁.asleep = r'.asleep

theorem reaches_of_asleep {r r' : IoRun S σ τ} (h : r.asleep = r'.asleep) :
    Reaches source r r' := ⟨[], r, rfl, h⟩

theorem Reaches.trans {r r' r'' : IoRun S σ τ} (h : Reaches source r r')
    (h' : Reaches source r' r'') : Reaches source r r'' := by
  obtain ⟨moves, r₁, hr, same⟩ := h
  obtain ⟨moves', r₂, hr', same'⟩ := h'
  obtain ⟨r₃, hr₃, same₃⟩ := after_asleep same.symm hr'
  exact ⟨moves ++ moves', r₃, by rw [after_append, hr]; exact hr₃, same₃.trans same'⟩

theorem reaches_of_move {m : Move} {r r' : IoRun S σ τ} {events : List Log.Event}
    (h : r.move source m = some (r', events)) : Reaches source r r' :=
  ⟨[m], r', by rw [after, h]; rfl, rfl⟩

theorem reaches_shiftWithin {ρ : Type} [OutputStream ρ] (side : Side σ τ ρ) (turns left : Nat)
    (r : IoRun S σ τ) : Reaches source r (r.withSink
      (side.withWriter (Writer.shiftWithin turns left (side.writer r.sink)).writer r.sink)) := by
  have still : Reaches source r (r.withSink (side.withWriter (side.writer r.sink) r.sink)) :=
    reaches_of_asleep (by cases side <;> rfl)
  induction turns generalizing left r with
  | zero => exact still
  | succ turns ih =>
    unfold Writer.shiftWithin
    split
    · exact still
    · cases hs : (side.writer r.sink).step with
      | none => exact still
      | some next =>
        have moved : r.move source (.writer side.channel) =
            some (r.withSink (side.withWriter next.1 r.sink), next.2) := by
          rw [side.move_writer, hs]
          rfl
        refine (reaches_of_move moved).trans ?_
        have later := ih (if (side.writer r.sink).wantsSignal then left - 1 else left)
          (r.withSink (side.withWriter next.1 r.sink))
          (reaches_of_asleep (by cases side <;> rfl))
        rw [side.writer_withSink] at later
        cases side <;> exact later

theorem reaches_shiftOne (channel : Channel) (r : IoRun S σ τ) :
    Reaches source r (r.withSink (r.sink.shiftOne channel).1) := by
  cases channel with
  | primary => exact (reaches_shiftWithin .primary _ _ r).trans (reaches_of_asleep rfl)
  | secondary => exact (reaches_shiftWithin .secondary _ _ r).trans (reaches_of_asleep rfl)

theorem reaches_shiftEach (channels : List Channel) (r : IoRun S σ τ) :
    Reaches source r (r.withSink (Sink.shiftEach channels r.sink).1) := by
  induction channels generalizing r with
  | nil => exact reaches_of_asleep rfl
  | cons channel rest ih => exact (reaches_shiftOne channel r).trans (ih _)

theorem reaches_settleWithin (rounds : Nat) (r : IoRun S σ τ) :
    Reaches source r (r.withSink (Sink.settleWithin rounds r.sink).1) := by
  induction rounds generalizing r with
  | zero => exact reaches_of_asleep rfl
  | succ rounds ih =>
    unfold Sink.settleWithin
    split
    · exact reaches_of_asleep rfl
    · have forgotten : Reaches source r (r.withSink { r.sink with woken := [] }) :=
        reaches_of_asleep rfl
      exact (forgotten.trans (reaches_shiftEach r.sink.woken _)).trans (ih _)

omit [OutputStream σ] [OutputStream τ] in
theorem pending_turn {r : IoRun S σ τ} (h : r.drive.result.isSome → r.pending = [])
    (hr : (r.turn source).drive.result.isSome) : (r.turn source).pending = [] := by
  obtain ⟨⟨pump, resume, ⟨core, sink, pending⟩, result⟩, verdict⟩ := r
  cases pending with
  | cons output rest => cases h hr
  | nil =>
    cases result with
    | some result => cases verdict <;> rfl
    | none =>
      rw [turn_pull source rfl rfl] at hr ⊢
      rcases hs : pump.step source resume with ⟨_ | _ | v, pump'⟩
      · simp [IoRun.pending, Drive.turn, hs]
      · simp [IoRun.pending, Drive.turn, hs]
      · rcases hd : core.dispatch v with ⟨_ | next, core', outputs⟩
        · obtain rfl := Core.dispatch_error hd
          simp [IoRun.pending, Drive.turn, hs, Session.dispatch, hd]
        · simp [Drive.turn, hs, Session.dispatch, hd] at hr

/-- A run on one thread before the writers are closed, with this many moves ahead of the loop. -/
structure Underway (source : Source S) (start : IoRun S σ τ) (verdict : Except EffectError Unit)
    (r : IoRun S σ τ) (n : Nat) : Prop where
  reached : Reaches source start r
  ahead : ∃ outputs, Ahead source verdict r n outputs
  unjudged : r.verdict = none
  alert : r.sink.Alert
  handed : r.drive.result.isSome → r.pending = []

variable {start r : IoRun S σ τ} {verdict : Except EffectError Unit} {n : Nat}

theorem Underway.settle (h : Underway source start verdict r n) :
    Underway source start verdict (r.withSink r.sink.settle.1) n := by
  obtain ⟨outputs, ahead⟩ := h.ahead
  exact ⟨h.reached.trans (reaches_settleWithin _ r), ⟨outputs, ahead.withSink _⟩, h.unjudged,
    h.alert.settleWithin _, h.handed⟩

theorem reaches_turn (hv : r.verdict = none) : Reaches source r (r.turn source) :=
  have moved : r.move source .loop = some (r.turn source, r.notices source) := by
    simp [move, hv]
  reaches_of_move moved

/-- A run with a verdict whose tasks have nothing to do has a result, if all schedules end. -/
theorem Reaches.result {budget : Nat} (h : Reaches source start r)
    (ends : start.Ends source budget) (hv : r.verdict.isSome) (idle : ∀ c, r.sink.Idle c) :
    r.result?.isSome := by
  obtain ⟨moves, r₁, hr₁, same⟩ := h
  have stuck : ∀ m, r₁.move source m = none := by
    intro m
    have none_left : r.move source m = none := by
      match m with
      | .loop => simp [move, hv]
      | .writer .primary => exact Option.map_eq_none_iff.2 (idle .primary)
      | .writer .secondary => exact Option.map_eq_none_iff.2 (idle .secondary)
    have moved := asleep_move source m r₁
    rw [same, ← asleep_move source m r, none_left] at moved
    exact Option.map_eq_none_iff.1 moved
  rw [← result?_asleep, ← same, result?_asleep]
  exact (ends.stuck_iff moves r₁ hr₁).1 stuck

theorem Underway.turn (h : Underway source start verdict r n) (hr : r.drive.result = none) :
    ∃ m, n = m + 1 ∧ Underway source start verdict (r.turn source) m := by
  obtain ⟨outputs, ahead⟩ := h.ahead
  obtain ⟨m, hn, turned⟩ := ahead.turn h.unjudged
  have reached := h.reached.trans (reaches_turn h.unjudged)
  refine ⟨m, hn, ?_⟩
  cases turned with
  | @put output rest ha hs hv =>
    exact ⟨reached, ⟨rest, ha⟩, hv, by rw [hs]; exact h.alert.put output, pending_turn h.handed⟩
  | pull ha hs hv =>
    exact ⟨reached, ⟨outputs, ha⟩, hv, by rw [hs]; exact h.alert, pending_turn h.handed⟩
  | close ha hs hv =>
    -- only a loop with a result closes the writers
    have unjudged : (r.turn source).verdict = none := by
      rw [IoRun.turn, hr]
      cases r.pending <;> exact h.unjudged
    rw [unjudged] at hv
    cases hv

end IoRun

/-! ## The run on one thread -/

namespace OneThread

open IoRun

variable {S σ τ : Type} [OutputStream σ] [OutputStream τ] {source : Source S}
  {start : IoRun S σ τ} {verdict : Except EffectError Unit} {n : Nat}

theorem run_loop {t : OneThread S σ τ} (hv : t.run.verdict = none) :
    (t.loop source).run = t.run.turn source := by
  simp [loop, move, hv]

theorem underway_round {t : OneThread S σ τ} (h : Underway source start verdict t.run n)
    (hr : t.run.drive.result = none) :
    ∃ m, n = m + 1 ∧ Underway source start verdict (t.round source).run m := by
  have loops : ∀ t' : OneThread S σ τ, Underway source start verdict t'.run n →
      t'.run.drive.result = none →
        ∃ m, n = m + 1 ∧ Underway source start verdict (t'.loop source).run m := by
    intro t' h' hr'
    rw [run_loop h'.unjudged]
    exact h'.turn hr'
  unfold round
  split
  · exact loops t h hr
  · exact loops t h hr
  · next pause _ _ =>
    cases pause with
    | false => exact loops _ h hr
    | true => exact loops _ h.settle hr

theorem underway_rounds {t : OneThread S σ τ} {k : Nat} (h : Underway source start verdict t.run n)
    (hn : n ≤ k + 1) : (t.rounds source k).run.drive.result.isSome ∧
      ∃ m, Underway source start verdict (t.rounds source k).run m := by
  induction k generalizing t n with
  | zero =>
    refine ⟨?_, n, h⟩
    obtain ⟨outputs, ahead⟩ := h.ahead
    cases ahead with
    | looping hv hd hf ht ho hp hn' => omega
    | closing hv hd => exact Option.isSome_iff_exists.2 ⟨_, hd⟩
    | done hv =>
      rw [h.unjudged] at hv
      cases hv
  | succ k ih =>
    unfold rounds
    split
    · next ended => exact ⟨ended, n, h⟩
    · next going =>
      obtain ⟨m, rfl, next⟩ := underway_round h (by simpa using going)
      exact ih next (by omega)

theorem run_waitRounds (k : Nat) (t : OneThread S σ τ) :
    (t.waitRounds k).run = t.run.withSink (Sink.settleWithin k t.run.sink).1 := by
  induction k generalizing t with
  | zero => rfl
  | succ k ih =>
    unfold waitRounds Sink.settleWithin
    split
    · rfl
    · rw [ih]
      rfl

theorem close_of_underway {t : OneThread S σ τ} (h : Underway source start verdict t.run n)
    (hr : t.run.drive.result.isSome) :
    Reaches source start (t.close source).run ∧ (t.close source).run.verdict.isSome ∧
      ∀ c, (t.close source).run.sink.Idle c := by
  obtain ⟨result, hd⟩ := Option.isSome_iff_exists.1 hr
  have closed : (t.close source).run =
      (t.run.turn source).withSink (t.run.turn source).sink.settle.1 := by
    rw [close, run_waitRounds]
    simp only [note, run_loop h.unjudged]
    rfl
  have turned := turn_close source (h.handed hr) hd h.unjudged
  have alert : (t.run.turn source).sink.Alert := by
    rw [turned]
    exact Sink.alert_close _
  rw [closed]
  refine ⟨(h.reached.trans (reaches_turn h.unjudged)).trans (reaches_settleWithin _ _), ?_,
    alert.idle_settle⟩
  rw [turned]
  rfl

/-- A source that plays to its end within the limit is run to its end, on one of the schedules. -/
theorem evaluate_reaches {state : S} {table : Table} {t : Transcript}
    (plays : source.Plays none state (.new table) t) {limit : Nat}
    (hl : t.stages.length < limit) (primary : σ) (secondary : τ) :
    let start := IoRun.new table state (Watched.new primary) (Watched.new secondary)
    let run := (evaluate source limit table state (Watched.new primary)
      (Watched.new secondary)).run
    Reaches source start run ∧ run.result?.isSome := by
  intro start run
  have underway : Underway source start t.verdict start
      (t.outputs.length + t.stages.length + 2) := by
    refine ⟨reaches_of_asleep rfl, ⟨_, ahead_new plays _ _⟩, rfl, fun c hc => ?_, fun _ => rfl⟩
    cases c <;> simp [start, IoRun.new, IoRun.sink, Drive.new, Sink.new] at hc
  have outputs := plays.length_outputs_le
  obtain ⟨handed, m, ended⟩ := underway_rounds (t := ⟨start, []⟩) (k := 3 * limit) underway
    (by omega)
  obtain ⟨reached, judged, idle⟩ := close_of_underway ended handed
  obtain ⟨budget, ends⟩ := ends_of_plays plays primary secondary
  exact ⟨reached, reached.result ends judged idle⟩

/-- On streams that never fail it writes all lines of the transcript and has its result. -/
theorem evaluate_written {state : S} {table : Table} {t : Transcript}
    (plays : source.Plays none state (.new table) t) {limit : Nat}
    (hl : t.stages.length < limit) {primary : σ} {secondary : τ}
    (hp : Stream.NeverFails primary) (hs : Stream.NeverFails secondary) :
    let run := (evaluate source limit table state (Watched.new primary)
      (Watched.new secondary)).run
    run.result? = some t.verdict ∧
      run.sink.primary.stream.writes = linesOn .primary (routes none t.outputs) ∧
      run.sink.secondary.stream.writes = linesOn .secondary (routes none t.outputs) := by
  intro run
  obtain ⟨⟨moves, r, hr, same⟩, ended⟩ := evaluate_reaches plays hl primary secondary
  obtain ⟨result, h⟩ := Option.isSome_iff_exists.1 ended
  rw [← result?_asleep, ← same, result?_asleep] at h
  obtain ⟨rfl, first, second⟩ := written_of_plays plays hp hs hr h
  have primary_eq : run.sink.primary = r.sink.primary :=
    congrArg (fun r => r.sink.primary) same.symm
  have secondary_eq : run.sink.secondary = r.sink.secondary :=
    congrArg (fun r => r.sink.secondary) same.symm
  rw [primary_eq, secondary_eq, ← result?_asleep run, ← same, result?_asleep]
  exact ⟨h, first, second⟩

end OneThread

end StyledEffects
