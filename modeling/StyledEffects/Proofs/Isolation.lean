import Mathlib.Logic.Function.Iterate
import StyledEffects.Proofs.Agreement

/-! Streams do not steer a run. What the loop does with its source depends on the number of its
turns only, whatever streams there are and whatever they answer. A stream that never fails has
all of its lines at the end, even if the other one has failed, and of the errors there are the
result is the run's own before those of the streams. -/

namespace StyledEffects

open Json Style Wire Output

/-- What a source is resumed with when it is asked, and its complete answer. -/
structure Exchange where
  resume : Option Value
  answer : Except EffectError (Option Value)

namespace Source

variable {S : Type} {source : Source S}

/-- The same source, with a record of everything that it has been asked, the last one first. -/
def transcribing (source : Source S) : Source (S × List Exchange) where
  advance := fun resume (state, record) =>
    let (reply, state) := source.advance resume state
    (reply, state, ⟨resume, reply.result⟩ :: record)

theorem Plays.transcribed {resume : Option Value} {s : S} {core : Core} {t : Transcript}
    (h : source.Plays resume s core t) (record : List Exchange) :
    source.transcribing.Plays resume (s, record) core t := by
  induction h generalizing record with
  | ended h => exact .ended h
  | failed h => exact .failed h
  | refused h hd => exact .refused h hd
  | carried h hd _ ih => exact .carried h hd (ih _)

theorem Plays.of_transcribing {resume : Option Value} {s : S × List Exchange} {core : Core}
    {t : Transcript} (h : source.transcribing.Plays resume s core t) :
    source.Plays resume s.1 core t := by
  induction h with
  | ended h => exact .ended h
  | failed h => exact .failed h
  | refused h hd => exact .refused h hd
  | carried h hd _ ih => exact .carried h hd ih

end Source

/-- All there is to the loop of a run: how far it is, with the streams left aside. -/
structure Course (S : Type) where
  pump : Pump S
  resume : Option Value
  result : Option (Except EffectError Nat)
  core : Core
  pending : List Output
  verdict : Option (Except EffectError Unit)

namespace IoRun

variable {S σ τ σ' τ' : Type} {source : Source S}

def course (r : IoRun S σ τ) : Course S :=
  ⟨r.drive.pump, r.drive.resume, r.drive.result, r.core, r.pending, r.verdict⟩

/-- A turn of the loop takes no notice of the streams. -/
theorem course_turn (source : Source S) {r : IoRun S σ τ} {r' : IoRun S σ' τ'}
    (h : r.course = r'.course) : (r.turn source).course = (r'.turn source).course := by
  obtain ⟨⟨pump, resume, ⟨core, sink, pending⟩, result⟩, verdict⟩ := r
  obtain ⟨⟨pump', resume', ⟨core', sink', pending'⟩, result'⟩, verdict'⟩ := r'
  obtain ⟨rfl, rfl, rfl, rfl, rfl, rfl⟩ := Course.mk.inj h
  cases pending with
  | cons output rest => rfl
  | nil =>
    cases result with
    | some result => cases verdict <;> rfl
    | none =>
      -- the one place where the sink is near: the dispatcher works on it, but hands it on
      rcases hs : pump.step source resume with ⟨_ | _ | v, pump'⟩
      · simp [turn, course, IoRun.core, IoRun.pending, Drive.turn, hs]
      · simp [turn, course, IoRun.core, IoRun.pending, Drive.turn, hs]
      · rcases hd : core.dispatch v with ⟨_ | next, core', outputs⟩ <;>
          simp [turn, course, IoRun.core, IoRun.pending, Drive.turn, hs, Session.dispatch, hd]

theorem course_iterate (source : Source S) {r : IoRun S σ τ} {r' : IoRun S σ' τ'}
    (h : r.course = r'.course) (n : Nat) :
    ((turn source)^[n] r).course = ((turn source)^[n] r').course := by
  induction n with
  | zero => exact h
  | succ n ih =>
    rw [Function.iterate_succ_apply', Function.iterate_succ_apply']
    exact course_turn source ih

theorem course_withSink (source : Source S) (r : IoRun S σ τ) (sink : Sink σ τ) (n : Nat) :
    ((turn source)^[n] (r.withSink sink)).course = ((turn source)^[n] r).course :=
  have same : (r.withSink sink).course = r.course := rfl
  course_iterate source same n

variable [OutputStream σ] [OutputStream τ] [OutputStream σ'] [OutputStream τ']

/-- The moves of the tasks do not get the loop any further, and its own are all it needs. -/
theorem course_after {moves : List Move} {r r' : IoRun S σ τ}
    (h : r.after source moves = some r') :
    r'.course = ((turn source)^[moves.count .loop] r).course := by
  induction moves generalizing r with
  | nil =>
    obtain rfl : r = r' := by simpa [after] using h
    rfl
  | cons m rest ih =>
    obtain ⟨⟨next, events⟩, hm, hrest⟩ := Option.bind_eq_some_iff.1 h
    rw [ih hrest]
    cases m with
    | loop =>
      obtain ⟨-, rfl⟩ := move_loop hm
      rw [List.count_cons_self, Function.iterate_succ_apply]
    | writer channel =>
      obtain ⟨sink, -, rfl⟩ := move_writer_cases hm
      rw [List.count_cons_of_ne (by simp)]
      exact course_withSink source r sink _

/-- Two loops over the same source that have had as many turns are at the same point. -/
theorem course_eq_of_count {moves moves' : List Move} {start r : IoRun S σ τ}
    {start' r' : IoRun S σ' τ'} (h : start.course = start'.course)
    (hr : start.after source moves = some r) (hr' : start'.after source moves' = some r')
    (hc : moves.count .loop = moves'.count .loop) : r.course = r'.course := by
  rw [course_after hr, course_after hr', hc]
  exact course_iterate source h _

theorem verdict_of_lt_count {moves : List Move} {r r' : IoRun S σ τ}
    (h : r.after source moves = some r') {n : Nat} (hn : n < moves.count .loop) :
    ((turn source)^[n] r).course.verdict = none := by
  induction moves generalizing r n with
  | nil => simp at hn
  | cons m rest ih =>
    obtain ⟨⟨next, events⟩, hm, hrest⟩ := Option.bind_eq_some_iff.1 h
    cases m with
    | loop =>
      obtain ⟨hv, rfl⟩ := move_loop hm
      cases n with
      | zero => exact hv
      | succ n =>
        rw [List.count_cons_self] at hn
        rw [Function.iterate_succ_apply]
        exact ih hrest (Nat.lt_of_succ_lt_succ hn)
    | writer channel =>
      obtain ⟨sink, -, rfl⟩ := move_writer_cases hm
      rw [List.count_cons_of_ne (by simp)] at hn
      rw [← course_withSink source r sink]
      exact ih hrest hn

theorem count_le_of_result {moves moves' : List Move} {start r : IoRun S σ τ}
    {start' r' : IoRun S σ' τ'} (h : start.course = start'.course)
    (hr : start.after source moves = some r) (hr' : start'.after source moves' = some r')
    (hres : r.result?.isSome) : moves'.count .loop ≤ moves.count .loop := by
  refine Nat.le_of_not_lt fun hlt => ?_
  have open' := verdict_of_lt_count hr' hlt
  rw [← course_iterate source h, ← course_after hr] at open'
  have hv : r.verdict.isSome := isSome_verdict hres
  rw [show r.verdict = none from open'] at hv
  cases hv

/-- Two loops over the same source have come to their ends at the same point. -/
theorem course_eq_of_result {moves moves' : List Move} {start r : IoRun S σ τ}
    {start' r' : IoRun S σ' τ'} (h : start.course = start'.course)
    (hr : start.after source moves = some r) (hr' : start'.after source moves' = some r')
    (hres : r.result?.isSome) (hres' : r'.result?.isSome) : r.course = r'.course :=
  course_eq_of_count h hr hr' (Nat.le_antisymm (count_le_of_result h.symm hr' hr hres')
    (count_le_of_result h hr hr' hres))

end IoRun

namespace Writer

variable {σ : Type}

def error? (w : Writer σ) : Option DeviceError :=
  match w.stopped? with
  | some (.error e) => some e
  | _ => none

theorem error?_eq_some {w : Writer σ} {e : DeviceError} :
    w.error? = some e ↔ w.stopped? = some (.error e) := by
  unfold error?
  split <;> simp_all

/-- A writer that nobody asks for flushes. Its task reports the first failure of the stream,
as it is. -/
structure Reports (w : Writer (Watched σ)) : Prop where
  texts : ∀ signal ∈ w.queue, ∃ text, signal = .text text
  unasked : ∀ ticket, w.phase ≠ .flushing (.answer ticket)
  failure : w.stream.failure? = w.error?

theorem reports_new (label : String) (stream : σ) : (new label (Watched.new stream)).Reports :=
  ⟨by simp [new], by simp [new], rfl⟩

theorem Reports.send {w : Writer (Watched σ)} (h : w.Reports) (text : String) :
    (w.send text).1.Reports := by
  unfold Writer.send
  split
  · exact h
  · cases hs : w.stopped? with
    | some outcome => exact h
    | none =>
      refine ⟨?_, h.unasked, h.failure⟩
      intro signal hm
      rcases List.mem_append.1 hm with hm | hm
      · exact h.texts signal hm
      · exact ⟨text, List.mem_singleton.1 hm⟩

theorem Reports.close {w : Writer (Watched σ)} (h : w.Reports) : w.close.Reports :=
  ⟨h.texts, h.unasked, h.failure⟩

variable [OutputStream σ]

/-- The task stops at the first call that fails, so that there is no second one. -/
theorem Reports.turn {w w' : Writer (Watched σ)} {events : List Log.Event} (h : w.Reports)
    (ht : Turn w w' events) : w'.Reports := by
  have well : w.stream.failure? = none := by
    rw [h.failure, Option.eq_none_iff_forall_ne_some]
    exact fun e he => ht.not_failed ⟨e, error?_eq_some.1 he⟩
  cases ht with
  | takeText hp hq =>
    refine ⟨fun signal hm => h.texts signal (by simp [hq, hm]), by simp, well⟩
  | takeFlush hp hq =>
    obtain ⟨text, ht⟩ := h.texts _ (by rw [hq]; exact List.mem_cons_self)
    cases ht
  | takeEnd hp hq hc => exact ⟨h.texts, by simp, well⟩
  | endText hp =>
    refine ⟨h.texts, ?_, ?_⟩
    · cases hq : w.queue <;> simp [afterText]
    · cases hq : w.queue <;> simp [afterText, well, error?, stopped?]
  | line hp hm => exact ⟨h.texts, by simp, by simpa [error?, stopped?] using well⟩
  | fullLine hp hm => exact ⟨h.texts, by simp, by simpa [error?, stopped?] using well⟩
  | drained hp hd => exact ⟨h.texts, by simp, by simp [well, hd, Call.error?, error?, stopped?]⟩
  | broken hp hd => exact ⟨h.texts, by simp, by simp [well, hd, Call.error?, error?, stopped?]⟩
  | @flush purpose hp =>
    refine ⟨by simpa using h.texts, ?_, ?_⟩
    · cases purpose with
      | answer ticket => exact absurd hp (h.unasked ticket)
      | idle => cases (OutputStream.flush w.stream).1 <;> simp [flushed]
      | last => cases (OutputStream.flush w.stream).1 <;> simp [flushed]
    · cases purpose with
      | answer ticket => exact absurd hp (h.unasked ticket)
      | idle =>
        cases hf : (OutputStream.flush w.stream).1 <;>
          simp [flushed, well, hf, Call.error?, error?, stopped?]
      | last =>
        cases hf : (OutputStream.flush w.stream).1 <;>
          simp [flushed, well, hf, Call.error?, error?, stopped?]

end Writer

namespace IoRun

variable {S σ τ : Type} {source : Source S} [OutputStream σ] [OutputStream τ]

theorem upheld_reports {ρ : Type} [OutputStream ρ] :
    Upheld fun _ (w : Writer (Watched ρ)) => w.Reports where
  send _ _ output h _ := h.send output.content
  close _ _ h := h.close
  turn _ _ _ _ h ht := h.turn ht

/-- The error of the run itself if there is one, else that of the first stream, else that of
the second one. -/
def firstError (verdict : Except EffectError Unit) (first second : Option DeviceError) :
    Except EffectError Unit :=
  match verdict, first, second with
  | .error e, _, _ => .error e
  | .ok (), some e, _ => .error (.device e)
  | .ok (), none, some e => .error (.device e)
  | .ok (), none, none => .ok ()

omit [OutputStream σ] [OutputStream τ] in
theorem result_eq_firstError {r : IoRun S (Watched σ) (Watched τ)}
    {result : Except EffectError Unit} (hp : r.sink.primary.Reports)
    (hs : r.sink.secondary.Reports) (h : r.result? = some result) :
    ∃ verdict, r.verdict = some verdict ∧ result = firstError verdict
      r.sink.primary.stream.failure? r.sink.secondary.stream.failure? := by
  obtain ⟨verdict, o₁, o₂, hv, h₁, h₂, rfl⟩ := ended_of_result h
  refine ⟨verdict, hv, ?_⟩
  rw [hp.failure, hs.failure]
  cases verdict <;> cases o₁ <;> cases o₂ <;> simp [Writer.error?, h₁, h₂] <;> rfl

end IoRun

section Runs

variable {S σ τ σ' τ' : Type} [OutputStream σ] [OutputStream τ] [OutputStream σ']
  [OutputStream τ']

/-- Whatever the streams do, a run of a source that plays to its end comes to an end on every
schedule. Loops over the same source that have had as many turns are at the same point, and at
their ends they have asked the source the same and have the same verdict. The result is the
first error among the verdict and those of the streams, and a stream that never fails has all
its lines. -/
theorem streams_do_not_steer (source : Source S) (state : S) (table : Table) (primary : σ)
    (secondary : τ) (primary' : σ') (secondary' : τ') :
    let start := IoRun.new table (state, ([] : List Exchange)) (Watched.new primary)
      (Watched.new secondary)
    let other := IoRun.new table (state, ([] : List Exchange)) (Watched.new primary')
      (Watched.new secondary')
    (∀ t, source.Plays none state (.new table) t → ∃ budget, ∀ moves r,
      start.after source.transcribing moves = some r → moves.length ≤ budget ∧
        ((∀ m, r.move source.transcribing m = none) ↔ r.result?.isSome)) ∧
    (∀ moves r moves' r', start.after source.transcribing moves = some r →
      other.after source.transcribing moves' = some r' →
        moves.count .loop = moves'.count .loop → r.course = r'.course) ∧
    ∀ moves r result, start.after source.transcribing moves = some r →
      r.result? = some result → ∃ t, source.Plays none state (.new table) t ∧
        r.verdict = some t.verdict ∧
        result = IoRun.firstError t.verdict r.sink.primary.stream.failure?
          r.sink.secondary.stream.failure? ∧
        (Stream.NeverFails primary →
          r.sink.primary.stream.writes = linesOn .primary (routes none t.outputs)) ∧
        (Stream.NeverFails secondary →
          r.sink.secondary.stream.writes = linesOn .secondary (routes none t.outputs)) ∧
        ∀ moves' r' result', other.after source.transcribing moves' = some r' →
          r'.result? = some result' → r.drive.pump.state = r'.drive.pump.state ∧
            r.drive.pump.pulled = r'.drive.pump.pulled ∧ r.verdict = r'.verdict := by
  intro start other
  have same : start.course = other.course := rfl
  refine ⟨?_, fun moves r moves' r' hr hr' => IoRun.course_eq_of_count same hr hr', ?_⟩
  · intro t plays
    obtain ⟨budget, onCourse⟩ := IoRun.onCourse_new (plays.transcribed []) primary secondary
    refine ⟨budget, fun moves r hr => ?_⟩
    obtain ⟨b, hb, onCourse⟩ := onCourse.after hr
    exact ⟨by omega, onCourse.stuck_iff⟩
  · intro moves r result hr hres
    obtain ⟨t, plays⟩ := IoRun.plays_of_result hr (by rw [hres]; rfl)
    obtain ⟨budget, onCourse⟩ := IoRun.onCourse_new plays primary secondary
    obtain ⟨b, -, onCourse⟩ := onCourse.after hr
    obtain ⟨verdict, hv, hfirst⟩ := IoRun.result_eq_firstError
      (IoRun.upheld .primary IoRun.upheld_reports (by exact Writer.reports_new _ _) hr)
      (IoRun.upheld .secondary IoRun.upheld_reports (by exact Writer.reports_new _ _) hr) hres
    obtain ⟨rfl, first, second⟩ := onCourse.finished hv
    obtain ⟨_, _, _, -, h₁, h₂, -⟩ := IoRun.ended_of_result hres
    refine ⟨t, plays.of_transcribing, hv, hfirst, fun hp => ?_, fun hs => ?_, ?_⟩
    · have steady : r.sink.primary.Steady :=
        IoRun.steady_after .primary hr (Writer.steady_new _ hp.watched)
      exact first (steady.stopped (by rw [h₁]; rfl))
    · have steady : r.sink.secondary.Steady :=
        IoRun.steady_after .secondary hr (Writer.steady_new _ hs.watched)
      exact second (steady.stopped (by rw [h₂]; rfl))
    · intro moves' r' result' hr' hres'
      have ended := IoRun.course_eq_of_result same hr hr' (by rw [hres]; rfl) (by rw [hres']; rfl)
      have pump : r.drive.pump = r'.drive.pump := congrArg Course.pump ended
      exact ⟨by rw [pump], by rw [pump], congrArg Course.verdict ended⟩

def noteAndText : List Item :=
  [.ok (Instruction.write "note" 2), .ok (Instruction.write "text" 1)]

/-- A run of these in which the first stream has a full device. -/
def fullDeviceRun : IoRun (List Item × List Exchange) (Watched (Buffered BoundedDevice))
    (Watched Recorder) :=
  .new .plain (noteAndText, []) (.new (.new (.new none (some 0) false) 1))
    (.new (.new none false))

/-- The loop first. The task of the first stream breaks off at its first drain. -/
def brokenOff : List Move :=
  List.replicate 6 .loop ++ List.replicate 3 (.writer .primary) ++
    List.replicate 6 (.writer .secondary)

def bothStreamsRun : IoRun (List Item × List Exchange) (Watched Recorder) (Watched Recorder) :=
  .new .plain (noteAndText, []) (.new (.new none false)) (.new (.new none false))

/-- The full device makes a difference to the result only. -/
theorem noteAndText_isolated :
    ∃ r r', fullDeviceRun.after Source.items.transcribing brokenOff = some r ∧
      bothStreamsRun.after Source.items.transcribing loopFirst = some r' ∧
      r.result? = some (.error (.device ⟨.storageFull, "device full"⟩)) ∧
      r'.result? = some (.ok ()) ∧ r.drive.pump.state = r'.drive.pump.state ∧
      r.drive.pump.pulled = r'.drive.pump.pulled ∧ r.verdict = r'.verdict ∧
      r.sink.secondary.stream.writes = ["note"] := by
  obtain ⟨r, hr, hres⟩ : ∃ r, fullDeviceRun.after Source.items.transcribing brokenOff = some r ∧
    r.result? = some (.error (.device ⟨.storageFull, "device full"⟩)) := ⟨_, rfl, rfl⟩
  obtain ⟨r', hr', hres'⟩ : ∃ r, bothStreamsRun.after Source.items.transcribing loopFirst =
    some r ∧ r.result? = some (.ok ()) := ⟨_, rfl, rfl⟩
  obtain ⟨t, plays, -, -, -, second, compare⟩ :=
    (streams_do_not_steer Source.items noteAndText .plain _ _ (Recorder.new none false)
      (Recorder.new none false)).2.2 brokenOff r _ hr hres
  obtain ⟨state, pulled, verdict⟩ := compare loopFirst r' _ hr' hres'
  obtain rfl := plays.unique ((Source.yields_items noteAndText).plays (.new .plain))
  have lines : linesOn .secondary
      (routes none (Transcript.of (.new .plain) noteAndText).outputs) = ["note"] := by decide
  refine ⟨r, r', hr, hr', hres, hres', state, pulled, verdict, ?_⟩
  rw [← lines]
  exact second (Stream.neverFails_recorder rfl)

end Runs

end StyledEffects
