import StyledEffects.Proofs.Barrier
import StyledEffects.Proofs.Trails

/-! What the log has to say of a stream that fails. The task warns of a drain that fails, and of
nothing else; a flush that fails stops it without a word. After either, the handle warns of every
text that it discards. -/

namespace StyledEffects

open Wire

def Call.drainError? : Call → Option DeviceError
  | drain (.error e) => some e
  | _ => none

namespace Call

theorem eq_of_error? {call : Call} {e : DeviceError} (h : call.error? = some e) :
    call = .drain (.error e) ∨ call = .flush (.error e) := by
  rcases call with _ | (_ | _) | (_ | _) <;> simp_all [error?]

theorem drainError?_eq_none {call : Call} (h : call.error? = none) : call.drainError? = none := by
  rcases call with _ | (_ | _) | (_ | _) <;> simp_all [drainError?, error?]

end Call

namespace Log

def kept (filter : Filter) (events : List Event) : List Event :=
  events.filter fun e => filter.passes e.level

theorem lines_eq_map_kept (filter : Filter) (events : List Event) :
    lines filter events = (kept filter events).map Event.line := rfl

theorem about_kept {filter : Filter} (h : filter.passes .warn = true) (writer : String)
    (events : List Event) : about writer (kept filter events) = about writer events := by
  rw [about, kept, List.filter_filter]
  refine List.filter_congr fun e _ => ?_
  by_cases hw : e.warned? = some writer
  · have level := e.level_eq_warn_iff.2 (by simp [hw])
    simp [hw, level, h]
  · simp [hw]

end Log

namespace Writer

variable {σ : Type}

/-- The warnings so far: one of every drain that failed and, once the task has failed, one of every
text that was discarded. -/
def Noted (log : List Log.Event) (w : Writer (Watched σ)) : Prop :=
  ∃ discarded, Log.about w.label log =
      (w.stream.calls.filterMap Call.drainError?).map (.writeFailed w.label) ++
        List.replicate discarded (.discarding w.label) ∧
    (w.Failed ∨ discarded = 0)

theorem noted_new (label : String) (stream : σ) : Noted [] (new label (Watched.new stream)) :=
  ⟨0, rfl, Or.inr rfl⟩

variable [OutputStream σ]

/-- A turn is logged with a warning exactly if it is a drain that fails. -/
theorem Turn.about {w w' : Writer (Watched σ)} {events : List Log.Event} (h : Turn w w' events) :
    (w'.stream.calls.filterMap Call.drainError?).map (Log.Event.writeFailed w.label) =
      (w.stream.calls.filterMap Call.drainError?).map (.writeFailed w.label) ++
        Log.about w.label events := by
  cases h with
  | line hp hm => simp [Call.drainError?, Log.about]
  | fullLine hp hm => simp [Call.drainError?, Log.about, Log.Event.warned?]
  | drained hp hd => simp [hd, Call.drainError?, Log.about]
  | broken hp hd => simp [hd, Call.drainError?, Log.about, Log.Event.warned?]
  | flush hp => simp [Call.drainError?, Log.about]
  | _ => simp [Log.about]

theorem Noted.turn {w w' : Writer (Watched σ)} {log events : List Log.Event} (h : Noted log w)
    (ht : Turn w w' events) : Noted (log ++ events) w' := by
  obtain ⟨discarded, about, failed | rfl⟩ := h
  · exact absurd failed ht.not_failed
  · refine ⟨0, ?_, Or.inr rfl⟩
    rw [ht.label, ht.about, Log.about_append, about]
    simp

omit [OutputStream σ] in
theorem Noted.send {w : Writer (Watched σ)} {log : List Log.Event} (h : Noted log w)
    (hs : w.stopped? = none ∨ w.Failed) (text : String) :
    Noted (log ++ (w.send text).2) (w.send text).1 := by
  obtain ⟨discarded, about, only⟩ := h
  have adds := adds_send text w
  have same : (w.send text).1.Failed ↔ w.Failed := by rw [Failed, Failed, adds.stopped?]
  simp only [Noted, label_send, adds.stream, same, Log.about_append, about, send_events]
  by_cases lost : text ≠ "" ∧ w.stopped?.isSome
  · have failed : w.Failed := hs.resolve_left fun hn => by simp [hn] at lost
    refine ⟨discarded + 1, ?_, Or.inl failed⟩
    rw [if_pos lost, List.replicate_succ', List.append_assoc]
    simp [Log.about, Log.Event.warned?]
  · refine ⟨discarded, ?_, only⟩
    rw [if_neg lost]
    simp [Log.about]

omit [OutputStream σ] in
theorem Noted.quiet {w w' : Writer (Watched σ)} {log : List Log.Event} (h : Noted log w)
    (ha : w.Adds w') (hl : w'.label = w.label) : Noted log w' := by
  obtain ⟨discarded, about, only⟩ := h
  refine ⟨discarded, by rw [hl, ha.stream, about], ?_⟩
  rwa [Failed, ha.stopped?]

theorem Noted.used {w w' : Writer (Watched σ)} {u : Use} {before : List Use}
    {log events : List Log.Event} (h : Noted log w) (hs : Serves before w)
    (hu : w.use u = some (w', events)) : Noted (log ++ events) w' := by
  have used := used_of_use hu
  cases used with
  | send text ho =>
    obtain rfl : (w.send text).2 = events := by
      rw [use, ho] at hu
      exact congrArg Prod.snd (Option.some.inj hu)
    exact h.send (hs.tracks.running ho) text
  | flush ho =>
    obtain rfl : [] = events := by simpa [use, ho] using hu
    rw [List.append_nil]
    exact h.quiet (adds_requestFlush w) (Used.flush ho).label
  | shutdown ho =>
    obtain rfl : [] = events := by simpa [use, ho] using hu
    rw [List.append_nil]
    exact h.quiet (adds_close w) rfl
  | turn ht => exact h.turn (turn_of_step hu)

theorem noted_trail {label : String} {stream : σ} {uses : List Use} {w : Writer (Watched σ)}
    {log : List Log.Event}
    (h : Log.trail use uses (new label (Watched.new stream)) = some (w, log)) :
    Serves uses w ∧ Noted log w :=
  Log.trail_invariant (P := fun before w log => Serves before w ∧ Noted log w) h
    ⟨serves_new label stream, noted_new label stream⟩
    fun _ _ _ _ _ _ ⟨serves, noted⟩ hu => ⟨serves.used (used_of_use hu), noted.used serves hu⟩

/-! ## Writers alone, in sinks and in runs -/

/-- A writer onto a watched stream, with all that has been logged up to now. It is used by itself,
or as one of the two of a sink or of a run, in any order. -/
inductive Logged (w : Writer (Watched σ)) : List Log.Event → Prop
  | alone {label : String} {stream : σ} {uses : List Use} {log : List Log.Event}
    (h : Log.trail use uses (new label (Watched.new stream)) = some (w, log)) : Logged w log
  | inSink {α β : Type} [OutputStream α] [OutputStream β] (side : IoRun.Side α β (Watched σ))
    {primary : α} {secondary : β} {stream : σ} {uses : List Sink.Use} {s : Sink α β}
    {log : List Log.Event}
    (start : (side.writer (.new primary secondary)).stream = Watched.new stream)
    (h : Log.trail Sink.use uses (.new primary secondary) = some (s, log))
    (hw : side.writer s = w) : Logged w log
  | inRun {S α β : Type} [OutputStream α] [OutputStream β] (side : IoRun.Side α β (Watched σ))
    {source : Source S} {table : Style.Table} {state : S} {primary : α} {secondary : β}
    {stream : σ} {moves : List Move} {r : IoRun S α β} {log : List Log.Event}
    (start : (side.writer (.new primary secondary)).stream = Watched.new stream)
    (h : Log.trail (IoRun.move source) moves (.new table state primary secondary) = some (r, log))
    (hw : side.writer r.sink = w) : Logged w log

theorem noted_of_leads {label : String} {stream : σ} {w : Writer (Watched σ)}
    {log : List Log.Event} (hl : w.label = label)
    (h : Log.Leads use label (new label (Watched.new stream)) w (Log.about label log)) :
    ∃ uses, Serves uses w ∧ Noted log w := by
  subst hl
  obtain ⟨uses, noted, trail, about⟩ := h
  obtain ⟨serves, discarded, shown, only⟩ := noted_trail trail
  exact ⟨uses, serves, discarded, about.symm.trans shown, only⟩

theorem writer_new {α β ρ : Type} [OutputStream α] [OutputStream β] [OutputStream ρ]
    (side : IoRun.Side α β ρ) (primary : α) (secondary : β) :
    side.writer (.new primary secondary) =
      new side.channel.name (side.writer (.new primary secondary)).stream := by
  cases side <;> rfl

theorem Logged.noted {w : Writer (Watched σ)} {log : List Log.Event} (h : Logged w log) :
    ∃ uses, Serves uses w ∧ Noted log w := by
  cases h with
  | @alone label stream uses _ h => exact ⟨uses, noted_trail h⟩
  | @inSink α β _ _ side primary secondary stream uses s _ start h hw =>
    subst hw
    obtain ⟨named, leads⟩ := Log.leads_of_trail side.writer h
      (Sink.named_new primary secondary) fun _ _ _ _ hs hu => side.leads_of_use hs hu
    rw [writer_new, start] at leads
    exact noted_of_leads (side.label_writer named) leads
  | @inRun S α β _ _ side source table state primary secondary stream moves r _ start h hw =>
    subst hw
    obtain ⟨regular, leads⟩ := Log.leads_of_trail (fun r => side.writer r.sink) h
      (IoRun.regular_new table state primary secondary)
      fun _ _ _ _ hs hm => IoRun.leads_of_move side hs hm
    have first : side.writer (IoRun.new table state primary secondary).sink =
        side.writer (.new primary secondary) := rfl
    rw [first, writer_new, start] at leads
    exact noted_of_leads (side.label_writer regular.named) leads

/-- A writer, alone or in a sink or a run, whatever its stream does and whenever things happen, and
a log that has warnings. If the task has stopped with an error, that is the error of the last call,
the only one that failed. If it was a drain, the log says so. If it was a flush, be it the one after
the last text, one that was asked for or the one at the end, the log does not: all that there may be
are warnings of texts discarded later. If the task has not failed there is no warning at all. -/
theorem failure_logged_iff_drain {w : Writer (Watched σ)} {events : List Log.Event}
    {filter : Log.Filter} (h : Logged w events) (hf : filter.passes .warn = true) :
    let log := Log.kept filter events
    (∀ stop, w.stopped? = some (.error stop) → ∃ before cause discarded,
      (∀ call ∈ before, call.error? = none) ∧ stop.kind = cause.kind ∧
      ((w.stream.calls = before ++ [.drain (.error cause)] ∧
          Log.about w.label log =
            .writeFailed w.label cause :: List.replicate discarded (.discarding w.label)) ∨
        (w.stream.calls = before ++ [.flush (.error cause)] ∧
          Log.about w.label log = List.replicate discarded (.discarding w.label)))) ∧
    (¬ w.Failed → Log.about w.label log = []) := by
  intro log
  obtain ⟨uses, serves, discarded, about, only⟩ := h.noted
  have about : Log.about w.label log =
      (w.stream.calls.filterMap Call.drainError?).map (.writeFailed w.label) ++
        List.replicate discarded (.discarding w.label) := (Log.about_kept hf _ _).trans about
  have quiet {calls : List Call} (hc : ∀ call ∈ calls, call.error? = none) :
      calls.filterMap Call.drainError? = [] :=
    List.filterMap_eq_nil_iff.2 fun call hm => Call.drainError?_eq_none (hc call hm)
  refine ⟨fun stop hstop => ?_, fun unfailed => ?_⟩
  · cases serves.heeds with
    | well hw => exact absurd ⟨stop, hstop⟩ hw
    | @broken before call cause e hs hc hb he hk =>
      obtain rfl : e = stop := by simpa [hs] using hstop
      refine ⟨before, cause, discarded, hb, hk, ?_⟩
      rw [about, hc, List.filterMap_append, quiet hb]
      rcases Call.eq_of_error? he with rfl | rfl
      · exact Or.inl ⟨rfl, rfl⟩
      · exact Or.inr ⟨rfl, rfl⟩
  · cases serves.heeds with
    | well hw hc => simpa [quiet hc, only.resolve_left unfailed] using about
    | broken hs => exact absurd ⟨_, hs⟩ unfailed

def textsAndPop : List Item :=
  [.ok (Instruction.write "a" 1), .ok (Instruction.write "b" 2), .ok Instruction.pop]

/-- A run of these in which the first stream fails at its first flush and the second one at its
first drain. -/
def twoFailuresRun : IoRun (List Item) (Watched (Buffered BoundedDevice)) (Watched Recorder) :=
  .new .plain textsAndPop (.new (.new (.new none none true) 8)) (.new (.new (some 1) true))

def untilBothFail : List Move :=
  List.replicate 6 .loop ++ List.replicate 4 (.writer .primary) ++
    List.replicate 3 (.writer .secondary)

/-- The error of the run hides those of both streams. The log has a warning of the drain; the flush
has left no trace. -/
theorem twoFailuresRun_logged :
    ∃ r log, Log.trail (IoRun.move Source.items) untilBothFail twoFailuresRun = some (r, log) ∧
      r.result? = some (.error .popOnEmptyStack) ∧
      r.sink.primary.stopped? = some (.error ⟨.connectionReset, "device flush failed"⟩) ∧
      r.sink.secondary.stopped? = some (.error ⟨.brokenPipe, "mock drain failed"⟩) ∧
      " WARN write failed writer=\"secondary\" err=mock drain failed" ∈
        Log.lines (.upTo .warn) log ∧
      ∀ e ∈ Log.about "primary" (Log.kept (.upTo .warn) log), e = .discarding "primary" := by
  obtain ⟨r, log, trail, result, first, second, firstCall, secondCall, names⟩ : ∃ r log,
      Log.trail (IoRun.move Source.items) untilBothFail twoFailuresRun = some (r, log) ∧
      r.result? = some (.error .popOnEmptyStack) ∧
      r.sink.primary.stopped? = some (.error ⟨.connectionReset, "device flush failed"⟩) ∧
      r.sink.secondary.stopped? = some (.error ⟨.brokenPipe, "mock drain failed"⟩) ∧
      r.sink.primary.stream.calls.getLast? =
        some (.flush (.error ⟨.connectionReset, "device flush failed"⟩)) ∧
      r.sink.secondary.stream.calls.getLast? =
        some (.drain (.error ⟨.brokenPipe, "mock drain failed"⟩)) ∧
      r.sink.primary.label = "primary" ∧ r.sink.secondary.label = "secondary" :=
    ⟨_, _, rfl, rfl, rfl, rfl, rfl, rfl, rfl, rfl⟩
  have passes : (Log.Filter.upTo .warn).passes .warn = true := by decide
  refine ⟨r, log, trail, result, first, second, ?_, ?_⟩
  · have logged : r.sink.secondary.Logged log := .inRun .secondary (by rfl) trail rfl
    obtain ⟨before, cause, discarded, -, -, ⟨calls, about⟩ | ⟨calls, -⟩⟩ :=
      (failure_logged_iff_drain logged passes).1 _ second
    · obtain rfl : cause = ⟨.brokenPipe, "mock drain failed"⟩ := by
        simpa [calls] using secondCall
      have shown : .writeFailed "secondary" ⟨.brokenPipe, "mock drain failed"⟩ ∈
          Log.about "secondary" (Log.kept (.upTo .warn) log) := by
        rw [← names.2, about]
        exact List.mem_cons_self
      rw [Log.lines_eq_map_kept]
      exact List.mem_map.2 ⟨_, (List.mem_filter.1 shown).1, by decide +kernel⟩
    · simp [calls] at secondCall
  · have logged : r.sink.primary.Logged log := .inRun .primary (by rfl) trail rfl
    obtain ⟨before, cause, discarded, -, -, ⟨calls, -⟩ | ⟨-, about⟩⟩ :=
      (failure_logged_iff_drain logged passes).1 _ first
    · simp [calls] at firstCall
    · intro e he
      rw [← names.1, about] at he
      rw [(List.mem_replicate.1 he).2, names.1]

end Writer

end StyledEffects
