import StyledEffects.Proofs.Isolation
import StyledEffects.Proofs.Rechunking

/-! Which error a rendering reports when there is more than one. A run that has failed has the
line that has begun written before its error is returned. If the stream fails there, its error
is the result, and that of the run is lost. -/

namespace StyledEffects

open Json Style

namespace Pipe

variable {P σ : Type} [OutputStream σ]

theorem run_add (feed : Feed P) (m n : Nat) (p : Pipe P σ) :
    p.run feed (m + n) = (p.run feed m).run feed n := by
  induction m generalizing p with
  | zero => rw [Nat.zero_add, run]
  | succ m ih => rw [Nat.add_right_comm, run, ih, run]

theorem run_succ (feed : Feed P) (n : Nat) (p : Pipe P σ) :
    p.run feed (n + 1) = (p.run feed n).turn feed :=
  run_add feed n 1 p

/-- A pipe that has not gone on after a call that has failed: that was a drain, and its error is
the result. -/
structure Heeds (p : Pipe P (Watched σ)) : Prop where
  partialLine : p.result = none → '\n' ∉ p.partialLine.toList
  failure : ∀ d, p.stream.failure? = some d → p.result = some (.error (.device d)) ∧
    ∃ well, p.stream.calls = well ++ [.drain (.error d)] ∧ well.findSome? Call.error? = none

section

omit [OutputStream σ]

theorem heeds_new (feed : P) (s : σ) : (new feed (Watched.new s)).Heeds :=
  ⟨fun _ => List.not_mem_nil, fun _ h => nomatch h⟩

theorem Heeds.failure?_eq_none {p : Pipe P (Watched σ)} (h : p.Heeds)
    (hr : ∀ d, p.result ≠ some (.error (.device d))) : p.stream.failure? = none := by
  cases hf : p.stream.failure? with
  | none => rfl
  | some d => exact absurd (h.failure d hf).1 (hr d)

end

/-- Over a stream that has not failed, a put fails exactly if its last call does. -/
theorem failure?_put {p : Pipe P (Watched σ)} (hw : p.stream.failure? = none) (text : String) :
    (p.put text).2.failure? = (Call.drain (p.put text).1).error? :=
  (Stream.wrote_put p.stream _).failure?_eq hw

theorem calls_put {p : Pipe P (Watched σ)} (hw : p.stream.failure? = none) {text : String}
    {d : DeviceError} (h : (p.put text).1 = .error d) :
    ∃ well, (p.put text).2.calls = well ++ [.drain (.error d)] ∧
      well.findSome? Call.error? = none := by
  have wrote : Stream.Wrote p.stream (Text.lines (p.partialLine ++ text)) (p.put text) :=
    Stream.wrote_put p.stream _
  generalize p.put text = written at h wrote
  cases wrote with
  | all => cases h
  | part _ _ calls well =>
    obtain rfl := Except.error.inj h
    exact ⟨_, calls, well.trans hw⟩

/-- When the line that has begun cannot be written there is one, and the drain after it fails. -/
theorem calls_put_empty {p : Pipe P (Watched σ)} (hp : '\n' ∉ p.partialLine.toList)
    {d : DeviceError} (h : (p.put "").1 = .error d) :
    p.partialLine ≠ "" ∧
      (p.put "").2.calls = p.stream.calls ++ [.write p.partialLine false, .drain (.error d)] := by
  rw [put, String.append_empty] at h ⊢
  by_cases he : p.partialLine = ""
  · rw [he] at h
    cases h
  · rw [Text.lines_of_notMem hp he] at h ⊢
    cases hw : (Stream.writePiece p.partialLine p.stream).1 with
    | ok u =>
      rw [Stream.put_cons_of_ok hw, Stream.put_nil] at h
      cases h
    | error d' =>
      rw [Stream.put_cons_of_error hw] at h ⊢
      obtain rfl := Except.error.inj h
      exact ⟨he, (Stream.afterPiece_of_error hw).2⟩

theorem turn_feed {feed : Feed P} {p : Pipe P σ} (hr : p.result = none)
    (hp : '\n' ∉ p.partialLine.toList) {item : Option (Except EffectError String)} {rest : P}
    (h : feed.pull p.feed = some (item, rest)) : (p.turn feed).feed = rest := by
  rcases item with _ | e | chunk
  · exact (turn_quiet hr hp h).1
  · exact (turn_failed hr hp h).1
  · exact (turn_chunk hr hp h).1

theorem heeds_of_put {p p' : Pipe P (Watched σ)} {text : String}
    {verdict : Except EffectError Unit} (hw : p.stream.failure? = none)
    (stream : p'.stream = (p.put text).2)
    (result : p'.result = some (ending (p.put text).1 verdict)) : p'.Heeds := by
  refine ⟨fun hr => ?_, fun d hd => ?_⟩
  · rw [result] at hr
    cases hr
  · rw [stream, failure?_put hw] at hd
    cases ho : (p.put text).1 with
    | ok u =>
      rw [ho] at hd
      cases hd
    | error d' =>
      rw [ho] at hd result
      obtain rfl := Option.some.inj hd
      rw [stream]
      exact ⟨result, calls_put hw ho⟩

theorem heeds_of_takes {p p' : Pipe P (Watched σ)} {text : String}
    (hw : p.stream.failure? = none) (h : p.Takes text p') : p'.Heeds := by
  obtain ⟨lines, put, -⟩ := h.lines
  have wrote := Stream.wrote_put p.stream lines
  rw [put] at wrote
  have well : p'.stream.failure? = none := wrote.failure?_eq hw
  refine ⟨fun _ => h.partialLine, fun d hd => ?_⟩
  rw [well] at hd
  cases hd

theorem Heeds.turn {feed : Feed P} {p : Pipe P (Watched σ)} (h : p.Heeds) :
    (p.turn feed).Heeds := by
  cases hr : p.result with
  | some result =>
    rw [Pipe.turn, if_pos (by rw [hr]; rfl)]
    exact h
  | none =>
    have line := h.partialLine hr
    have well : p.stream.failure? = none := h.failure?_eq_none (by simp [hr])
    rcases hp : feed.pull p.feed with _ | ⟨_ | e | chunk, rest⟩
    · obtain ⟨-, stream, result⟩ := turn_ended hr line hp
      exact heeds_of_put well stream result
    · exact heeds_of_takes well (turn_quiet hr line hp).2
    · obtain ⟨-, stream, result⟩ := turn_failed hr line hp
      exact heeds_of_put well stream result
    · obtain ⟨-, takes | ⟨d, result, breaks⟩⟩ := turn_chunk hr line hp
      · exact heeds_of_takes well takes
      · have broken := breaks ""
        have ends : (p.turn feed).result = some (ending (p.put (chunk ++ "")).1 (.ok ())) := by
          rw [broken]
          exact result
        exact heeds_of_put well (by rw [broken]) ends

theorem heeds_run {feed : Feed P} {p : Pipe P (Watched σ)} (h : p.Heeds) (turns : Nat) :
    (p.run feed turns).Heeds := by
  induction turns with
  | zero => exact h
  | succ n ih =>
    rw [run_succ]
    exact ih.turn

theorem run_eq_of_result {feed : Feed P} {start : Pipe P σ} {k n : Nat} (hk : k ≤ n)
    (h : (start.run feed (k + 1)).result.isSome) :
    start.run feed (n + 1) = start.run feed (k + 1) := by
  obtain ⟨more, rfl⟩ := Nat.exists_eq_add_of_le hk
  rw [Nat.add_right_comm, run_add]
  exact run_of_result feed more h

/-! ## The flush at the end -/

/-- The stream is flushed if nothing has failed, and that is all there is after the turns. -/
inductive Closes (last : Pipe P σ) : Pipe P σ → Prop
  | left (result : last.result ≠ some (.ok ())) : Closes last last
  | flushed {p} (result : last.result = some (.ok ())) (feed : p.feed = last.feed)
      (stream : p.stream = (OutputStream.flush last.stream).2)
      (outcome : p.result = some ((OutputStream.flush last.stream).1.mapError .device)) :
    Closes last p

theorem Closes.feed_eq {last p : Pipe P σ} (h : Closes last p) : p.feed = last.feed := by
  cases h with
  | left => rfl
  | flushed _ feed => exact feed

theorem Closes.eq_of_error {last p : Pipe P σ} (h : Closes last p) {e : EffectError}
    (he : last.result = some (.error e)) : p = last := by
  cases h with
  | left => rfl
  | flushed result =>
    rw [he] at result
    cases result

section

variable {feed : Feed P} {last start p : Pipe P (Watched σ)} {k n : Nat}

theorem Closes.of_failure?_eq_none (h : Closes last p) (hf : p.stream.failure? = none) :
    last.stream.failure? = none ∧ p.result = last.result := by
  cases h with
  | left => exact ⟨hf, rfl⟩
  | flushed result feed flush outcome =>
    rw [flush, Watched.failure?_flush, Option.or_eq_none_iff] at hf
    obtain ⟨before, well⟩ := hf
    refine ⟨before, ?_⟩
    rw [outcome, result]
    cases ho : (OutputStream.flush last.stream).1 with
    | ok u => rfl
    | error d =>
      rw [ho] at well
      cases well

theorem Closes.of_failure?_eq_some (h : Closes last p) (heeds : last.Heeds) {d : DeviceError}
    (hd : p.stream.failure? = some d) : p.result = some (.error (.device d)) ∧
      ∃ well call, p.stream.calls = well ++ [call] ∧ well.findSome? Call.error? = none ∧
        call.error? = some d := by
  cases h with
  | left =>
    obtain ⟨result, well, calls, none⟩ := heeds.failure d hd
    exact ⟨result, well, _, calls, none, rfl⟩
  | flushed result feed flush outcome =>
    have before := heeds.failure?_eq_none (by simp [result])
    rw [flush, Watched.failure?_flush, before, Option.none_or] at hd
    refine ⟨?_, _, _, by rw [flush, Watched.calls_flush], before, hd⟩
    rw [outcome]
    cases ho : (OutputStream.flush last.stream).1 with
    | ok u => simp [ho, Call.error?] at hd
    | error d' =>
      obtain rfl : d' = d := by simpa [ho, Call.error?] using hd
      rfl

theorem Closes.of_failed (h : Closes (start.run feed (n + 1)) p) (hk : k ≤ n)
    (heeds : (start.run feed k).Heeds) (hr : (start.run feed k).result = none) {e : EffectError}
    {rest : P} (pull : feed.pull (start.run feed k).feed = some (some (.error e), rest)) :
    p.feed = rest ∧ p.stream = ((start.run feed k).put "").2 ∧
      p.result = some (ending ((start.run feed k).put "").1 (.error e)) := by
  obtain ⟨fed, written, result⟩ := turn_failed hr (heeds.partialLine hr) pull
  rw [← run_succ] at fed written result
  obtain ⟨e', he⟩ : ∃ e', (start.run feed (k + 1)).result = some (.error e') := by
    rw [result]
    cases ((start.run feed k).put "").1 with
    | ok u => exact ⟨e, rfl⟩
    | error d => exact ⟨.device d, rfl⟩
  rw [run_eq_of_result hk (by rw [he]; rfl)] at h
  rw [h.eq_of_error he]
  exact ⟨fed, written, result⟩

theorem Closes.of_broken (h : Closes (start.run feed (n + 1)) p) (hk : k ≤ n)
    (heeds : (start.run feed k).Heeds) (hr : (start.run feed k).result = none)
    {item : Option (Except EffectError String)} {rest : P}
    (pull : feed.pull (start.run feed k).feed = some (item, rest)) {d : DeviceError}
    (hd : (start.run feed (k + 1)).stream.failure? = some d) :
    p.feed = rest ∧ p.result = some (.error (.device d)) := by
  have fed := turn_feed hr (heeds.partialLine hr) pull
  rw [run_succ] at hd
  have result := (heeds.turn.failure d hd).1
  rw [← run_succ] at fed result
  rw [run_eq_of_result hk (by rw [result]; rfl)] at h
  rw [h.eq_of_error result]
  exact ⟨fed, result⟩

theorem Closes.of_end (h : Closes (start.run feed (n + 1)) p) (hk : k ≤ n)
    (heeds : (start.run feed k).Heeds) (hr : (start.run feed k).result = none)
    (pull : feed.pull (start.run feed k).feed = none) : p.feed = (start.run feed k).feed := by
  obtain ⟨fed, -, result⟩ := turn_ended hr (heeds.partialLine hr) pull
  rw [← run_succ] at fed result
  rw [run_eq_of_result hk (by rw [result]; rfl)] at h
  rw [h.feed_eq, fed]

end

end Pipe

namespace PureRun

variable {S σ : Type} [OutputStream σ]

def rendering (source : Source S) (table : Table) (state : S) (stream : σ) (turns : Nat) :
    Pipe (PureRun (S × List Exchange)) (Watched σ) :=
  (Pipe.new (new table (state, [])) (Watched.new stream)).run (feed source.transcribing) turns

def rendered (source : Source S) (limit : Nat) (table : Table) (state : S) (stream : σ) :
    Pipe (PureRun (S × List Exchange)) (Watched σ) :=
  render source.transcribing limit table (state, []) (Watched.new stream)

theorem heeds_rendering (source : Source S) (table : Table) (state : S) (stream : σ)
    (turns : Nat) : (rendering source table state stream turns).Heeds :=
  Pipe.heeds_run (Pipe.heeds_new _ _) turns

theorem closes_rendered (source : Source S) (limit : Nat) (table : Table) (state : S)
    (stream : σ) : Pipe.Closes (rendering source table state stream (stepsFor limit + 1))
      (rendered source limit table state stream) := by
  unfold rendered render rendering
  dsimp only
  split
  · next result => exact .flushed result rfl rfl rfl
  · next result => exact .left fun h => result h

theorem result_of_plays {source : Source S} {limit : Nat} {table : Table} {state : S} {stream : σ}
    {t : Transcript} (h : source.Plays none state (.new table) t) (hl : t.stages.length ≤ limit)
    (hf : (rendered source limit table state stream).stream.failure? = none) :
    (rendered source limit table state stream).result = some t.verdict := by
  obtain ⟨n, hn, gives⟩ := gives_of_plays (h.transcribed []) 0
  let first := Pipe.new (new table (state, ([] : List Exchange))) (Watched.new stream)
  obtain ⟨written, ends⟩ := Pipe.run_of_gives_put gives (p := first) rfl rfl List.not_mem_nil
    (by unfold stepsFor; omega : n < stepsFor limit + 1)
  have failure := Pipe.failure?_put (p := first) rfl (Feed.emitted t.items)
  rw [← written] at failure
  obtain ⟨well, same⟩ :=
    (closes_rendered source limit table state stream).of_failure?_eq_none hf
  rw [rendering] at well same
  rw [same, ends, verdict_items]
  cases ho : (first.put (Feed.emitted t.items)).1 with
  | ok u => rfl
  | error d =>
    rw [well, ho] at failure
    cases failure

/-- Which error a rendering reports. A call on the stream that fails is the last one, and its error
is the result, even if the run has failed before. Without such a call the verdict of the run is
the result. As long as a rendering goes on no call has failed. If the run fails then, nothing more
is pulled, and its error is the result unless the stream asks for a drain after the line that has
begun and that drain fails. If a call fails after a pull, or the source is at its end, nothing more
is pulled either. -/
theorem stream_error_replaces_error (source : Source S) (limit : Nat) (table : Table) (state : S)
    (stream : σ) :
    let p := rendered source limit table state stream
    (∀ d, p.stream.failure? = some d → p.result = some (.error (.device d)) ∧
      ∃ well last, p.stream.calls = well ++ [last] ∧ well.findSome? Call.error? = none ∧
        last.error? = some d) ∧
    (∀ t, source.Plays none state (.new table) t → t.stages.length ≤ limit →
      p.stream.failure? = none → p.result = some t.verdict) ∧
    ∀ k ≤ stepsFor limit,
      let before := rendering source table state stream k
      let next := rendering source table state stream (k + 1)
      before.result = none →
        before.stream.failure? = none ∧
        (∀ e rest, before.feed.step source.transcribing = some (some (.error e), rest) →
          p.feed = rest ∧ (p.stream.failure? = none → p.result = some (.error e)) ∧
            ∀ d, p.stream.failure? = some d → before.partialLine ≠ "" ∧
              p.stream.calls = before.stream.calls ++
                [.write before.partialLine false, .drain (.error d)]) ∧
        (∀ item rest, before.feed.step source.transcribing = some (item, rest) →
          ∀ d, next.stream.failure? = some d →
            p.feed = rest ∧ p.result = some (.error (.device d))) ∧
        (before.feed.step source.transcribing = none → p.feed = before.feed) := by
  intro p
  have closes := closes_rendered source limit table state stream
  refine ⟨fun d => closes.of_failure?_eq_some (heeds_rendering ..), fun t => result_of_plays, ?_⟩
  intro k hk before next hr
  have heeds : before.Heeds := heeds_rendering source table state stream k
  have well := heeds.failure?_eq_none (by simp [hr])
  refine ⟨well, ?_, fun item rest pull d => closes.of_broken hk heeds hr pull,
    closes.of_end hk heeds hr⟩
  intro e rest pull
  obtain ⟨fed, written, result⟩ : p.feed = rest ∧ p.stream = (before.put "").2 ∧
    p.result = some (Pipe.ending (before.put "").1 (.error e)) := closes.of_failed hk heeds hr pull
  refine ⟨fed, ?_⟩
  rw [result, written, Pipe.failure?_put well]
  cases ho : (before.put "").1 with
  | ok u => exact ⟨fun _ => rfl, fun d hd => nomatch hd⟩
  | error d =>
    refine ⟨fun none => (nomatch none), fun d' hd => ?_⟩
    obtain rfl := Option.some.inj hd
    exact Pipe.calls_put_empty (heeds.partialLine hr) ho

def textAndPop : List Item := [.ok (Wire.Instruction.write "part" 1), .ok Wire.Instruction.pop]

/-- The pop fails first, but the result is the error of the stream. -/
theorem textAndPop_loses_error :
    let stream := Recorder.new (some 1) true
    let before := rendering Source.items .plain textAndPop stream 2
    let p := rendered Source.items 2 .plain textAndPop stream
    before.result = none ∧ before.stream.failure? = none ∧
      (∃ rest, before.feed.step Source.items.transcribing =
        some (some (.error .popOnEmptyStack), rest) ∧ p.feed = rest) ∧
      p.stream.calls = before.stream.calls ++
        [.write before.partialLine false, .drain (.error ⟨.brokenPipe, "mock drain failed"⟩)] ∧
      p.result = some (.error (.device ⟨.brokenPipe, "mock drain failed"⟩)) := by
  intro stream before p
  have going : before.result = none := rfl
  have failure : p.stream.failure? = some ⟨.brokenPipe, "mock drain failed"⟩ := by
    decide +kernel
  obtain ⟨rest, pull⟩ : ∃ rest, before.feed.step Source.items.transcribing =
      some (some (.error .popOnEmptyStack), rest) := ⟨_, rfl⟩
  obtain ⟨replaced, -, moments⟩ :=
    stream_error_replaces_error Source.items 2 .plain textAndPop stream
  obtain ⟨well, failed, -, -⟩ := moments 2 (by decide) going
  obtain ⟨fed, -, last⟩ := failed .popOnEmptyStack rest pull
  exact ⟨going, well, ⟨rest, pull, fed⟩, (last _ failure).2, (replaced _ failure).1⟩

end PureRun

end StyledEffects
