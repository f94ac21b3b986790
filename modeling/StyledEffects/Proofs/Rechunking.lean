import StyledEffects.Proofs.Reassembly
import StyledEffects.Proofs.Watching

/-! A list of chunks on its way to a stream. Each line of the text is one write, wherever the
chunks begin and end. Nothing is pulled after the first error, or after a drain that fails. -/

namespace StyledEffects

namespace Feed

/-- The items up to the first error, that one included. -/
def heard : List (Except EffectError String) → List (Except EffectError String)
  | [] => []
  | .ok chunk :: rest => .ok chunk :: heard rest
  | .error e :: _ => [.error e]

def unheard : List (Except EffectError String) → List (Except EffectError String)
  | [] => []
  | .ok _ :: rest => unheard rest
  | .error _ :: rest => rest

theorem verdict_heard (chunks : List (Except EffectError String)) :
    verdict (heard chunks) = verdict chunks := by
  induction chunks with
  | nil => rfl
  | cons item rest ih =>
    cases item with
    | ok chunk => exact ih
    | error e => rfl

theorem gives_heard (chunks : List (Except EffectError String)) :
    ∃ n ≤ chunks.length, ofList.Gives n chunks (heard chunks) := by
  induction chunks with
  | nil => exact ⟨0, Nat.le_refl 0, .ended rfl⟩
  | cons item rest ih =>
    cases item with
    | error e => exact ⟨1, by simp, .failed rfl⟩
    | ok chunk =>
      obtain ⟨n, hn, h⟩ := ih
      exact ⟨n + 1, Nat.succ_le_succ hn, .chunk rfl h⟩

end Feed

namespace Stream

variable {σ : Type} [OutputStream σ]

theorem DrainsSucceed.watched {w : Watched σ} (h : DrainsSucceed w.stream) : DrainsSucceed w := by
  intro w' hr
  suffices DrainsSucceed w'.stream from this _ .refl
  induction hr with
  | refl => exact h
  | tail _ hs ih =>
    cases hs with
    | write text => exact ih.step (.write text _)
    | drain => exact ih.step (.drain _)

theorem afterPiece_of_ok {w : Watched σ} {text : String}
    (h : (writePiece text w).1 = .ok ()) :
    (afterPiece w text).writes = w.writes ++ [text] ∧
      (afterPiece w text).failure? = w.failure? := by
  unfold afterPiece writePiece at *
  cases hm : (OutputStream.write text w).1 with
  | true => simp [hm]
  | false =>
    simp only [hm, Bool.false_eq_true, if_false] at h ⊢
    simp [h, Call.error?]

theorem afterPiece_of_error {w : Watched σ} {text : String} {d : DeviceError}
    (h : (writePiece text w).1 = .error d) :
    (afterPiece w text).writes = w.writes ++ [text] ∧
      (afterPiece w text).calls = w.calls ++ [.write text false, .drain (.error d)] := by
  unfold afterPiece writePiece at *
  cases hm : (OutputStream.write text w).1 with
  | true => simp [hm] at h
  | false =>
    simp only [hm, Bool.false_eq_true, if_false] at h ⊢
    simp [h, hm]

/-- What comes of writing some pieces: all of them are written, or the drain after one of them
fails and is the last call. -/
inductive Wrote (w : Watched σ) (pieces : List String) : Outcome × Watched σ → Prop
  | all {w'} (writes : w'.writes = w.writes ++ pieces) (failure : w'.failure? = w.failure?) :
    Wrote w pieces (.ok (), w')
  | part {w' d before piece after well} (split : pieces = before ++ piece :: after)
      (writes : w'.writes = w.writes ++ before ++ [piece])
      (calls : w'.calls = well ++ [.drain (.error d)])
      (failure : well.findSome? Call.error? = w.failure?) :
    Wrote w pieces (.error d, w')

theorem wrote_put (w : Watched σ) (pieces : List String) : Wrote w pieces (put pieces w) := by
  induction pieces generalizing w with
  | nil => exact .all (List.append_nil _).symm rfl
  | cons text rest ih =>
    cases h : (writePiece text w).1 with
    | error d =>
      obtain ⟨writes, calls⟩ := afterPiece_of_error h
      have first : text :: rest = [] ++ text :: rest := rfl
      have last : (afterPiece w text).calls =
          w.calls ++ [.write text false] ++ [.drain (.error d)] := by
        rw [calls, List.append_assoc]
        rfl
      rw [put_cons_of_error h]
      refine .part first ?_ last ?_
      · rw [writes, List.append_nil]
      · simp [Watched.failure?, Call.error?]
    | ok u =>
      obtain ⟨writes, failure⟩ := afterPiece_of_ok h
      have more := ih (afterPiece w text)
      rw [put_cons_of_ok h]
      generalize put rest (afterPiece w text) = result at more ⊢
      cases more with
      | all writes' failure' =>
        exact .all (by rw [writes', writes]; simp) (failure'.trans failure)
      | @part w' d before piece after well split writes' calls failure' =>
        have later : text :: rest = (text :: before) ++ piece :: after := by
          rw [split, List.cons_append]
        refine .part later ?_ calls (failure'.trans failure)
        rw [writes', writes]
        simp

section

omit [OutputStream σ]

theorem Wrote.length_lt {w w' : Watched σ} {pieces : List String} {d : DeviceError}
    (h : Wrote w pieces (.error d, w')) : w.writes.length < w'.writes.length := by
  cases h with
  | part _ writes =>
    rw [writes]
    simp only [List.length_append, List.length_singleton]
    omega

theorem Wrote.isPrefix {w w' : Watched σ} {pieces : List String} {outcome : Outcome}
    (h : Wrote w pieces (outcome, w')) : w'.writes <+: w.writes ++ pieces := by
  cases h with
  | all writes => exact writes ▸ List.prefix_refl _
  | @part _ _ before piece after _ split writes =>
    rw [writes, split, List.append_cons before, ← List.append_assoc, ← List.append_assoc]
    exact List.prefix_append _ _

/-- The only call that can fail is the last drain. -/
theorem Wrote.failure?_eq {w w' : Watched σ} {pieces : List String} {outcome : Outcome}
    (h : Wrote w pieces (outcome, w')) (hw : w.failure? = none) :
    w'.failure? = (Call.drain outcome).error? := by
  cases h with
  | all writes failure => rw [failure, hw]; rfl
  | part split writes calls failure =>
    rw [Watched.failure?, calls, List.findSome?_append, failure, hw]
    rfl

end

end Stream

namespace Pipe

variable {P σ : Type} [OutputStream σ]

theorem Takes.length_writes {p p' : Pipe P (Watched σ)} {text : String}
    (hp : '\n' ∉ p.partialLine.toList) (h : p.Takes text p') :
    p'.stream.writes.length = p.stream.writes.length + text.toList.count '\n' := by
  obtain ⟨lines, put, cut⟩ := h.lines
  have wrote := Stream.wrote_put p.stream lines
  rw [put] at wrote
  have count : lines.length = text.toList.count '\n' := by
    have both := congrArg List.length (cut "\n")
    rw [← String.append_assoc, Text.length_lines, List.length_append, Text.length_lines,
      String.toList_append, List.count_append, List.count_eq_zero.2 hp,
      List.count_eq_zero.2 h.partialLine] at both
    omega
  cases wrote with
  | all writes => rw [writes, List.length_append, count]

theorem length_writes_put {p : Pipe P (Watched σ)} {text : String} {d : DeviceError}
    (h : (p.put text).1 = .error d) :
    p.stream.writes.length < (p.put text).2.writes.length := by
  have wrote := Stream.wrote_put p.stream (Text.lines (p.partialLine ++ text))
  apply Stream.Wrote.length_lt (d := d)
  rw [← h]
  exact wrote

/-- Where a pipe leaves off a list of chunks. Without a drain that fails that is after the first
error. Otherwise it is after the chunk that has ended the line before the drain: the chunks
before that one have fewer line feeds than lines have been written. -/
theorem feed_run (chunks : List (Except EffectError String))
    {p : Pipe (List (Except EffectError String)) (Watched σ)} (hf : p.feed = chunks)
    (hr : p.result = none) (hp : '\n' ∉ p.partialLine.toList) {turns : Nat}
    (ht : chunks.length < turns) :
    ((p.put (Feed.emitted (Feed.heard chunks))).1 = .ok () →
      (p.run .ofList turns).feed = Feed.unheard chunks) ∧
    ∀ d, (p.put (Feed.emitted (Feed.heard chunks))).1 = .error d →
      ∃ pulled, chunks = pulled ++ (p.run .ofList turns).feed ∧
        p.stream.writes.length + (Feed.emitted pulled.dropLast).toList.count '\n' <
          (p.run .ofList turns).stream.writes.length := by
  induction chunks generalizing p turns with
  | nil =>
    obtain ⟨turns, rfl⟩ := Nat.exists_eq_add_one_of_ne_zero (Nat.ne_zero_of_lt ht)
    have pull : Feed.ofList.pull p.feed = none := by rw [hf]; rfl
    obtain ⟨feed, stream, result⟩ := turn_ended hr hp pull
    rw [run, run_of_result _ turns (by rw [result]; rfl), feed, hf, stream]
    exact ⟨fun _ => rfl, fun d h => ⟨[], rfl, length_writes_put h⟩⟩
  | cons item rest ih =>
    obtain ⟨turns, rfl⟩ := Nat.exists_eq_add_one_of_ne_zero (Nat.ne_zero_of_lt ht)
    cases item with
    | error e =>
      have pull : Feed.ofList.pull p.feed = some (some (.error e), rest) := by rw [hf]; rfl
      obtain ⟨feed, stream, result⟩ := turn_failed hr hp pull
      rw [run, run_of_result _ turns (by rw [result]; rfl), feed, stream]
      exact ⟨fun _ => rfl, fun d h => ⟨[.error e], rfl, length_writes_put h⟩⟩
    | ok chunk =>
      have pull : Feed.ofList.pull p.feed = some (some (.ok chunk), rest) := by rw [hf]; rfl
      rw [Feed.heard, Feed.emitted_ok, run]
      obtain ⟨feed, takes | ⟨d, result, breaks⟩⟩ := turn_chunk hr hp pull
      · have later := ih feed (takes.result.trans hr) takes.partialLine
          (Nat.lt_of_succ_lt_succ ht)
        rw [takes.put, takes.length_writes hp] at later
        refine ⟨later.1, fun d h => ?_⟩
        obtain ⟨pulled, split, count⟩ := later.2 d h
        refine ⟨.ok chunk :: pulled, by rw [List.cons_append, ← split], ?_⟩
        cases pulled with
        | nil =>
          rw [List.dropLast_nil] at count
          rw [List.dropLast_singleton]
          omega
        | cons item pulled =>
          rw [List.dropLast_cons_of_ne_nil (List.cons_ne_nil item pulled), Feed.emitted_ok,
            String.toList_append, List.count_append]
          omega
      · have fails := breaks (Feed.emitted (Feed.heard rest))
        rw [run_of_result _ turns (by rw [result]; rfl), feed, fails]
        refine ⟨fun h => (by cases h), fun d _ => ⟨[.ok chunk], rfl, ?_⟩⟩
        have grown := length_writes_put (congrArg Prod.fst fails)
        rwa [fails] at grown

theorem ofList_eq (chunks : List (Except EffectError String)) (s : σ) :
    let written := Stream.put (Text.lines (Feed.emitted (Feed.heard chunks))) s
    (ofList chunks s).stream = written.2 ∧
      (ofList chunks s).result = some (ending written.1 (Feed.verdict chunks)) := by
  obtain ⟨n, hn, gives⟩ := Feed.gives_heard chunks
  have run := run_of_gives_put gives (p := new chunks s) rfl rfl List.not_mem_nil
    (Nat.lt_succ_of_le hn)
  rwa [put, new, String.empty_append, Feed.verdict_heard] at run

theorem feed_ofList (chunks : List (Except EffectError String)) (s : σ) :
    let written := Stream.put (Text.lines (Feed.emitted (Feed.heard chunks))) (Watched.new s)
    let p := ofList chunks (Watched.new s)
    (written.1 = .ok () → p.feed = Feed.unheard chunks) ∧
    ∀ d, written.1 = .error d → ∃ pulled, chunks = pulled ++ p.feed ∧
      (Feed.emitted pulled.dropLast).toList.count '\n' < p.stream.writes.length := by
  have run := feed_run chunks (p := new chunks (Watched.new s)) rfl rfl
    List.not_mem_nil (Nat.lt_succ_self _)
  simpa [put, new, ofList] using run

end Pipe

section

variable {σ : Type} [OutputStream σ]

/-- Chunks are put together to lines, and each line is written once. If no drain fails, which is
so if the stream's drains succeed, the writes are the lines of the text before the first error,
nothing is pulled after that error, and it is the result. If a drain fails, that is the last call,
after a first part of these writes; its error is the result, and the chunk that ended the line
written before it is the last one pulled. Either way another cut of the same text comes to the
same calls. -/
theorem lines_written_once (chunks : List (Except EffectError String)) (stream : σ) :
    let text := Feed.emitted (Feed.heard chunks)
    let p := Pipe.ofList chunks (Watched.new stream)
    Text.Cuts text (Text.lines text) ∧
    (Stream.DrainsSucceed stream → p.stream.failure? = none) ∧
    (p.stream.failure? = none →
      p.stream.writes = Text.lines text ∧ p.result = some (Feed.verdict chunks) ∧
        p.feed = Feed.unheard chunks) ∧
    (∀ d, p.stream.failure? = some d →
      p.stream.writes <+: Text.lines text ∧ p.result = some (.error (.device d)) ∧
        (∃ well, p.stream.calls = well ++ [.drain (.error d)] ∧
          well.findSome? Call.error? = none) ∧
        ∃ pulled, chunks = pulled ++ p.feed ∧
          (Feed.emitted pulled.dropLast).toList.count '\n' < p.stream.writes.length) ∧
    ∀ chunks', Feed.emitted (Feed.heard chunks') = text →
      (Pipe.ofList chunks' (Watched.new stream)).stream = p.stream := by
  intro text p
  obtain ⟨stream_eq, result⟩ := Pipe.ofList_eq chunks (Watched.new stream)
  obtain ⟨heard, broken⟩ := Pipe.feed_ofList chunks stream
  rcases hput : Stream.put (Text.lines (Feed.emitted (Feed.heard chunks))) (Watched.new stream)
    with ⟨outcome, w⟩
  have wrote := Stream.wrote_put (Watched.new stream) (Text.lines text)
  rw [hput] at stream_eq result heard broken wrote
  obtain rfl : p.stream = w := stream_eq
  have failure := wrote.failure?_eq rfl
  refine ⟨Text.cuts_lines text, fun h => ?_, fun h => ?_, fun d h => ?_, fun chunks' same => ?_⟩
  · have drained : Stream.DrainsSucceed (Watched.new stream) := .watched h
    obtain rfl : outcome = .ok () :=
      (congrArg Prod.fst hput).symm.trans (congrArg Prod.fst (drained.put (Text.lines text)))
    exact failure
  · rw [failure] at h
    cases outcome with
    | error d => simp [Call.error?] at h
    | ok u =>
      cases wrote with
      | all writes => exact ⟨writes, result, heard rfl⟩
  · rw [failure] at h
    cases outcome with
    | ok u => simp [Call.error?] at h
    | error d' =>
      obtain rfl : d' = d := by simpa [Call.error?] using h
      have first := wrote.isPrefix
      cases wrote with
      | part _ _ calls well => exact ⟨first, result, ⟨_, calls, well⟩, broken _ rfl⟩
  · rw [(Pipe.ofList_eq chunks' _).1, same]
    exact congrArg Prod.snd hput

def lineAndFailure : List (Except EffectError String) :=
  [.ok "a", .ok "", .ok "b\nc", .error .popOnEmptyStack, .ok "d"]

/-- The stream asks for a drain after each write, which succeeds in the one run and fails in the
other. -/
theorem lineAndFailure_written :
    let good := Pipe.ofList lineAndFailure (Watched.new (Recorder.new (some 1) false))
    let bad := Pipe.ofList lineAndFailure (Watched.new (Recorder.new (some 1) true))
    good.stream.writes = ["ab\n", "c"] ∧ good.result = some (.error .popOnEmptyStack) ∧
      good.feed = [.ok "d"] ∧ bad.stream.writes <+: ["ab\n", "c"] ∧
      bad.result = some (.error (.device ⟨.brokenPipe, "mock drain failed"⟩)) ∧
      bad.feed = [.error .popOnEmptyStack, .ok "d"] := by
  intro good bad
  have drains : Stream.DrainsSucceed (Recorder.new (some 1) false) :=
    (Stream.neverFails_recorder rfl).drainsSucceed
  obtain ⟨-, steady, well, -, -⟩ := lines_written_once lineAndFailure (Recorder.new (some 1) false)
  obtain ⟨-, -, -, broken, -⟩ := lines_written_once lineAndFailure (Recorder.new (some 1) true)
  obtain ⟨writes, result, feed⟩ := well (steady drains)
  obtain ⟨first, failed, -, -⟩ := broken ⟨.brokenPipe, "mock drain failed"⟩ rfl
  exact ⟨writes, result, feed, first, failed, rfl⟩

end

end StyledEffects
