import StyledEffects.Proofs.Reassembly
import StyledEffects.Proofs.Usage

/-! A stream is drained when it asks for that. Whoever writes to it, be it text, chunks or the task
of a writer, has it drained once, and at once, after each write that asks for it, and at no other
time. A drain that fails is the last call. -/

namespace StyledEffects

open Relation

namespace Call

/-- Calls with a drain right after each write that asks for one and no other drain. They end with
success, or with the first drain that fails. -/
inductive Paced : List Call → Outcome → Prop
  | nil : Paced [] (.ok ())
  | write {calls} (h : Paced calls (.ok ())) (text : String) :
    Paced (calls ++ [.write text true]) (.ok ())
  | drained {calls} (h : Paced calls (.ok ())) (text : String) :
    Paced (calls ++ [.write text false, .drain (.ok ())]) (.ok ())
  | broken {calls} (h : Paced calls (.ok ())) (text : String) (e : DeviceError) :
    Paced (calls ++ [.write text false, .drain (.error e)]) (.error e)
  | flush {calls} (h : Paced calls (.ok ())) (outcome : Outcome) :
    Paced (calls ++ [.flush outcome]) (.ok ())

theorem Paced.append {calls more : List Call} {outcome : Outcome} (h : Paced calls (.ok ()))
    (hm : Paced more outcome) : Paced (calls ++ more) outcome := by
  induction hm with
  | nil => rwa [List.append_nil]
  | write _ text ih => rw [← List.append_assoc]; exact .write ih text
  | drained _ text ih => rw [← List.append_assoc]; exact .drained ih text
  | broken _ text e ih => rw [← List.append_assoc]; exact .broken ih text e
  | flush _ outcome ih => rw [← List.append_assoc]; exact .flush ih outcome

def isDrain : Call → Bool
  | drain _ => true
  | _ => false

/-- Calls on a stream that asks for a drain after every `n`-th write and whose drains succeed. -/
structure Every (n : Nat) (calls : List Call) : Prop where
  asks : ∀ before text more after, calls = before ++ .write text more :: after →
    (more = false ↔ n ∣ (before.filterMap written?).length + 1)
  drains : ∀ e, .drain (.error e) ∉ calls

theorem Every.of_append {n : Nat} {calls more : List Call} (h : Every n (calls ++ more)) :
    Every n calls := by
  refine ⟨fun before text answer after hs => ?_, fun e he => ?_⟩
  · apply h.asks before text answer (after ++ more)
    rw [hs, List.append_assoc, List.cons_append]
  · exact h.drains e (List.mem_append_left _ he)

theorem Every.concat {n : Nat} {calls : List Call} {call : Call} (h : Every n calls)
    (asks : ∀ text more, call = .write text more →
      (more = false ↔ n ∣ (calls.filterMap written?).length + 1))
    (drains : ∀ e, call ≠ .drain (.error e)) : Every n (calls ++ [call]) := by
  refine ⟨fun before text more after hs => ?_, fun e he => ?_⟩
  · rcases eq_append_cons_of_concat hs with ⟨rfl, hc, -⟩ | ⟨rest, hc, -⟩
    · exact asks text more hc.symm
    · exact h.asks before text more rest hc
  · rcases List.mem_append.1 he with he | he
    · exact h.drains e he
    · exact drains e (List.mem_singleton.1 he).symm

/-- One drain for every `n` writes. -/
theorem Paced.countP_isDrain {n : Nat} {calls : List Call} {outcome : Outcome}
    (h : Paced calls outcome) (every : Every n calls) :
    calls.countP isDrain = (calls.filterMap written?).length / n := by
  induction h with
  | nil => simp
  | @write calls _ text ih =>
    have asks := every.asks calls text true [] rfl
    have not_dvd : ¬ n ∣ (calls.filterMap written?).length + 1 := by simpa using asks
    simp [ih every.of_append, written?, isDrain, Nat.succ_div, not_dvd]
  | @drained calls _ text ih =>
    have dvd := (every.asks calls text false _ rfl).1 rfl
    simp [ih every.of_append, written?, isDrain, List.filterMap_cons, Nat.succ_div, dvd]
  | @broken calls _ text e ih => exact absurd (by simp) (every.drains e)
  | flush _ outcome ih => simp [ih every.of_append, written?, isDrain, List.filterMap_cons]

theorem Paced.eq_ok {n : Nat} {calls : List Call} {outcome : Outcome} (h : Paced calls outcome)
    (every : Every n calls) : outcome = .ok () := by
  cases h with
  | broken _ text e => exact absurd (by simp) (every.drains e)
  | _ => rfl

end Call

namespace Stream

variable {σ : Type} [OutputStream σ]

/-- Whatever is called on it, in any order, the stream asks for a drain after every `n`-th write,
and its drains succeed. -/
def AsksEvery (n : Nat) (s : σ) : Prop :=
  ∀ w, ReflTransGen Step (Watched.new s) w →
    (∀ text, (OutputStream.write text w).1 = false ↔ n ∣ w.writes.length + 1) ∧
      (OutputStream.drain w).1 = .ok ()

theorem AsksEvery.every {n : Nat} {s : σ} (h : AsksEvery n s) {w : Watched σ}
    (hr : ReflTransGen Step (Watched.new s) w) : Call.Every n w.calls := by
  induction hr with
  | refl => exact ⟨fun before text more after hs => by simp at hs, fun e he => by simp at he⟩
  | @tail w w' hr hs ih =>
    obtain ⟨asks, drains⟩ := h w hr
    cases hs with
    | write text =>
      rw [Watched.calls_write]
      refine ih.concat ?_ fun e he => by cases he
      rintro text' more he
      obtain ⟨rfl, rfl⟩ := Call.write.inj he
      exact asks text
    | drain =>
      rw [Watched.calls_drain, drains]
      exact ih.concat (fun text more he => by cases he) fun e he => by cases he
    | flush =>
      rw [Watched.calls_flush]
      exact ih.concat (fun text more he => by cases he) fun e he => by cases he

theorem asksEvery_recorder (n : Nat) : AsksEvery (max n 1) (Recorder.new (some n) false) := by
  intro w hr
  obtain ⟨every, fails, length⟩ : w.stream.every = some n ∧ w.stream.failDrain = false ∧
      w.stream.recent.length = w.writes.length := by
    induction hr with
    | refl => exact ⟨rfl, rfl, rfl⟩
    | tail _ hs ih =>
      obtain ⟨every, fails, length⟩ := ih
      cases hs with
      | write text =>
        rw [Watched.writes_write, List.length_append, ← length]
        exact ⟨every, fails, rfl⟩
      | drain => rw [Watched.writes_drain]; exact ⟨every, fails, length⟩
      | flush => rw [Watched.writes_flush]; exact ⟨every, fails, length⟩
  refine ⟨fun text => ?_, ?_⟩
  · simp [OutputStream.write, Recorder.takesMore, every, length, Nat.dvd_iff_mod_eq_zero]
  · simp [OutputStream.drain, fails]

end Stream

namespace Watched

variable {σ : Type} [OutputStream σ] {w w' w'' : Watched σ} {outcome : Outcome}

structure Goes (w : Watched σ) (outcome : Outcome) (w' : Watched σ) : Prop where
  steps : ReflTransGen Stream.Step w w'
  paced : ∃ calls, w'.calls = w.calls ++ calls ∧ Call.Paced calls outcome

theorem Goes.refl (w : Watched σ) : w.Goes (.ok ()) w :=
  ⟨.refl, [], (List.append_nil _).symm, .nil⟩

theorem Goes.trans (h : w.Goes (.ok ()) w') (h' : w'.Goes outcome w'') : w.Goes outcome w'' := by
  obtain ⟨calls, hc, paced⟩ := h.paced
  obtain ⟨more, hm, paced'⟩ := h'.paced
  refine ⟨h.steps.trans h'.steps, calls ++ more, ?_, paced.append paced'⟩
  rw [hm, hc, List.append_assoc]

theorem goes_write {text : String} (hm : (OutputStream.write text w).1 = true) :
    w.Goes (.ok ()) (OutputStream.write text w).2 := by
  refine ⟨.single (.write text w), _, Watched.calls_write text w, ?_⟩
  rw [hm]
  exact .write .nil text

theorem goes_drain {text : String} (hm : (OutputStream.write text w).1 = false) :
    w.Goes (OutputStream.drain (OutputStream.write text w).2).1
      (OutputStream.drain (OutputStream.write text w).2).2 := by
  refine ⟨.tail (.single (.write text w)) (.drain _),
    [.write text false, .drain (OutputStream.drain (OutputStream.write text w).2).1], ?_, ?_⟩
  · rw [Watched.calls_drain, Watched.calls_write, hm, List.append_assoc]
    rfl
  · cases (OutputStream.drain (OutputStream.write text w).2).1 with
    | ok u => exact .drained .nil text
    | error e => exact .broken .nil text e

theorem goes_flush (w : Watched σ) : w.Goes (.ok ()) (OutputStream.flush w).2 :=
  ⟨.single (.flush w), _, Watched.calls_flush w, .flush .nil _⟩

theorem goes_piece (w : Watched σ) (text : String) :
    w.Goes (Stream.writePiece text w).1 (Stream.afterPiece w text) := by
  unfold Stream.afterPiece Stream.writePiece
  cases hm : (OutputStream.write text w).1 with
  | true => simpa [hm] using goes_write hm
  | false => simpa [hm] using goes_drain hm

theorem goes_put (w : Watched σ) (pieces : List String) :
    w.Goes (Stream.put pieces w).1 (Stream.put pieces w).2 := by
  induction pieces generalizing w with
  | nil => exact .refl w
  | cons text rest ih =>
    have first := w.goes_piece text
    cases h : (Stream.writePiece text w).1 with
    | ok u =>
      rw [h] at first
      rw [Stream.put_cons_of_ok h]
      exact first.trans (ih _)
    | error d =>
      rw [h] at first
      rwa [Stream.put_cons_of_error h]

end Watched

namespace Pipe

variable {P σ : Type} [OutputStream σ] {feed : Feed P} {start : Watched σ} {p : Pipe P (Watched σ)}

/-- A pipe that has made such calls on its stream. When it has ended, a drain that failed is its
result. -/
inductive Goes (start : Watched σ) (p : Pipe P (Watched σ)) : Prop
  | going (hr : p.result = none) (line : '\n' ∉ p.partialLine.toList)
      (h : start.Goes (.ok ()) p.stream)
  | ended {outcome verdict} (hr : p.result = some (ending outcome verdict))
      (h : start.Goes outcome p.stream)

theorem goes_new (state : P) (start : Watched σ) : (new state start).Goes start :=
  .going rfl List.not_mem_nil (.refl start)

theorem Goes.turn (h : p.Goes start) : (p.turn feed).Goes start := by
  cases h with
  | ended hr h =>
    rw [Pipe.turn, if_pos (by rw [hr]; rfl)]
    exact .ended hr h
  | going hr line h =>
    have last : p.stream.Goes (p.put "").1 (p.put "").2 := p.stream.goes_put _
    have takes {text : String} (ht : p.Takes text (p.turn feed)) : (p.turn feed).Goes start := by
      obtain ⟨lines, put, -⟩ := ht.lines
      have wrote := p.stream.goes_put lines
      rw [put] at wrote
      exact .going (ht.result.trans hr) ht.partialLine (h.trans wrote)
    rcases hp : feed.pull p.feed with _ | ⟨_ | e | chunk, rest⟩
    · obtain ⟨-, stream, result⟩ := turn_ended hr line hp
      refine .ended result ?_
      rw [stream]
      exact h.trans last
    · exact takes (turn_quiet hr line hp).2
    · obtain ⟨-, stream, result⟩ := turn_failed hr line hp
      refine .ended result ?_
      rw [stream]
      exact h.trans last
    · obtain ⟨-, ht | ⟨d, result, breaks⟩⟩ := turn_chunk hr line hp
      · exact takes ht
      · have wrote : p.stream.Goes (p.put (chunk ++ "")).1 (p.put (chunk ++ "")).2 :=
          p.stream.goes_put _
        rw [breaks] at wrote
        have ends : (p.turn feed).result = some (ending (.error d) (.ok ())) := result
        exact .ended ends (h.trans wrote)

theorem Goes.run (h : p.Goes start) (turns : Nat) : (p.run feed turns).Goes start := by
  induction turns generalizing p with
  | zero => exact h
  | succ turns ih => exact ih h.turn

theorem Goes.exists_paced (h : p.Goes start) :
    ∃ outcome, start.Goes outcome p.stream ∧
      ∀ e, outcome = .error e → p.result = some (.error (.device e)) := by
  cases h with
  | going hr line h => exact ⟨_, h, fun e he => (nomatch he)⟩
  | ended hr h =>
    refine ⟨_, h, ?_⟩
    rintro e rfl
    exact hr

end Pipe

namespace Writer

theorem afterText_ne_draining (queue : List Signal) (rest : List String) :
    afterText queue ≠ .draining rest := by
  unfold afterText
  split <;> simp

variable {σ : Type}

theorem flushed_ne_draining (purpose : Purpose) (result : Outcome) (w : Writer σ)
    (rest : List String) : (w.flushed purpose result).phase ≠ .draining rest := by
  cases purpose <;> cases result <;> simp [flushed]

variable [OutputStream σ] {start : Watched σ} {w w' : Writer (Watched σ)}

/-- A writer that has made such calls on its stream. The drain that a write has asked for may be
still to come, and one that has failed has stopped the task. -/
inductive Goes (start : Watched σ) (w : Writer (Watched σ)) : Prop
  | even (hp : ∀ rest, w.phase ≠ .draining rest) (h : start.Goes (.ok ()) w.stream)
  | asked {before text rest} (hp : w.phase = .draining rest) (h : start.Goes (.ok ()) before)
      (hm : (OutputStream.write text before).1 = false)
      (hs : w.stream = (OutputStream.write text before).2)
  | broken {e} (hs : w.stopped? = some (.error e)) (h : start.Goes (.error e) w.stream)

theorem goes_new (label : String) (start : Watched σ) : (new label start).Goes start :=
  .even (fun rest hp => by simp [new] at hp) (.refl start)

theorem Goes.adds (h : w.Goes start) (ha : w.Adds w') : w'.Goes start := by
  cases h with
  | even hp h =>
    refine .even ?_ ?_
    · rwa [ha.phase]
    · rwa [ha.stream]
  | asked hp h hm hs => exact .asked (ha.phase.trans hp) h hm (ha.stream.trans hs)
  | broken hs h =>
    refine .broken (ha.stopped?.trans hs) ?_
    rwa [ha.stream]

theorem Goes.turn {events : List Log.Event} (h : w.Goes start) (ht : Turn w w' events) :
    w'.Goes start := by
  cases h with
  | broken hs => exact absurd ⟨_, hs⟩ ht.not_failed
  | asked hp h hm hs =>
    have goes := h.trans (Watched.goes_drain hm)
    rw [← hs] at goes
    cases ht with
    | drained _ hd =>
      rw [hd] at goes
      exact .even (by simp) goes
    | broken _ hd =>
      rw [hd] at goes
      exact .broken rfl goes
    | _ => simp_all
  | even hp h =>
    cases ht with
    | takeText => exact .even (by simp) h
    | takeFlush => exact .even (by simp) h
    | takeEnd => exact .even (by simp) h
    | endText => exact .even (afterText_ne_draining w.queue) h
    | line _ hm => exact .even (by simp) (h.trans (Watched.goes_write hm))
    | fullLine _ hm => exact .asked rfl h hm rfl
    | drained hp' => exact absurd hp' (hp _)
    | broken hp' => exact absurd hp' (hp _)
    | @flush purpose _ =>
      refine .even (flushed_ne_draining purpose _ _) ?_
      rw [flushed_stream]
      exact h.trans w.stream.goes_flush

theorem goes_after {label : String} {uses : List Use} (h : (new label start).after uses = some w) :
    w.Goes start := by
  refine after_keeps h (goes_new label start) ?_
  intro u w w' hw hu
  rcases hu.adds_or_turn with ha | ⟨events, ht⟩
  · exact hw.adds ha
  · exact hw.turn ht

end Writer

section

variable {σ : Type} [OutputStream σ]

/-- What can be done with a stream in one go: a text or chunks are written to it, or it is handed to
a writer, until its task is between two calls or has stopped. -/
inductive Stream.Operation (w : Watched σ) : Watched σ → Prop
  | text (text : String) : Operation w (Stream.writeLines text w).2.1
  | chunks {P : Type} (feed : Feed P) (state : P) (turns : Nat) :
    Operation w ((Pipe.new state w).run feed turns).stream
  | writer {label uses writer} (h : (Writer.new label w).after uses = some writer)
      (hp : ∀ rest, writer.phase ≠ .draining rest) : Operation w writer.stream

theorem Stream.Operation.goes {w w' : Watched σ} (h : Stream.Operation w w') :
    ∃ outcome, w.Goes outcome w' := by
  cases h with
  | text text => exact ⟨_, w.goes_put (Text.lines text)⟩
  | chunks feed state turns =>
    have wrote : ((Pipe.new state w).run feed turns).Goes w := (Pipe.goes_new state w).run turns
    obtain ⟨outcome, goes, -⟩ := wrote.exists_paced
    exact ⟨outcome, goes⟩
  | writer h hp =>
    cases Writer.goes_after h with
    | even _ goes => exact ⟨_, goes⟩
    | asked hp' => exact absurd hp' (hp _)
    | broken _ goes => exact ⟨_, goes⟩

/-- Any such operations make the calls of one. -/
theorem Stream.AsksEvery.goes {n : Nat} {s : σ} (h : Stream.AsksEvery n s) {w : Watched σ}
    (hr : ReflTransGen Stream.Operation (Watched.new s) w) : (Watched.new s).Goes (.ok ()) w := by
  induction hr with
  | refl => exact .refl _
  | tail _ ho ih =>
    obtain ⟨outcome, goes⟩ := ho.goes
    have all := ih.trans goes
    obtain ⟨calls, hc, paced⟩ := all.paced
    have every := h.every all.steps
    rw [hc, Watched.calls_new, List.nil_append] at every
    rwa [paced.eq_ok every] at all

/-- Whatever the stream answers, a drain comes right after each write that asks for one, and at no
other time, when a text is written, when chunks are, and when the task of a writer is at work,
where that drain may be still to come. A drain that fails is the last call, and its error is the
result. If the stream asks for a drain after every `n`-th write, and drains succeed, there is one
drain for every `n` writes, whatever of this is done with it one after the other. -/
theorem drained_exactly_when_asked (stream : σ) :
    (∀ (w : Watched σ) (text : String), ∃ calls,
      (Stream.writeLines text w).2.1.calls = w.calls ++ calls ∧
        Call.Paced calls (Stream.writeLines text w).1) ∧
    (∀ (w : Watched σ) (P : Type) (feed : Feed P) (state : P) (turns : Nat),
      let p := (Pipe.new state w).run feed turns
      ∃ calls outcome, p.stream.calls = w.calls ++ calls ∧ Call.Paced calls outcome ∧
        ∀ e, outcome = .error e → p.result = some (.error (.device e))) ∧
    (∀ (w : Watched σ) (label : String) uses writer,
      (Writer.new label w).after uses = some writer →
        ∃ calls outcome, Call.Paced calls outcome ∧
          (∀ e, outcome = .error e → writer.stopped? = some (.error e)) ∧
          ((writer.stream.calls = w.calls ++ calls ∧ ∀ rest, writer.phase ≠ .draining rest) ∨
            ∃ text rest, writer.stream.calls = w.calls ++ calls ++ [.write text false] ∧
              writer.phase = .draining rest ∧ outcome = .ok ())) ∧
    ∀ n, Stream.AsksEvery n stream → ∀ w, ReflTransGen Stream.Operation (Watched.new stream) w →
      w.calls.countP Call.isDrain = w.writes.length / n := by
  refine ⟨fun w text => (w.goes_put (Text.lines text)).paced, ?_, ?_, ?_⟩
  · intro w P feed state turns p
    have wrote : p.Goes w := (Pipe.goes_new state w).run turns
    obtain ⟨outcome, goes, result⟩ := wrote.exists_paced
    obtain ⟨calls, hc, paced⟩ := goes.paced
    exact ⟨calls, outcome, hc, paced, result⟩
  · intro w label uses writer h
    cases Writer.goes_after h with
    | even hp goes =>
      obtain ⟨calls, hc, paced⟩ := goes.paced
      exact ⟨calls, _, paced, fun e he => (nomatch he), Or.inl ⟨hc, hp⟩⟩
    | @asked before text rest hp goes hm hs =>
      obtain ⟨calls, hc, paced⟩ := goes.paced
      refine ⟨calls, _, paced, fun e he => (nomatch he), Or.inr ⟨text, rest, ?_, hp, rfl⟩⟩
      rw [hs, Watched.calls_write, hm, hc]
    | @broken e hs goes =>
      obtain ⟨calls, hc, paced⟩ := goes.paced
      refine ⟨calls, _, paced, ?_, Or.inl ⟨hc, ?_⟩⟩
      · intro e' he
        obtain rfl := Except.error.inj he
        exact hs
      · intro rest hp
        simp [Writer.stopped?, hp] at hs
  · intro n h w hr
    have goes := h.goes hr
    obtain ⟨calls, hc, paced⟩ := goes.paced
    rw [Watched.calls_new, List.nil_append] at hc
    have every := h.every goes.steps
    rw [Watched.writes]
    rw [hc] at every ⊢
    exact paced.countP_isDrain every

end

def threeLines : Watched Recorder :=
  (Stream.writeLines "a\nb\nc" (Watched.new (Recorder.new (some 2) false))).2.1

def twoLines : List Use := [.send "d\ne", .shutdown] ++ List.replicate 8 .turn

/-- Of the five writes the second and the fourth are followed by a drain. -/
theorem threeLines_twoLines_drained :
    ∃ writer, (Writer.new "primary" threeLines).after twoLines = some writer ∧
      writer.stopped? = some (.ok ()) ∧ writer.stream.writes = ["a\n", "b\n", "c", "d\n", "e"] ∧
      writer.stream.calls.countP Call.isDrain = 5 / 2 := by
  obtain ⟨writer, hw, stopped, writes⟩ :
    ∃ writer, (Writer.new "primary" threeLines).after twoLines = some writer ∧
      writer.stopped? = some (.ok ()) ∧ writer.stream.writes = ["a\n", "b\n", "c", "d\n", "e"] :=
    ⟨_, rfl, rfl, rfl⟩
  refine ⟨writer, hw, stopped, writes, ?_⟩
  have first : Stream.Operation (Watched.new (Recorder.new (some 2) false)) threeLines :=
    .text "a\nb\nc"
  have second : Stream.Operation threeLines writer.stream :=
    .writer hw fun rest hp => by simp [Writer.stopped?, hp] at stopped
  obtain ⟨-, -, -, counted⟩ := drained_exactly_when_asked (Recorder.new (some 2) false)
  have drains := counted 2 (Stream.asksEvery_recorder 2) _ (.tail (.single first) second)
  rwa [writes] at drains

end StyledEffects
