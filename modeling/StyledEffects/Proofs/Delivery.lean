import StyledEffects.Proofs.Steady
import StyledEffects.Proofs.Watching
import StyledEffects.Writer.Basic

/-! The task of a writer delivers what its handle queues. At every turn the lines written so
far, those left of the text in hand and those of the queue make up the same list; only a
drain that fails loses some. -/

namespace StyledEffects

def Signal.lines : Signal → List String
  | .text t => Text.lines t
  | .flush _ => []

def Phase.rest : Phase → List String
  | writing rest => rest
  | draining rest => rest
  | _ => []

namespace Writer

variable {σ : Type}

/-- The lines that the task has still to write. -/
def owed (w : Writer σ) : List String := w.phase.rest ++ w.queue.flatMap Signal.lines

section Turn

variable [OutputStream σ]

/-- What one turn of the task can be. -/
inductive Turn : Writer σ → Writer σ → List Log.Event → Prop
  | takeText {w : Writer σ} {text queue} (hp : w.phase = .waiting)
      (hq : w.queue = .text text :: queue) :
    Turn w { w with queue, phase := .writing (Text.lines text) } []
  | takeFlush {w : Writer σ} {ticket queue} (hp : w.phase = .waiting)
      (hq : w.queue = .flush ticket :: queue) :
    Turn w { w with queue, phase := .flushing (.answer ticket) } []
  | takeEnd {w : Writer σ} (hp : w.phase = .waiting) (hq : w.queue = [])
      (hc : w.closed = true) :
    Turn w { w with phase := .flushing .last } []
  | endText {w : Writer σ} (hp : w.phase = .writing []) :
    Turn w { w with phase := afterText w.queue } []
  | line {w : Writer σ} {line rest} (hp : w.phase = .writing (line :: rest))
      (hm : (OutputStream.write line w.stream).1 = true) :
    Turn w { w with stream := (OutputStream.write line w.stream).2, phase := .writing rest } []
  | fullLine {w : Writer σ} {line rest} (hp : w.phase = .writing (line :: rest))
      (hm : (OutputStream.write line w.stream).1 = false) :
    Turn w { w with stream := (OutputStream.write line w.stream).2, phase := .draining rest }
      [.draining (Text.utf8 line).length]
  | drained {w : Writer σ} {rest} (hp : w.phase = .draining rest)
      (hd : (OutputStream.drain w.stream).1 = .ok ()) :
    Turn w { w with stream := (OutputStream.drain w.stream).2, phase := .writing rest } []
  | broken {w : Writer σ} {rest e} (hp : w.phase = .draining rest)
      (hd : (OutputStream.drain w.stream).1 = .error e) :
    Turn w { w with stream := (OutputStream.drain w.stream).2, phase := .stopped (.error e) }
      [.writeFailed w.label e]
  | flush {w : Writer σ} {purpose} (hp : w.phase = .flushing purpose) :
    Turn w ({ w with stream := (OutputStream.flush w.stream).2 }.flushed purpose
      (OutputStream.flush w.stream).1) []

theorem turn_of_step {w w' : Writer σ} {events : List Log.Event}
    (h : w.step = some (w', events)) : Turn w w' events := by
  unfold step at h
  split at h
  · rename_i hp
    split at h
    · rename_i hq
      obtain ⟨rfl, rfl⟩ := by simpa using h
      exact .takeText hp hq
    · rename_i hq
      obtain ⟨rfl, rfl⟩ := by simpa using h
      exact .takeFlush hp hq
    · rename_i hq
      split at h
      · rename_i hc
        obtain ⟨rfl, rfl⟩ := by simpa using h
        exact .takeEnd hp hq hc
      · simp at h
  · rename_i hp
    obtain ⟨rfl, rfl⟩ := by simpa using h
    exact .endText hp
  · rename_i line rest hp
    cases hm : (OutputStream.write line w.stream).1 with
    | true =>
      obtain ⟨rfl, rfl⟩ := by simpa [hm] using h
      exact .line hp hm
    | false =>
      obtain ⟨rfl, rfl⟩ := by simpa [hm] using h
      exact .fullLine hp hm
  · rename_i rest hp
    split at h
    · rename_i hd
      obtain ⟨rfl, rfl⟩ := by simpa using h
      simpa [hd] using Turn.drained hp (congrArg Prod.fst hd)
    · rename_i hd
      obtain ⟨rfl, rfl⟩ := by simpa using h
      simpa [hd] using Turn.broken hp (congrArg Prod.fst hd)
  · rename_i purpose hp
    obtain ⟨rfl, rfl⟩ := by simpa using h
    exact .flush hp
  · simp at h

end Turn

@[simp] theorem flushed_stream (purpose : Purpose) (result : Outcome) (w : Writer σ) :
    (w.flushed purpose result).stream = w.stream := by
  cases purpose <;> cases result <;> rfl

@[simp] theorem flushed_queue (purpose : Purpose) (result : Outcome) (w : Writer σ) :
    (w.flushed purpose result).queue = w.queue := by
  cases purpose <;> cases result <;> rfl

@[simp] theorem flushed_closed (purpose : Purpose) (result : Outcome) (w : Writer σ) :
    (w.flushed purpose result).closed = w.closed := by
  cases purpose <;> cases result <;> rfl

@[simp] theorem flushed_rest (purpose : Purpose) (result : Outcome) (w : Writer σ) :
    (w.flushed purpose result).phase.rest = [] := by
  cases purpose <;> cases result <;> rfl

theorem rest_afterText (queue : List Signal) : (afterText queue).rest = [] := by
  unfold afterText
  split <;> rfl

def Failed (w : Writer σ) : Prop := ∃ e, w.stopped? = some (.error e)

theorem send_closed (text : String) (w : Writer σ) : (w.send text).1.closed = w.closed := by
  unfold send
  split
  · rfl
  · split <;> rfl

/-- A writer that is to write the lines of `total`, of which `more` are still to be queued.
Its task ends in success only after the handle has closed the queue and the queue is empty. -/
structure Tracks (w : Writer (Watched σ)) (more total : List String) : Prop where
  last : w.phase = .flushing .last ∨ w.stopped? = some (.ok ()) →
    w.closed = true ∧ w.queue = []
  lines : w.stream.writes ++ w.owed ++ more = total ∨ (w.Failed ∧ w.stream.writes <+: total)

theorem tracks_new (label : String) (stream : σ) (total : List String) :
    (new label (Watched.new stream)).Tracks total total :=
  ⟨by simp [new, stopped?], Or.inl (by simp [new, owed, Phase.rest])⟩

theorem Tracks.isPrefix {w : Writer (Watched σ)} {more total : List String}
    (h : w.Tracks more total) : w.stream.writes <+: total := by
  rcases h.lines with hl | ⟨-, hl⟩
  · rw [← hl, List.append_assoc]
    exact List.prefix_append _ _
  · exact hl

theorem owed_of_stopped {w : Writer σ} {outcome : Outcome} (hs : w.stopped? = some outcome)
    (hq : w.queue = []) : w.owed = [] := by
  cases hp : w.phase <;> simp_all [stopped?, owed, Phase.rest]

theorem Tracks.writes_eq {w : Writer (Watched σ)} {more total : List String}
    (h : w.Tracks more total) (hs : w.stopped? = some (.ok ())) :
    w.stream.writes ++ more = total := by
  have ho := owed_of_stopped hs (h.last (Or.inr hs)).2
  rcases h.lines with hl | ⟨⟨e, he⟩, -⟩
  · simpa [ho] using hl
  · simp [hs] at he

theorem Tracks.send {w : Writer (Watched σ)} {text : String} {more total : List String}
    (h : w.Tracks (Text.lines text ++ more) total) (ho : w.closed = false) :
    (w.send text).1.Tracks more total := by
  unfold Writer.send
  split
  · rename_i he
    subst he
    exact h
  · cases hs : w.stopped? with
    | none =>
      refine ⟨fun hl => absurd (h.last hl).1 (by simp [ho]), ?_⟩
      rcases h.lines with hl | ⟨⟨e, he⟩, -⟩
      · left
        simpa [owed, Signal.lines] using hl
      · simp [hs] at he
    | some outcome =>
      refine ⟨h.last, Or.inr ⟨?_, h.isPrefix⟩⟩
      cases outcome with
      | error e => exact ⟨e, hs⟩
      | ok u => simp [(h.last (Or.inr hs)).1] at ho

theorem Tracks.close {w : Writer (Watched σ)} {more total : List String}
    (h : w.Tracks more total) : w.close.Tracks more total :=
  ⟨fun hl => ⟨rfl, (h.last hl).2⟩, h.lines⟩

variable [OutputStream σ]

/-- A turn of the task neither loses nor adds a line, unless a drain fails. -/
theorem Turn.writes_append_owed {w w' : Writer (Watched σ)} {events : List Log.Event}
    (h : Turn w w' events) :
    w'.stream.writes ++ w'.owed = w.stream.writes ++ w.owed ∨
      (w'.stream.writes = w.stream.writes ∧ ∃ e, w'.stopped? = some (.error e)) := by
  cases h with
  | takeText hp hq => left; simp [owed, hp, hq, Phase.rest, Signal.lines]
  | takeFlush hp hq => left; simp [owed, hp, hq, Phase.rest, Signal.lines]
  | takeEnd hp hq hc => left; simp [owed, hp, hq, Phase.rest]
  | endText hp => left; rw [owed, owed, rest_afterText, hp]; rfl
  | line hp hm => left; simp [owed, hp, Phase.rest]
  | fullLine hp hm => left; simp [owed, hp, Phase.rest]
  | drained hp hd => left; simp [owed, hp, Phase.rest]
  | broken hp hd => right; exact ⟨by simp, _, rfl⟩
  | flush hp => left; rw [owed, owed, flushed_rest, hp]; simp [Phase.rest]

theorem last_of_turn {w w' : Writer σ} {events : List Log.Event} (h : Turn w w' events)
    (hl : w.phase = .flushing .last ∨ w.stopped? = some (.ok ()) →
      w.closed = true ∧ w.queue = []) :
    w'.phase = .flushing .last ∨ w'.stopped? = some (.ok ()) →
      w'.closed = true ∧ w'.queue = [] := by
  cases h with
  | takeText hp hq => simp [stopped?]
  | takeFlush hp hq => simp [stopped?]
  | takeEnd hp hq hc => exact fun _ => ⟨hc, hq⟩
  | endText hp => cases hq : w.queue <;> simp [afterText, stopped?]
  | line hp hm => simp [stopped?]
  | fullLine hp hm => simp [stopped?]
  | drained hp hd => simp [stopped?]
  | broken hp hd => simp [stopped?]
  | @flush purpose hp =>
    cases purpose with
    | last =>
      have := hl (Or.inl hp)
      exact fun _ => this
    | idle => cases (OutputStream.flush w.stream).1 <;> simp [flushed, stopped?]
    | answer ticket => cases (OutputStream.flush w.stream).1 <;> simp [flushed, stopped?]

theorem Turn.closed {w w' : Writer σ} {events : List Log.Event} (h : Turn w w' events) :
    w'.closed = w.closed := by
  cases h <;> simp

theorem Turn.not_failed {w w' : Writer σ} {events : List Log.Event} (h : Turn w w' events) :
    ¬ w.Failed := by
  rintro ⟨e, he⟩
  cases h <;> simp_all [stopped?]

theorem Tracks.turn {w w' : Writer (Watched σ)} {events : List Log.Event}
    {more total : List String} (ht : w.Tracks more total) (h : Turn w w' events) :
    w'.Tracks more total := by
  refine ⟨last_of_turn h ht.last, ?_⟩
  rcases h.writes_append_owed with hk | ⟨hk, hf⟩
  · left
    rw [hk]
    exact ht.lines.resolve_right fun hf => h.not_failed hf.1
  · right
    rw [hk]
    exact ⟨hf, ht.isPrefix⟩

structure Steady (w : Writer σ) : Prop where
  stream : Stream.NeverFails w.stream
  unfailed : ¬ w.Failed

theorem steady_new (label : String) {stream : σ} (h : Stream.NeverFails stream) :
    (new label stream).Steady :=
  ⟨h, by simp [Failed, new, stopped?]⟩

theorem Steady.turn {w w' : Writer σ} {events : List Log.Event} (hw : w.Steady)
    (h : Turn w w' events) : w'.Steady := by
  cases h with
  | takeText hp hq => exact ⟨hw.stream, by simp [Failed, stopped?]⟩
  | takeFlush hp hq => exact ⟨hw.stream, by simp [Failed, stopped?]⟩
  | takeEnd hp hq hc => exact ⟨hw.stream, by simp [Failed, stopped?]⟩
  | endText hp =>
    refine ⟨hw.stream, ?_⟩
    cases hq : w.queue <;> simp [Failed, afterText, stopped?]
  | line hp hm => exact ⟨hw.stream.step (.write _ _), by simp [Failed, stopped?]⟩
  | fullLine hp hm => exact ⟨hw.stream.step (.write _ _), by simp [Failed, stopped?]⟩
  | drained hp hd => exact ⟨hw.stream.step (.drain _), by simp [Failed, stopped?]⟩
  | broken hp hd =>
    rw [hw.stream.drain] at hd
    cases hd
  | @flush purpose hp =>
    rw [hw.stream.flush]
    refine ⟨by simpa using hw.stream.step (.flush _), ?_⟩
    cases purpose <;> simp [Failed, flushed, stopped?]

theorem Steady.send {w : Writer σ} (hw : w.Steady) (text : String) : (w.send text).1.Steady := by
  unfold Writer.send
  split
  · exact hw
  · cases hs : w.stopped? with
    | none => exact ⟨hw.stream, hw.unfailed⟩
    | some outcome => exact hw

theorem Steady.close {w : Writer σ} (hw : w.Steady) : w.close.Steady :=
  ⟨hw.stream, hw.unfailed⟩

theorem Steady.stopped {w : Writer σ} (hw : w.Steady)
    (h : w.stopped?.isSome) : w.stopped? = some (.ok ()) := by
  obtain ⟨outcome, ho⟩ := Option.isSome_iff_exists.1 h
  cases outcome with
  | ok u => exact ho
  | error e => exact absurd ⟨e, ho⟩ hw.unfailed

theorem step_of_stopped {w : Writer σ} {outcome : Outcome} (h : w.stopped? = some outcome) :
    w.step = none := by
  cases hp : w.phase <;> simp [stopped?, hp] at h
  simp [step, hp]

/-- A task with nothing to do waits for its handle, or it has stopped. -/
theorem waiting_of_step_eq_none {w : Writer σ} (h : w.step = none) (hs : w.stopped? = none) :
    w.phase = .waiting ∧ w.queue = [] ∧ w.closed = false := by
  unfold step at h
  cases hp : w.phase with
  | waiting =>
    rw [hp] at h
    cases hq : w.queue with
    | nil => exact ⟨rfl, rfl, by simpa [hq] using h⟩
    | cons signal queue => cases signal <;> simp [hq] at h
  | writing rest =>
    cases rest with
    | nil => simp [hp] at h
    | cons line rest => cases hm : (OutputStream.write line w.stream).1 <;> simp [hp, hm] at h
  | draining rest =>
    rcases hd : OutputStream.drain w.stream with ⟨result, stream⟩
    cases result <;> simp [hp, hd] at h
  | flushing purpose => simp [hp] at h
  | stopped outcome => simp [stopped?, hp] at hs

/-- Once the queue is closed the task goes on until it has stopped. -/
theorem stopped_of_step_eq_none {w : Writer σ} (hc : w.closed = true) (h : w.step = none) :
    w.stopped?.isSome := by
  cases hs : w.stopped? with
  | some outcome => rfl
  | none =>
    obtain ⟨-, -, ho⟩ := waiting_of_step_eq_none h hs
    simp [hc] at ho

end Writer

end StyledEffects
