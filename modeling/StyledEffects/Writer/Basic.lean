import StyledEffects.Stream.Lines

/-! A writer owns a stream and a queue of signals. Its handle side adds signals at any time;
its task side takes them one by one and does the writing. The two sides take turns in any
order, and a turn of the task is one call on the stream at most. -/

namespace StyledEffects

inductive Signal where
  | text (text : String)
  /-- Asks for a flush; the answer is kept under the ticket. -/
  | flush (ticket : Nat)
  deriving DecidableEq, Repr

inductive Purpose where
  /-- The queue has run empty after a text. -/
  | idle
  | answer (ticket : Nat)
  /-- The queue has been closed and is empty. -/
  | last
  deriving DecidableEq, Repr

inductive Phase where
  | waiting
  /-- In a text with these lines left. -/
  | writing (rest : List String)
  /-- The stream has to be drained before the lines left. -/
  | draining (rest : List String)
  | flushing (purpose : Purpose)
  | stopped (outcome : Outcome)

structure Writer (σ : Type) where
  label : String
  stream : σ
  queue : List Signal
  /-- Nothing more will be added to the queue. -/
  closed : Bool
  phase : Phase
  /-- The answers given to flush signals so far, by ticket. -/
  answers : List (Nat × Outcome)
  /-- The number of tickets given out. -/
  tickets : Nat

namespace Writer

variable {σ : Type}

def new (label : String) (stream : σ) : Writer σ :=
  ⟨label, stream, [], false, .waiting, [], 0⟩

def stopped? (w : Writer σ) : Option Outcome :=
  match w.phase with
  | .stopped outcome => some outcome
  | _ => none

def stoppedError (label : String) : DeviceError :=
  ⟨.brokenPipe, label ++ " writer task has stopped"⟩

def flushError (label : String) (e : DeviceError) : DeviceError :=
  ⟨e.kind, label ++ " flush failed"⟩

/-! ## The handle -/

/-- Queues a text. An empty one is dropped, and so is any once the task has stopped. -/
def send (text : String) (w : Writer σ) : Writer σ × List Log.Event :=
  if text = "" then (w, [])
  else match w.stopped? with
    | some _ => (w, [.discarding w.label])
    | none => ({ w with queue := w.queue ++ [.text text] }, [])

def requestFlush (w : Writer σ) : Nat × Writer σ :=
  match w.stopped? with
  | some _ => (w.tickets, { w with tickets := w.tickets + 1 })
  | none =>
    (w.tickets, { w with tickets := w.tickets + 1, queue := w.queue ++ [.flush w.tickets] })

/-- The answer to a ticket, once it is known. A task that stops leaves the signals still in
its queue without one, which the handle reports as an error of its own. -/
def answer? (ticket : Nat) (w : Writer σ) : Option Outcome :=
  match w.answers.lookup ticket, w.stopped? with
  | some outcome, _ => some outcome
  | none, some _ => some (.error (stoppedError w.label))
  | none, none => none

def close (w : Writer σ) : Writer σ := { w with closed := true }

/-! ## The task -/

def afterText (queue : List Signal) : Phase :=
  if queue.isEmpty then .flushing .idle else .waiting

def flushed (purpose : Purpose) (result : Outcome) (w : Writer σ) : Writer σ :=
  match purpose, result with
  | .idle, .ok () => { w with phase := .waiting }
  | .idle, .error e => { w with phase := .stopped (.error e) }
  | .answer ticket, .ok () =>
    { w with phase := .waiting, answers := (ticket, .ok ()) :: w.answers }
  | .answer ticket, .error e =>
    { w with
      phase := .stopped (.error (flushError w.label e))
      answers := (ticket, .error e) :: w.answers }
  | .last, result => { w with phase := .stopped result }

/-- One turn of the task; none if it has nothing to do. -/
def step [OutputStream σ] (w : Writer σ) : Option (Writer σ × List Log.Event) :=
  match w.phase with
  | .waiting =>
    match w.queue with
    | .text text :: queue => some ({ w with queue, phase := .writing (Text.lines text) }, [])
    | .flush ticket :: queue => some ({ w with queue, phase := .flushing (.answer ticket) }, [])
    | [] => if w.closed then some ({ w with phase := .flushing .last }, []) else none
  | .writing [] => some ({ w with phase := afterText w.queue }, [])
  | .writing (line :: rest) =>
    let (more, stream) := OutputStream.write line w.stream
    if more then some ({ w with stream, phase := .writing rest }, [])
    else some ({ w with stream, phase := .draining rest }, [.draining (Text.utf8 line).length])
  | .draining rest =>
    match OutputStream.drain w.stream with
    | (.ok (), stream) => some ({ w with stream, phase := .writing rest }, [])
    | (.error e, stream) =>
      some ({ w with stream, phase := .stopped (.error e) }, [.writeFailed w.label e])
  | .flushing purpose =>
    let (result, stream) := OutputStream.flush w.stream
    some ({ w with stream }.flushed purpose result, [])
  | .stopped _ => none

/-! ## How much is left to do -/

end Writer

def Signal.work : Signal → Nat
  | .text t => 2 * (Text.lines t).length + 3
  | .flush _ => 2

def Signal.workOfAll (queue : List Signal) : Nat :=
  queue.foldr (fun signal work => signal.work + work) 0

@[simp] theorem Signal.workOfAll_nil : workOfAll [] = 0 := rfl

@[simp] theorem Signal.workOfAll_cons (signal : Signal) (queue : List Signal) :
    workOfAll (signal :: queue) = signal.work + workOfAll queue := rfl

@[simp] theorem Signal.workOfAll_append (a b : List Signal) :
    workOfAll (a ++ b) = workOfAll a + workOfAll b := by
  induction a with
  | nil => simp
  | cons signal rest ih => simp [ih, Nat.add_assoc]

def Phase.work : Phase → Nat
  | waiting => 2
  | writing rest => 2 * rest.length + 4
  | draining rest => 2 * rest.length + 5
  | flushing .idle => 3
  | flushing (.answer _) => 3
  | flushing .last => 1
  | stopped _ => 0

namespace Writer

/-- No fewer turns than the task can take before it waits for the handle. -/
def work {σ : Type} (w : Writer σ) : Nat := w.phase.work + Signal.workOfAll w.queue

theorem work_flushed_lt {σ : Type} (w : Writer σ) (purpose : Purpose) (result : Outcome)
    (h : w.phase = .flushing purpose) : (w.flushed purpose result).work < w.work := by
  cases purpose <;> cases result <;> simp [flushed, work, h, Phase.work]

theorem work_lt_of_step {σ : Type} [OutputStream σ] {w w' : Writer σ} {events : List Log.Event}
    (h : w.step = some (w', events)) : w'.work < w.work := by
  unfold step at h
  split at h
  · rename_i hp
    split at h
    · rename_i hq
      obtain ⟨rfl, -⟩ := by simpa using h
      simp [work, hp, hq, Phase.work, Signal.work]
      omega
    · rename_i hq
      obtain ⟨rfl, -⟩ := by simpa using h
      simp [work, hp, hq, Phase.work, Signal.work]
      omega
    · rename_i hq
      split at h
      · obtain ⟨rfl, -⟩ := by simpa using h
        simp [work, hp, hq, Phase.work]
      · simp at h
  · rename_i hp
    obtain ⟨rfl, -⟩ := by simpa using h
    cases hq : w.queue <;> simp [work, hp, hq, afterText, Phase.work]
  · rename_i line rest hp
    cases hm : (OutputStream.write line w.stream).1 <;> simp only [hm] at h
    · obtain ⟨rfl, -⟩ := by simpa using h
      simp [work, hp, Phase.work]
      omega
    · obtain ⟨rfl, -⟩ := by simpa using h
      simp [work, hp, Phase.work]
  · rename_i hp
    split at h <;> (obtain ⟨rfl, -⟩ := by simpa using h) <;>
      simp [work, hp, Phase.work]
  · rename_i hp
    obtain ⟨rfl, -⟩ := by simpa using h
    exact work_flushed_lt { w with stream := _ } _ _ hp
  · simp at h

end Writer

end StyledEffects
