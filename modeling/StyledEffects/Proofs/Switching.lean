import StyledEffects.Proofs.SharedLine
import StyledEffects.Proofs.Usage

/-! Line feeds at switches. An open sink is called with texts and escapes, while the tasks of its
writers take turns at any time. A text gets a line feed put before it if the last text went to
the other channel and it does not start with one, and at no other time. In the order of the
calls no line then has text of both channels, even if a task has failed and its texts are lost. -/

namespace StyledEffects

open Wire Output

def Output.textChannel? : Output → Option Channel
  | .text channel _ => some channel
  | .control _ => none

theorem Output.route_fst (last : Option Channel) (output : Output) :
    (output.route last).1 = output.channel := by
  cases output <;> rfl

theorem Output.forced_sending (last : Option Channel) (output : Output) :
    (output.sending last).forced = true ↔ ∃ channel text, output = .text channel text ∧
      last ≠ none ∧ last ≠ some channel ∧ text.toList.head? ≠ some '\n' := by
  cases output with
  | control escapes => simp [sending]
  | text channel t =>
    rw [sending, Sink.forcesNewline_iff]
    constructor
    · exact fun h => ⟨channel, t, rfl, h⟩
    · rintro ⟨_, _, ⟨⟩, h⟩
      exact h

theorem Output.route_snd (last : Option Channel) (output : Output) : (output.route last).2 =
    if (output.sending last).forced then "\n" ++ output.content else output.content := by
  cases output with
  | control escapes => rfl
  | text channel t =>
    by_cases h : Sink.forcesNewline last channel t = true
    · have hl := (Sink.forcesNewline_iff _ _ _).1 h
      simp only [sending, h, route, lead, if_pos hl, if_true, content]
    · have hl := mt (Sink.forcesNewline_iff _ _ _).2 h
      simp only [sending, h, route, lead, if_neg hl, Bool.false_eq_true, if_false, content,
        String.empty_append]

def Signal.chars : Signal → List Char
  | .text t => t.toList
  | .flush _ => []

namespace Writer

variable {σ : Type}

theorem send_queue (text : String) (w : Writer σ) : (w.send text).1.queue =
    w.queue ++ if text = "" ∨ w.stopped?.isSome then [] else [.text text] := by
  unfold send
  by_cases h : text = ""
  · simp [h]
  · cases hs : w.stopped? <;> simp [h]

theorem send_events (text : String) (w : Writer σ) : (w.send text).2 =
    if text ≠ "" ∧ w.stopped?.isSome then [.discarding w.label] else [] := by
  unfold send
  by_cases h : text = ""
  · simp [h]
  · cases hs : w.stopped? <;> simp [h]

/-- A writer whose handle is open: the task has not been told that there is nothing more. -/
structure Open (w : Writer σ) : Prop where
  closed : w.closed = false
  last : w.phase = .flushing .last ∨ w.stopped? = some (.ok ()) → w.closed = true ∧ w.queue = []

theorem open_new (label : String) (stream : σ) : (new label stream).Open :=
  ⟨rfl, by simp [new, stopped?]⟩

theorem Open.send {w : Writer σ} (h : w.Open) (text : String) : (w.send text).1.Open := by
  refine ⟨(send_closed text w).trans h.closed, fun hl => ?_⟩
  have adds := adds_send text w
  rw [adds.phase, adds.stopped?] at hl
  exact absurd (h.last hl).1 (by simp [h.closed])

theorem Open.turn [OutputStream σ] {w w' : Writer σ} {events : List Log.Event} (h : w.Open)
    (ht : Turn w w' events) : w'.Open :=
  ⟨ht.closed.trans h.closed, last_of_turn ht h.last⟩

/-- While the handle is open the task stops only if it fails. -/
theorem Open.failed {w : Writer σ} (h : w.Open) (hs : w.stopped?.isSome) : w.Failed := by
  obtain ⟨outcome, ho⟩ := Option.isSome_iff_exists.1 hs
  cases outcome with
  | error e => exact ⟨e, ho⟩
  | ok u => exact absurd (h.last (Or.inr ho)).1 (by simp [h.closed])

theorem Turn.running [OutputStream σ] {w w' : Writer σ} {events : List Log.Event}
    (h : Turn w w' events) : w.stopped? = none := by
  cases h <;> simp_all [stopped?]

end Writer

namespace Sink

variable {σ τ : Type}

def stopped (s : Sink σ τ) : Channel → Bool
  | .primary => s.primary.stopped?.isSome
  | .secondary => s.secondary.stopped?.isSome

def label (s : Sink σ τ) : Channel → String
  | .primary => s.primary.label
  | .secondary => s.secondary.label

def Failed (s : Sink σ τ) : Channel → Prop
  | .primary => s.primary.Failed
  | .secondary => s.secondary.Failed

/-! ## Calls -/

/-- A call on a sink, with the signals that it has queued on the writers and what it has logged. -/
structure Entry where
  output : Output
  queued : List (Channel × Signal)
  events : List Log.Event

namespace Entry

def forced (e : Entry) : Bool :=
  e.events.any fun
    | .switching .. => true
    | _ => false

/-- The task has stopped, and nothing is queued for it any more. -/
def discarded (e : Entry) : Bool :=
  e.events.any fun
    | .discarding _ => true
    | _ => false

def text (e : Entry) : String := String.ofList (e.queued.flatMap fun (_, signal) => signal.chars)

def own (e : Entry) : String := if e.forced then String.ofList e.text.toList.tail else e.text

def marks (e : Entry) : List Mark :=
  if e.output.isText then
    e.queued.flatMap fun (channel, signal) => signal.chars.map fun char => ⟨char, channel, true⟩
  else []

def lastChannel (log : List Entry) : Option Channel :=
  (log.filterMap fun e => e.output.textChannel?).getLast?

theorem lastChannel_concat (log : List Entry) (e : Entry) :
    lastChannel (log ++ [e]) = e.output.lastAfter (lastChannel log) := by
  cases h : e.output <;> simp [lastChannel, h, textChannel?, lastAfter]

/-- An entry as it should be if the last text has gone to the channel `last`. -/
structure Placed (last : Option Channel) (e : Entry) : Prop where
  forced : e.forced = true ↔ ∃ channel text, e.output = .text channel text ∧
    last ≠ none ∧ last ≠ some channel ∧ text.toList.head? ≠ some '\n'
  queued : e.discarded = false → e.queued =
    if e.forced = true then [(e.output.channel, .text ("\n" ++ e.output.content))]
    else if e.output.content = "" then []
    else [(e.output.channel, .text e.output.content)]
  own : e.discarded = false → e.own = e.output.content
  lost : e.discarded = true → e.queued = []

end Entry

def growth {ρ : Type} (channel : Channel) (w w' : Writer ρ) : List (Channel × Signal) :=
  (w'.queue.drop w.queue.length).map (channel, ·)

def entry (output : Output) (s : Sink σ τ) : Entry :=
  let (s', events) := s.put output
  ⟨output, growth .primary s.primary s'.primary ++ growth .secondary s.secondary s'.secondary,
    events⟩

def switch (last : Option Channel) (output : Output) : List Log.Event :=
  if (output.sending last).forced then [.switching (last.getD output.channel) output.channel]
  else []

theorem send_events (channel : Channel) (text : String) (s : Sink σ τ) :
    (s.send channel text).2 =
      if text ≠ "" ∧ s.stopped channel then [.discarding (s.label channel)] else [] := by
  unfold send
  cases channel with
  | primary =>
    by_cases h : text = "" <;>
      simpa [h, stopped, label] using Writer.send_events text s.primary
  | secondary =>
    by_cases h : text = "" <;>
      simpa [h, stopped, label] using Writer.send_events text s.secondary

theorem put_events (output : Output) (s : Sink σ τ) : (s.put output).2 =
    switch s.active output ++
      (({ s with active := output.lastAfter s.active } : Sink σ τ).send
        (output.route s.active).1 (output.route s.active).2).2 := by
  cases output with
  | control escapes => rfl
  | text channel t =>
    by_cases h : forcesNewline s.active channel t = true
    · have hl := (forcesNewline_iff _ _ _).1 h
      simp only [put, writeText, h, if_true, switch, sending, route, lead, lastAfter, if_pos hl]
      rfl
    · have hl := mt (forcesNewline_iff _ _ _).2 h
      simp only [put, writeText, h, Bool.false_eq_true, if_false, switch, sending, route, lead,
        lastAfter, if_neg hl, String.empty_append, List.nil_append]

theorem growth_send {ρ : Type} (channel : Channel) (text : String) (w : Writer ρ) :
    growth channel w (w.send text).1 =
      if text = "" ∨ w.stopped?.isSome then [] else [(channel, .text text)] := by
  rw [growth, Writer.send_queue, List.drop_left]
  split <;> rfl

theorem queue_put (output : Output) (s : Sink σ τ) :
    s.primary.queue <+: (s.put output).1.primary.queue ∧
      s.secondary.queue <+: (s.put output).1.secondary.queue := by
  have grows {ρ : Type} (here : Prop) [Decidable here] (text : String) (w : Writer ρ) :
      w.queue <+: (if here then (w.send text).1 else w).queue := by
    split
    · exact (Writer.adds_send text w).queue
    · exact List.prefix_refl _
  rw [put_primary, put_secondary]
  exact ⟨grows _ _ _, grows _ _ _⟩

theorem growth_self {ρ : Type} (channel : Channel) (w : Writer ρ) : growth channel w w = [] := by
  simp [growth]

theorem queued_entry (output : Output) (s : Sink σ τ) : (s.entry output).queued =
    if (output.route s.active).2 = "" ∨ s.stopped output.channel then []
    else [(output.channel, .text (output.route s.active).2)] := by
  change growth .primary s.primary (s.put output).1.primary ++
    growth .secondary s.secondary (s.put output).1.secondary = _
  rw [put_primary, put_secondary, route_fst]
  cases output.channel with
  | primary =>
    rw [if_pos rfl, if_neg (by decide), growth_send, growth_self, List.append_nil]
    rfl
  | secondary =>
    rw [if_neg (by decide), if_pos rfl, growth_send, growth_self, List.nil_append]
    rfl

theorem events_entry (output : Output) (s : Sink σ τ) : (s.entry output).events =
    switch s.active output ++
      if (output.route s.active).2 ≠ "" ∧ s.stopped output.channel then
        [.discarding (s.label output.channel)] else [] := by
  rw [← route_fst s.active]
  exact (put_events output s).trans (by rw [send_events]; rfl)

theorem forced_entry (output : Output) (s : Sink σ τ) :
    (s.entry output).forced = (output.sending s.active).forced := by
  rw [Entry.forced, events_entry, List.any_append, switch]
  split <;> split <;> simp_all

theorem discarded_entry (output : Output) (s : Sink σ τ) : (s.entry output).discarded = true ↔
    (output.route s.active).2 ≠ "" ∧ s.stopped output.channel = true := by
  rw [Entry.discarded, events_entry, List.any_append, switch]
  split <;> split <;> simp_all

theorem queued_of_kept {output : Output} {s : Sink σ τ}
    (h : (s.entry output).discarded = false) : (s.entry output).queued =
      if (output.route s.active).2 = "" then []
      else [(output.channel, .text (output.route s.active).2)] := by
  rw [queued_entry]
  by_cases he : (output.route s.active).2 = ""
  · rw [if_pos he, if_pos (Or.inl he)]
  · have runs : s.stopped output.channel ≠ true := fun hs => by
      simp [(discarded_entry output s).2 ⟨he, hs⟩] at h
    rw [if_neg he, if_neg (not_or.2 ⟨he, runs⟩)]

theorem queued_of_discarded {output : Output} {s : Sink σ τ}
    (h : (s.entry output).discarded = true) : (s.entry output).queued = [] := by
  rw [queued_entry, if_pos (Or.inr ((discarded_entry output s).1 h).2)]

theorem text_of_kept {output : Output} {s : Sink σ τ} (h : (s.entry output).discarded = false) :
    (s.entry output).text = (output.route s.active).2 := by
  rw [Entry.text, queued_of_kept h]
  split
  · next he => rw [he]; rfl
  · simp [Signal.chars]

theorem placed_entry (output : Output) (s : Sink σ τ) : (s.entry output).Placed s.active := by
  have same : (s.entry output).output = output := rfl
  refine ⟨?_, fun h => ?_, fun h => ?_, queued_of_discarded⟩
  · rw [forced_entry, same]
    exact forced_sending s.active output
  · rw [queued_of_kept h, forced_entry, same, route_snd]
    cases (output.sending s.active).forced <;> simp
  · rw [Entry.own, text_of_kept h, forced_entry, same, ← Sent.own_sending s.active, route_eq]
    rfl

/-! ## The terminal -/

theorem stopped_put (output : Output) (s : Sink σ τ) (channel : Channel) :
    (s.put output).1.stopped channel = s.stopped channel := by
  cases channel with
  | primary =>
    rw [stopped, stopped, put_primary]
    split
    · rw [(Writer.adds_send _ _).stopped?]
    · rfl
  | secondary =>
    rw [stopped, stopped, put_secondary]
    split
    · rw [(Writer.adds_send _ _).stopped?]
    · rfl

theorem queued_text (channel : Channel) (text : String) (s : Sink σ τ) :
    (s.entry (.text channel text)).queued =
      if lead s.active channel text ++ text = "" ∨ s.stopped channel then []
      else [(channel, .text (lead s.active channel text ++ text))] :=
  queued_entry (.text channel text) s

theorem marks_of_running {s : Sink σ τ} {channel : Channel} (h : s.stopped channel = false)
    (text : String) : (s.entry (.text channel text)).marks =
      (lead s.active channel text ++ text).toList.map fun char => ⟨char, channel, true⟩ := by
  have isText : (s.entry (.text channel text)).output.isText = true := rfl
  rw [Entry.marks, if_pos isText, queued_text, h]
  by_cases he : lead s.active channel text ++ text = "" <;> simp [he, Signal.chars]

theorem marks_of_stopped {s : Sink σ τ} {channel : Channel} (h : s.stopped channel = true)
    (text : String) : (s.entry (.text channel text)).marks = [] := by
  rw [Entry.marks, queued_text, if_pos (Or.inr h)]
  split <;> rfl

/-- The last line has text of the last text's channel only, unless that text has been lost. -/
def LastLine (own : Option Channel) (s : Sink σ τ) : Prop :=
  own = s.active ∨ ∃ channel, s.active = some channel ∧ s.stopped channel = true

/-- A text comes after text of its own channel, or it starts with a line feed, or it is lost. After
that no text of its channel counts any more. -/
theorem tidy_put {screen : List Mark} {own : Option Channel} {s : Sink σ τ}
    (tidy : Tidy own screen) (hl : LastLine own s) (output : Output) :
    ∃ own', Tidy own' (screen ++ (s.entry output).marks) ∧ LastLine own' (s.put output).1 := by
  unfold LastLine
  simp only [put_active, stopped_put]
  cases output with
  | control escapes =>
    have none : (s.entry (.control escapes)).marks = [] := rfl
    rw [none, List.append_nil]
    exact ⟨own, tidy, hl⟩
  | text channel t =>
    cases hs : s.stopped channel with
    | true =>
      rw [marks_of_stopped hs, List.append_nil]
      exact ⟨own, tidy, Or.inr ⟨channel, rfl, hs⟩⟩
    | false =>
      rw [marks_of_running hs]
      refine ⟨some channel, tidy.append ?_ ?_, Or.inl rfl⟩
      · intro m hm _
        obtain ⟨c, -, rfl⟩ := List.mem_map.1 hm
        rfl
      · by_cases hn : s.active = none
        · refine Or.inl (hl.resolve_right ?_ |>.trans hn)
          rintro ⟨c, hc, -⟩
          rw [hn] at hc
          cases hc
        · by_cases hc : s.active = some channel
          · refine Or.inr (Or.inl (hl.resolve_right ?_ |>.trans hc))
            rintro ⟨c, hc', hs'⟩
            obtain rfl := Option.some.inj (hc.symm.trans hc')
            simp [hs] at hs'
          · obtain ⟨rest, hr⟩ := lead_append_of_other t hn hc
            exact Or.inr (Or.inr ⟨_, _, by rw [hr]; rfl, rfl⟩)

/-! ## Any calls and turns -/

inductive Act where
  | put (output : Output)
  | task (channel : Channel)
  deriving DecidableEq, Repr

def Act.output? : Act → Option Output
  | put output => some output
  | task _ => none

section

variable [OutputStream σ] [OutputStream τ]

/-- The sink after an act. A task that has nothing to do leaves it as it is. -/
def act (s : Sink σ τ) : Act → Sink σ τ
  | .put output => (s.put output).1
  | .task .primary =>
    match s.primary.step with
    | some (primary, _) => { s with primary }
    | none => s
  | .task .secondary =>
    match s.secondary.step with
    | some (secondary, _) => { s with secondary }
    | none => s

def after (acts : List Act) (s : Sink σ τ) : Sink σ τ := acts.foldl act s

def log : List Act → Sink σ τ → List Entry
  | [], _ => []
  | .put output :: rest, s => s.entry output :: log rest (s.act (.put output))
  | .task channel :: rest, s => log rest (s.act (.task channel))

theorem writer_act {ρ : Type} [OutputStream ρ] (side : IoRun.Side σ τ ρ) (s : Sink σ τ) (a : Act) :
    (∃ text, side.writer (s.act a) = ((side.writer s).send text).1) ∨
      side.writer (s.act a) = side.writer s ∨
      ∃ events, Writer.Turn (side.writer s) (side.writer (s.act a)) events := by
  cases a with
  | put output =>
    rw [act, put_eq_send, side.writer_send]
    split
    · exact Or.inl ⟨_, rfl⟩
    · exact Or.inr (Or.inl rfl)
  | task channel =>
    cases channel with
    | primary =>
      rw [act]
      cases h : s.primary.step with
      | none => exact Or.inr (Or.inl rfl)
      | some next =>
        cases side with
        | primary => exact Or.inr (Or.inr ⟨next.2, Writer.turn_of_step h⟩)
        | secondary => exact Or.inr (Or.inl rfl)
    | secondary =>
      rw [act]
      cases h : s.secondary.step with
      | none => exact Or.inr (Or.inl rfl)
      | some next =>
        cases side with
        | primary => exact Or.inr (Or.inl rfl)
        | secondary => exact Or.inr (Or.inr ⟨next.2, Writer.turn_of_step h⟩)

/-- What texts and turns keep of a writer is kept by any acts on the sink. -/
theorem writer_after {ρ : Type} [OutputStream ρ] (side : IoRun.Side σ τ ρ) {P : Writer ρ → Prop}
    (send : ∀ w text, P w → P (w.send text).1)
    (turn : ∀ w w' events, P w → Writer.Turn w w' events → P w') {s : Sink σ τ}
    (h : P (side.writer s)) (acts : List Act) : P (side.writer (s.after acts)) := by
  induction acts generalizing s with
  | nil => exact h
  | cons a rest ih =>
    apply ih
    rcases writer_act side s a with ⟨text, hw⟩ | hw | ⟨events, ht⟩
    · rw [hw]
      exact send _ text h
    · rw [hw]
      exact h
    · exact turn _ _ events h ht

theorem stopped_act {s : Sink σ τ} {channel : Channel} (h : s.stopped channel = true) (a : Act) :
    (s.act a).stopped channel = true := by
  have kept {ρ : Type} [OutputStream ρ] (side : IoRun.Side σ τ ρ)
      (hs : (side.writer s).stopped?.isSome) : (side.writer (s.act a)).stopped?.isSome := by
    rcases writer_act side s a with ⟨text, hw⟩ | hw | ⟨events, turn⟩
    · rwa [hw, (Writer.adds_send _ _).stopped?]
    · rwa [hw]
    · simp [turn.running] at hs
  cases channel with
  | primary => exact kept .primary h
  | secondary => exact kept .secondary h

end

/-- Of the calls so far each is as it should be after those before it, and the lines are tidy. -/
structure Kept (log : List Entry) (s : Sink σ τ) : Prop where
  active : s.active = Entry.lastChannel log
  placed : ∀ before e rest, log = before ++ e :: rest → e.Placed (Entry.lastChannel before)
  screen : ∃ own, Tidy own (log.flatMap Entry.marks) ∧ LastLine own s
  discarded : ∀ e ∈ log, e.discarded = true → s.stopped e.output.channel = true

theorem kept_new (primary : σ) (secondary : τ) : Kept [] (new primary secondary) :=
  ⟨rfl, by simp, ⟨none, tidy_nil, Or.inl rfl⟩, by simp⟩

theorem Kept.put {log : List Entry} {s : Sink σ τ} (h : Kept log s) (output : Output) :
    Kept (log ++ [s.entry output]) (s.put output).1 := by
  refine ⟨?_, fun before e rest split => ?_, ?_, fun e he hd => ?_⟩
  · rw [put_active, Entry.lastChannel_concat, ← h.active]
    rfl
  · rcases eq_append_cons_of_concat split with ⟨rfl, rfl, -⟩ | ⟨rest, hl, -⟩
    · rw [← h.active]
      exact placed_entry output s
    · exact h.placed before e rest hl
  · obtain ⟨own, tidy, hl⟩ := h.screen
    rw [List.flatMap_append, List.flatMap_singleton]
    exact tidy_put tidy hl output
  · rw [stopped_put]
    rcases List.mem_append.1 he with he | he
    · exact h.discarded e he hd
    · obtain rfl := List.mem_singleton.1 he
      exact ((discarded_entry output s).1 hd).2

theorem Kept.task [OutputStream σ] [OutputStream τ] {log : List Entry} {s : Sink σ τ}
    (h : Kept log s) (channel : Channel) : Kept log (s.act (.task channel)) := by
  have active : (s.act (.task channel)).active = s.active := by
    cases channel <;> (rw [act]; split <;> rfl)
  refine ⟨active.trans h.active, h.placed, ?_, fun e he hd => stopped_act (h.discarded e he hd) _⟩
  obtain ⟨own, tidy, hl⟩ := h.screen
  refine ⟨own, tidy, ?_⟩
  rcases hl with hl | ⟨c, hc, hs⟩
  · exact Or.inl (hl.trans active.symm)
  · exact Or.inr ⟨c, active.trans hc, stopped_act hs _⟩

theorem kept_after [OutputStream σ] [OutputStream τ] {before : List Entry} {s : Sink σ τ}
    (h : Kept before s) (acts : List Act) : Kept (before ++ s.log acts) (s.after acts) := by
  induction acts generalizing before s with
  | nil => simpa [log, after] using h
  | cons a rest ih =>
    cases a with
    | put output =>
      rw [log, List.append_cons]
      exact ih (h.put output)
    | task channel => exact ih (h.task channel)

theorem output_log [OutputStream σ] [OutputStream τ] (acts : List Act) (s : Sink σ τ) :
    (s.log acts).map Entry.output = acts.filterMap Act.output? := by
  induction acts generalizing s with
  | nil => rfl
  | cons a rest ih =>
    cases a with
    | put output => rw [log, List.map_cons, ih]; rfl
    | task channel => exact ih _

theorem open_after [OutputStream σ] [OutputStream τ] {ρ : Type} [OutputStream ρ]
    (side : IoRun.Side σ τ ρ) {s : Sink σ τ} (h : (side.writer s).Open) (acts : List Act) :
    (side.writer (s.after acts)).Open :=
  writer_after side (fun _ text hw => hw.send text) (fun _ _ _ hw turn => hw.turn turn) h acts

theorem steady_after [OutputStream σ] [OutputStream τ] {ρ : Type} [OutputStream ρ]
    (side : IoRun.Side σ τ ρ) {s : Sink σ τ} (h : (side.writer s).Steady) (acts : List Act) :
    (side.writer (s.after acts)).Steady :=
  writer_after side (fun _ text hw => hw.send text) (fun _ _ _ hw turn => hw.turn turn) h acts

theorem failed_of_stopped [OutputStream σ] [OutputStream τ] {primary : σ} {secondary : τ}
    {acts : List Act} {channel : Channel}
    (h : ((new primary secondary).after acts).stopped channel = true) :
    ((new primary secondary).after acts).Failed channel := by
  cases channel with
  | primary =>
    have start : (IoRun.Side.primary.writer (new primary secondary)).Open := Writer.open_new _ _
    exact (open_after .primary start acts).failed h
  | secondary =>
    have start : (IoRun.Side.secondary.writer (new primary secondary)).Open := Writer.open_new _ _
    exact (open_after .secondary start acts).failed h

theorem forced_of_one_channel {log : List Entry}
    (placed : ∀ before e rest, log = before ++ e :: rest → e.Placed (Entry.lastChannel before))
    {channel : Channel} (one : ∀ e ∈ log, ∀ c ∈ e.output.textChannel?, c = channel)
    {e : Entry} (he : e ∈ log) : e.forced = false := by
  obtain ⟨before, rest, split⟩ := List.append_of_mem he
  refine Bool.eq_false_iff.2 fun hf => ?_
  obtain ⟨c, text, same, some', other, -⟩ := (placed before e rest split).forced.1 hf
  obtain ⟨last, hl⟩ := Option.ne_none_iff_exists'.1 some'
  obtain ⟨e', he', ht⟩ := List.mem_filterMap.1 (List.mem_of_getLast? hl)
  have earlier : last = channel := one e' (by rw [split]; exact List.mem_append_left _ he') last ht
  have now : c = channel := one e he c (by rw [same]; rfl)
  exact other (by rw [hl, earlier, now])

end Sink

section

variable {σ τ : Type} [OutputStream σ] [OutputStream τ]

/-- Any calls on a sink, with any turns of the tasks between them. A call only adds to the queues.
The active channel is that of the last text, whatever escapes there have been since. A text is
queued as it is, or with a line feed before it if the text before it went to the other channel and
it does not start with one itself; without that line feed it is what was given. In the order of the
calls no line of what is queued has text of both channels. Texts of one channel get no line feed at
all. A text is lost only if the task of its channel has failed, which does not happen if the stream
never fails. -/
theorem line_feeds_at_switches (primary : σ) (secondary : τ) (acts : List Sink.Act) :
    let start := Sink.new primary secondary
    let s := start.after acts
    let log := start.log acts
    log.map Sink.Entry.output = acts.filterMap Sink.Act.output? ∧
    (∀ output, s.primary.queue <+: (s.put output).1.primary.queue ∧
      s.secondary.queue <+: (s.put output).1.secondary.queue) ∧
    s.active = Sink.Entry.lastChannel log ∧
    (∀ before e rest, log = before ++ e :: rest → e.Placed (Sink.Entry.lastChannel before)) ∧
    ¬ SharesLine (log.flatMap Sink.Entry.marks) ∧
    (∀ channel, (∀ e ∈ log, ∀ c ∈ e.output.textChannel?, c = channel) →
      ∀ e ∈ log, e.forced = false) ∧
    (∀ e ∈ log, e.discarded = true → s.Failed e.output.channel) ∧
    (Stream.NeverFails primary → ¬ s.Failed .primary) ∧
    (Stream.NeverFails secondary → ¬ s.Failed .secondary) := by
  intro start s log
  have kept : Sink.Kept log s := Sink.kept_after (Sink.kept_new primary secondary) acts
  obtain ⟨own, tidy, -⟩ := kept.screen
  refine ⟨Sink.output_log acts start, fun output => s.queue_put output, kept.active, kept.placed,
    tidy.apart, fun channel one e => Sink.forced_of_one_channel kept.placed one,
    fun e he hd => Sink.failed_of_stopped (kept.discarded e he hd), fun h => ?_, fun h => ?_⟩
  · have steady : (IoRun.Side.primary.writer start).Steady := Writer.steady_new "primary" h
    exact (Sink.steady_after .primary steady acts).unfailed
  · have steady : (IoRun.Side.secondary.writer start).Steady := Writer.steady_new "secondary" h
    exact (Sink.steady_after .secondary steady acts).unfailed

/-- A text on the secondary channel, which is taken up, a burst of escapes, and an empty text and
another one on the primary channel. -/
def emptySwitch : List Sink.Act :=
  [.put (.text .secondary "a"), .task .secondary, .put (.control "\x1b[0m"),
    .put (.text .primary ""), .put (.text .primary "b")]

/-- The empty text becomes a line feed, and the next one is queued as it is. -/
theorem emptySwitch_feeds :
    let start := Sink.new (Recorder.new none false) (Recorder.new none false)
    let log := start.log emptySwitch
    log.map Sink.Entry.queued = [[(.secondary, .text "a")], [(.primary, .text "\x1b[0m")],
      [(.primary, .text "\n")], [(.primary, .text "b")]] ∧
      (start.after emptySwitch).active = some .primary ∧
      (∀ e ∈ log, e.own = e.output.content) ∧ ¬ SharesLine (log.flatMap Sink.Entry.marks) := by
  intro start log
  have never := Stream.neverFails_recorder (r := Recorder.new none false) rfl
  obtain ⟨-, -, active, placed, apart, -, lost, first, second⟩ :=
    line_feeds_at_switches (Recorder.new none false) (Recorder.new none false) emptySwitch
  have kept : ∀ e ∈ log, e.discarded = false := by
    intro e he
    refine Bool.eq_false_iff.2 fun hd => ?_
    have failed := lost e he hd
    cases hc : e.output.channel with
    | primary => exact first never (hc ▸ failed)
    | secondary => exact second never (hc ▸ failed)
  have last : Sink.Entry.lastChannel log = some .primary := by decide +kernel
  refine ⟨by decide +kernel, active.trans last, fun e he => ?_, apart⟩
  obtain ⟨before, rest, split⟩ := List.append_of_mem he
  exact (placed before e rest split).own (kept e he)

end

end StyledEffects
