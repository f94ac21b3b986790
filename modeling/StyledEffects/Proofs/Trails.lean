import StyledEffects.Proofs.Switching

/-! Logs along a run. A run onto two streams does nothing to its sink that cannot be done to a sink
by itself, and a sink does nothing to its two writers that cannot be done to a writer by itself. The
warnings about a writer are the same on all three logs. -/

namespace StyledEffects

open Wire Output

namespace Log

/-! ## Warnings -/

def Event.warned? : Event → Option String
  | .writeFailed writer _ | .discarding writer => some writer
  | _ => none

theorem Event.level_eq_warn_iff (e : Event) : e.level = .warn ↔ e.warned?.isSome := by
  cases e <;> simp [level, warned?]

def about (writer : String) (events : List Event) : List Event :=
  events.filter fun e => e.warned? = some writer

theorem about_append (writer : String) (a b : List Event) :
    about writer (a ++ b) = about writer a ++ about writer b :=
  List.filter_append a b

theorem about_eq_nil {writer : String} {events : List Event}
    (h : ∀ e ∈ events, e.warned? ≠ some writer) : about writer events = [] :=
  List.filter_eq_nil_iff.2 fun e he => by simpa using h e he

/-! ## Trails -/

section Trail

variable {α β S T : Type}

/-- The steps of something that logs, one after the other, and all that is logged by them; none if
one of them cannot be taken. -/
def trail (step : α → S → Option (S × List Event)) : List α → S → Option (S × List Event)
  | [], s => some (s, [])
  | a :: rest, s => (step a s).bind fun (s, events) =>
    (trail step rest s).map fun (s, later) => (s, events ++ later)

variable {step : α → S → Option (S × List Event)} {step' : β → T → Option (T × List Event)}

theorem trail_cons {a : α} {rest : List α} {s s' : S} {log : List Event}
    (h : trail step (a :: rest) s = some (s', log)) :
    ∃ next events later, step a s = some (next, events) ∧
      trail step rest next = some (s', later) ∧ log = events ++ later := by
  obtain ⟨⟨next, events⟩, ha, hrest⟩ := Option.bind_eq_some_iff.1 h
  obtain ⟨⟨_, later⟩, hr, he⟩ := Option.map_eq_some_iff.1 hrest
  obtain ⟨rfl, rfl⟩ := Prod.mk.inj he
  exact ⟨next, events, later, ha, hr, rfl⟩

theorem trail_append {as bs : List α} {s s' s'' : S} {log later : List Event}
    (ha : trail step as s = some (s', log)) (hb : trail step bs s' = some (s'', later)) :
    trail step (as ++ bs) s = some (s'', log ++ later) := by
  induction as generalizing s log with
  | nil =>
    obtain ⟨rfl, rfl⟩ : s = s' ∧ [] = log := by simpa [trail] using ha
    exact hb
  | cons a rest ih =>
    obtain ⟨next, events, rest', hstep, hr, rfl⟩ := trail_cons ha
    simp [trail, hstep, ih hr]

/-- What every step keeps, of the steps up to then, of the state and of the log, holds after any. -/
theorem trail_invariant {P : List α → S → List Event → Prop} {before as : List α} {s s' : S}
    {noted log : List Event} (h : trail step as s = some (s', log)) (hs : P before s noted)
    (hstep : ∀ before a s s' noted events, P before s noted → step a s = some (s', events) →
      P (before ++ [a]) s' (noted ++ events)) : P (before ++ as) s' (noted ++ log) := by
  induction as generalizing before s noted log with
  | nil =>
    obtain ⟨rfl, rfl⟩ : s = s' ∧ [] = log := by simpa [trail] using h
    simpa using hs
  | cons a rest ih =>
    obtain ⟨next, events, later, ha, hr, rfl⟩ := trail_cons h
    have := ih hr (hstep before a s next noted events hs ha)
    rwa [List.append_assoc, List.append_assoc] at this

/-- Steps can lead from one state to another with these warnings about a writer. -/
def Leads (step : α → S → Option (S × List Event)) (writer : String) (s s' : S)
    (warnings : List Event) : Prop :=
  ∃ as log, trail step as s = some (s', log) ∧ about writer log = warnings

variable {writer : String}

theorem leads_self (s : S) : Leads step writer s s [] := ⟨[], [], rfl, rfl⟩

theorem leads_of_step {a : α} {s s' : S} {log : List Event} (h : step a s = some (s', log)) :
    Leads step writer s s' (about writer log) :=
  ⟨[a], log, by simp [trail, h], rfl⟩

theorem Leads.trans {s s' s'' : S} {warnings later : List Event}
    (h : Leads step writer s s' warnings) (h' : Leads step writer s' s'' later) :
    Leads step writer s s'' (warnings ++ later) := by
  obtain ⟨as, log, ht, rfl⟩ := h
  obtain ⟨bs, log', ht', rfl⟩ := h'
  exact ⟨as ++ bs, log ++ log', trail_append ht ht', about_append writer log log'⟩

/-- If a part of something can do by itself whatever each step does to it, with the same warnings
about a writer, then it can do by itself what any steps do to it. -/
theorem leads_of_trail (view : S → T) {P : S → Prop} {as : List α} {s s' : S} {log : List Event}
    (h : trail step as s = some (s', log)) (hs : P s)
    (hstep : ∀ a s s' events, P s → step a s = some (s', events) →
      P s' ∧ Leads step' writer (view s) (view s') (about writer events)) :
    P s' ∧ Leads step' writer (view s) (view s') (about writer log) := by
  induction as generalizing s log with
  | nil =>
    obtain ⟨rfl, rfl⟩ : s = s' ∧ [] = log := by simpa [trail] using h
    exact ⟨hs, leads_self _⟩
  | cons a rest ih =>
    obtain ⟨next, events, later, ha, hr, rfl⟩ := trail_cons h
    obtain ⟨hnext, leads⟩ := hstep a s next events hs ha
    obtain ⟨hlast, rest⟩ := ih hr hnext
    rw [about_append]
    exact ⟨hlast, leads.trans rest⟩

end Trail

end Log

/-! ## A sink and its writers -/

theorem Wire.Channel.name_injective : Function.Injective Channel.name := by
  intro a b h
  cases a <;> cases b <;> first | rfl | exact absurd h (by decide)

namespace Writer

variable {σ : Type} [OutputStream σ]

theorem Turn.about_eq_nil {w w' : Writer σ} {events : List Log.Event} (h : Turn w w' events)
    {writer : String} (hn : w.label ≠ writer) : Log.about writer events = [] := by
  refine Log.about_eq_nil fun e he => ?_
  cases h <;> simp_all [Log.Event.warned?]

theorem leads_send {w : Writer σ} (ho : w.closed = false) (text : String) :
    Log.Leads use w.label w (w.send text).1 (w.send text).2 := by
  have own : w.use (.send text) = some ((w.send text).1, (w.send text).2) := by simp [use, ho]
  have about : Log.about w.label (w.send text).2 = (w.send text).2 := by
    rw [send_events]
    split <;> simp [Log.about, Log.Event.warned?]
  rw [← about]
  exact Log.leads_of_step own

theorem leads_close {w : Writer σ} (ho : w.closed = false) (name : String) :
    Log.Leads use name w w.close [] := by
  have own : w.use .shutdown = some (w.close, []) := by simp [use, ho]
  exact Log.leads_of_step own

theorem leads_turn {w w' : Writer σ} {events : List Log.Event} (h : w.step = some (w', events))
    (name : String) : Log.Leads use name w w' (Log.about name events) := by
  have own : w.use .turn = some (w', events) := h
  exact Log.leads_of_step own

end Writer

namespace Sink

variable {σ τ : Type}

inductive Use where
  | put (output : Output)
  | shutdown
  | turn (channel : Channel)
  deriving DecidableEq, Repr

def Named (s : Sink σ τ) : Prop := ∀ channel, s.label channel = channel.name

theorem named_new (primary : σ) (secondary : τ) : (new primary secondary).Named := by
  intro channel
  cases channel <;> rfl

variable [OutputStream σ] [OutputStream τ]

def use (u : Use) (s : Sink σ τ) : Option (Sink σ τ × List Log.Event) :=
  match u with
  | .put output =>
    if s.primary.closed || s.secondary.closed then none else some (s.put output)
  | .shutdown =>
    if s.primary.closed || s.secondary.closed then none else some (s.close, [])
  | .turn .primary => s.primary.step.map fun (primary, events) => ({ s with primary }, events)
  | .turn .secondary =>
    s.secondary.step.map fun (secondary, events) => ({ s with secondary }, events)

inductive Used (s : Sink σ τ) : Use → Sink σ τ → List Log.Event → Prop
  | put (output : Output) (hp : s.primary.closed = false) (hs : s.secondary.closed = false) :
    Used s (.put output) (s.put output).1 (s.put output).2
  | shutdown (hp : s.primary.closed = false) (hs : s.secondary.closed = false) :
    Used s .shutdown s.close []
  | primary {w events} (h : s.primary.step = some (w, events)) :
    Used s (.turn .primary) { s with primary := w } events
  | secondary {w events} (h : s.secondary.step = some (w, events)) :
    Used s (.turn .secondary) { s with secondary := w } events

theorem used_of_use {u : Use} {s s' : Sink σ τ} {events : List Log.Event}
    (h : s.use u = some (s', events)) : Used s u s' events := by
  match u with
  | .put output =>
    cases hp : s.primary.closed <;> cases hs : s.secondary.closed <;> simp [use, hp, hs] at h
    obtain ⟨rfl, rfl⟩ := Prod.mk.inj h
    exact .put output hp hs
  | .shutdown =>
    cases hp : s.primary.closed <;> cases hs : s.secondary.closed <;> simp [use, hp, hs] at h
    obtain ⟨rfl, rfl⟩ := h
    exact .shutdown hp hs
  | .turn .primary =>
    obtain ⟨⟨w, own⟩, hw, he⟩ := Option.map_eq_some_iff.1 h
    obtain ⟨rfl, rfl⟩ := Prod.mk.inj he
    exact .primary hw
  | .turn .secondary =>
    obtain ⟨⟨w, own⟩, hw, he⟩ := Option.map_eq_some_iff.1 h
    obtain ⟨rfl, rfl⟩ := Prod.mk.inj he
    exact .secondary hw

theorem Used.label {u : Use} {s s' : Sink σ τ} {events : List Log.Event} (h : Used s u s' events)
    (channel : Channel) : s'.label channel = s.label channel := by
  have sent {ρ : Type} (here : Prop) [Decidable here] (text : String) (w : Writer ρ) :
      (if here then (w.send text).1 else w).label = w.label := by
    split
    · exact Writer.label_send text w
    · rfl
  cases h with
  | put output hp hs =>
    cases channel with
    | primary => simp only [Sink.label, put_primary, sent]
    | secondary => simp only [Sink.label, put_secondary, sent]
  | shutdown hp hs => cases channel <;> simp [Sink.label, Writer.close]
  | primary h =>
    cases channel with
    | primary => exact (Writer.turn_of_step h).label
    | secondary => rfl
  | secondary h =>
    cases channel with
    | primary => rfl
    | secondary => exact (Writer.turn_of_step h).label

theorem Named.used {u : Use} {s s' : Sink σ τ} {events : List Log.Event} (h : s.Named)
    (hu : Used s u s' events) : s'.Named :=
  fun channel => (hu.label channel).trans (h channel)

end Sink

namespace IoRun.Side

variable {σ τ ρ : Type} [OutputStream σ] [OutputStream τ] [OutputStream ρ]

theorem label_writer (side : Side σ τ ρ) {s : Sink σ τ} (h : s.Named) :
    (side.writer s).label = side.channel.name := by
  cases side with
  | primary => exact h .primary
  | secondary => exact h .secondary

theorem stopped_writer (side : Side σ τ ρ) (s : Sink σ τ) :
    s.stopped side.channel = (side.writer s).stopped?.isSome := by
  cases side <;> rfl

theorem closed_writer (side : Side σ τ ρ) {s : Sink σ τ} (hp : s.primary.closed = false)
    (hs : s.secondary.closed = false) : (side.writer s).closed = false := by
  cases side with
  | primary => exact hp
  | secondary => exact hs

theorem about_send (side : Side σ τ ρ) (channel : Channel) (text : String) {s : Sink σ τ}
    (h : s.Named) : Log.about side.channel.name (s.send channel text).2 =
      if channel = side.channel then ((side.writer s).send text).2 else [] := by
  rw [Sink.send_events, h]
  by_cases target : channel = side.channel
  · subst target
    simp only [if_true, Writer.send_events, side.label_writer h, ← side.stopped_writer]
    split <;> simp [Log.about, Log.Event.warned?]
  · rw [if_neg target]
    refine Log.about_eq_nil fun e he => ?_
    split at he
    · obtain rfl := List.mem_singleton.1 he
      exact fun same => target (Channel.name_injective (Option.some.inj same))
    · cases he

theorem about_put (side : Side σ τ ρ) (output : Output) {s : Sink σ τ} (h : s.Named) :
    Log.about side.channel.name (s.put output).2 =
      if (output.route s.active).1 = side.channel then
        ((side.writer s).send (output.route s.active).2).2
      else [] := by
  have quiet : Log.about side.channel.name (Sink.switch s.active output) = [] := by
    unfold Sink.switch
    split <;> rfl
  have named : ({ s with active := output.lastAfter s.active } : Sink σ τ).Named := by
    intro channel
    cases channel with
    | primary => exact h .primary
    | secondary => exact h .secondary
  rw [Sink.put_events, Log.about_append, quiet, List.nil_append, side.about_send _ _ named]
  cases side <;> rfl

/-- What a use of a sink does to one of its writers can be done to that writer alone, with the same
warnings about it. -/
theorem leads_of_use (side : Side σ τ ρ) {u : Sink.Use} {s s' : Sink σ τ}
    {events : List Log.Event} (h : s.Named) (hu : s.use u = some (s', events)) :
    s'.Named ∧ Log.Leads Writer.use side.channel.name (side.writer s) (side.writer s')
      (Log.about side.channel.name events) := by
  have used := Sink.used_of_use hu
  refine ⟨h.used used, ?_⟩
  -- a task has nothing to say about the writer of the other one
  have other {ρ' : Type} [OutputStream ρ'] (side' : Side σ τ ρ') {w : Writer ρ'}
      (ht : (side'.writer s).step = some (w, events)) (hne : side'.channel ≠ side.channel) :
      Log.about side.channel.name events = [] := by
    refine (Writer.turn_of_step ht).about_eq_nil fun same => hne (Channel.name_injective ?_)
    rw [← same, side'.label_writer h]
  cases used with
  | put output hp hs =>
    rw [side.about_put output h, Sink.put_eq_send, side.writer_send]
    by_cases target : (output.route s.active).1 = side.channel
    · rw [if_pos target, if_pos target, ← side.label_writer h]
      exact Writer.leads_send (side.closed_writer hp hs) _
    · rw [if_neg target, if_neg target]
      exact Log.leads_self _
  | shutdown hp hs =>
    rw [side.writer_close]
    exact Writer.leads_close (side.closed_writer hp hs) _
  | primary ht =>
    cases side with
    | primary => exact Writer.leads_turn ht _
    | secondary =>
      rw [other .primary ht (by simp [channel])]
      exact Log.leads_self _
  | secondary ht =>
    cases side with
    | primary =>
      rw [other .secondary ht (by simp [channel])]
      exact Log.leads_self _
    | secondary => exact Writer.leads_turn ht _

end IoRun.Side

/-! ## A run and its sink -/

namespace IoRun

variable {S σ τ ρ : Type}

/-- A run as it always is: the writers go by the names of their channels, and they are closed when
the verdict is there. -/
structure Regular (r : IoRun S σ τ) : Prop where
  named : r.sink.Named
  primary : r.sink.primary.closed = r.verdict.isSome
  secondary : r.sink.secondary.closed = r.verdict.isSome

theorem regular_new (table : Style.Table) (state : S) (primary : σ) (secondary : τ) :
    (new table state primary secondary).Regular :=
  ⟨Sink.named_new primary secondary, rfl, rfl⟩

theorem about_notices (source : Source S) {r : IoRun S σ τ} (hp : r.pending = []) (name : String) :
    Log.about name (r.notices source) = [] := by
  refine Log.about_eq_nil fun e he => ?_
  unfold notices Core.notices at he
  rw [hp] at he
  cases hd : r.drive.result with
  | some result =>
    cases result <;> simp_all [Log.Event.warned?]
  | none =>
    rw [hd] at he
    dsimp only at he
    split at he
    · split at he <;> simp_all [Log.Event.warned?]
    · cases he

variable [OutputStream σ] [OutputStream τ] [OutputStream ρ]

theorem closed_put (side : Side σ τ ρ) (output : Output) (s : Sink σ τ) :
    (side.writer (s.put output).1).closed = (side.writer s).closed := by
  rw [Sink.put_eq_send, side.writer_send]
  split
  · exact Writer.send_closed _ _
  · rfl

/-- What a move does to a writer can be done to that writer alone, with the same warnings. -/
theorem leads_of_move (side : Side σ τ ρ) {source : Source S} {m : Move} {r r' : IoRun S σ τ}
    {events : List Log.Event} (h : r.Regular) (hm : r.move source m = some (r', events)) :
    r'.Regular ∧ Log.Leads Writer.use side.channel.name (side.writer r.sink)
      (side.writer r'.sink) (Log.about side.channel.name events) := by
  -- the sink is used, and what is logged has the warnings of that use
  have used {u : Sink.Use} {s' : Sink σ τ} {noted : List Log.Event}
      (hu : r.sink.use u = some (s', noted)) : s'.Named ∧
        Log.Leads Writer.use side.channel.name (side.writer r.sink) (side.writer s')
          (Log.about side.channel.name noted) := side.leads_of_use h.named hu
  match m with
  | .loop =>
    have hv : r.verdict = none := (move_loop hm).1
    obtain ⟨rfl, rfl⟩ : r.turn source = r' ∧ r.notices source = events := by
      simpa [move, hv] using hm
    have hp := h.primary
    have hs := h.secondary
    rw [hv] at hp hs
    cases hq : r.pending with
    | cons output rest =>
      have hu : r.sink.use (.put output) = some (r.sink.put output) := by simp [Sink.use, hp, hs]
      obtain ⟨named, leads⟩ := used hu
      have notices : r.notices source = (r.sink.put output).2 := by simp [notices, hq]
      rw [turn_pending source hq, notices]
      refine ⟨⟨named, ?_, ?_⟩, leads⟩
      · exact (closed_put .primary output r.sink).trans h.primary
      · exact (closed_put .secondary output r.sink).trans h.secondary
    | nil =>
      rw [about_notices source hq]
      cases hd : r.drive.result with
      | none =>
        have same : (r.turn source).sink = r.sink := by
          rw [turn_pull source hq hd]
          exact sink_drive_turn source r.drive
        have kept : (r.turn source).verdict = r.verdict := by rw [turn_pull source hq hd]
        exact ⟨⟨same ▸ h.named, by rw [same, kept, h.primary], by rw [same, kept, h.secondary]⟩,
          by rw [same]; exact Log.leads_self _⟩
      | some result =>
        have hu : r.sink.use .shutdown = some (r.sink.close, []) := by simp [Sink.use, hp, hs]
        obtain ⟨named, leads⟩ := used hu
        rw [turn_close source hq hd hv]
        exact ⟨⟨named, congrArg Writer.closed r.sink.close_primary,
          congrArg Writer.closed r.sink.close_secondary⟩, leads⟩
  | .writer .primary =>
    obtain ⟨⟨w, noted⟩, hw, he⟩ := Option.map_eq_some_iff.1 hm
    obtain ⟨rfl, rfl⟩ := Prod.mk.inj he
    have hu : r.sink.use (.turn .primary) = some ({ r.sink with primary := w }, noted) := by
      simp [Sink.use, hw]
    obtain ⟨named, leads⟩ := used hu
    exact ⟨⟨named, (Writer.turn_of_step hw).closed.trans h.primary, h.secondary⟩, leads⟩
  | .writer .secondary =>
    obtain ⟨⟨w, noted⟩, hw, he⟩ := Option.map_eq_some_iff.1 hm
    obtain ⟨rfl, rfl⟩ := Prod.mk.inj he
    have hu : r.sink.use (.turn .secondary) = some ({ r.sink with secondary := w }, noted) := by
      simp [Sink.use, hw]
    obtain ⟨named, leads⟩ := used hu
    exact ⟨⟨named, h.primary, (Writer.turn_of_step hw).closed.trans h.secondary⟩, leads⟩

end IoRun

end StyledEffects
