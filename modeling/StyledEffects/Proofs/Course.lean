import StyledEffects.Proofs.Schedule

/-! The invariant of runs onto two streams, for any streams and any schedule: each writer
keeps track of its lines of the script, and all parties together have a budget of moves. A
run in which nobody can move has come to its end. -/

namespace StyledEffects

open Json Style Wire Output

namespace IoRun

variable {S σ τ : Type}

theorem sink_dispatch (v : Value) (s : Session σ τ) : (s.dispatch v).2.sink = s.sink := rfl

theorem sink_drive_turn (source : Source S) (d : Drive S (Session σ τ)) :
    (d.turn source Session.dispatch).work.sink = d.work.sink := by
  unfold Drive.turn
  split
  · rfl
  · split
    · rfl
    · rfl
    · rename_i v _ _
      split
      · rename_i h
        rw [← sink_dispatch v d.work, h]
      · rename_i h
        rw [← sink_dispatch v d.work, h]

theorem sink_turn (source : Source S) (r : IoRun S σ τ) :
    (r.turn source).sink = r.sink ∨ (∃ output, (r.turn source).sink = (r.sink.put output).1) ∨
      (r.turn source).sink = r.sink.close := by
  cases hp : r.pending with
  | cons output rest =>
    right; left
    exact ⟨output, by rw [turn_pending source hp]; rfl⟩
  | nil =>
    cases hd : r.drive.result with
    | none =>
      left
      rw [turn_pull source hp hd]
      exact sink_drive_turn source r.drive
    | some result =>
      cases hv : r.verdict with
      | none =>
        right; right
        rw [turn_close source hp hd hv]
        rfl
      | some verdict =>
        left
        simp [turn, hp, hd, hv]

/-- A run that is to end with the verdict after it has sent the script to the writers, within
a budget of moves of all parties. -/
inductive OnCourse (source : Source S) (verdict : Except EffectError Unit)
    (script : List (Channel × String)) (r : IoRun S (Watched σ) (Watched τ)) (budget : Nat) :
    Prop
  | intro {n outputs} (ahead : Ahead source verdict r n outputs)
      (primary : r.sink.primary.Tracks (linesOn .primary (routes r.sink.active outputs))
        (linesOn .primary script))
      (secondary : r.sink.secondary.Tracks (linesOn .secondary (routes r.sink.active outputs))
        (linesOn .secondary script))
      (primaryClosed : r.sink.primary.closed = r.verdict.isSome)
      (secondaryClosed : r.sink.secondary.closed = r.verdict.isSome)
      (within : n + load (routes r.sink.active outputs) + r.sink.work ≤ budget) :
    OnCourse source verdict script r budget

theorem onCourse_new {source : Source S} {state : S} {table : Table} {t : Transcript}
    (ht : source.Plays none state (.new table) t) (primary : σ) (secondary : τ) :
    ∃ budget, OnCourse source t.verdict (routes none t.outputs)
      (new table state (Watched.new primary) (Watched.new secondary)) budget :=
  ⟨_, .intro (ahead_new ht _ _) (Writer.tracks_new _ _ _) (Writer.tracks_new _ _ _) rfl rfl
    (Nat.le_refl _)⟩

theorem OnCourse.put {source : Source S} {verdict : Except EffectError Unit}
    {script : List (Channel × String)} {r r' : IoRun S (Watched σ) (Watched τ)} {n budget : Nat}
    {output : Output} {rest : List Output} (ha : Ahead source verdict r' n rest)
    (hs : r'.sink = (r.sink.put output).1) (hv : r'.verdict = none)
    (hp : r.sink.primary.Tracks (linesOn .primary (routes r.sink.active (output :: rest)))
      (linesOn .primary script))
    (hq : r.sink.secondary.Tracks (linesOn .secondary (routes r.sink.active (output :: rest)))
      (linesOn .secondary script))
    (hpo : r.sink.primary.closed = false) (hqo : r.sink.secondary.closed = false)
    (hb : n + load (routes r.sink.active (output :: rest)) + r.sink.work ≤ budget) :
    OnCourse source verdict script r' budget := by
  have hwork := r.sink.work_put_le output
  rw [routes, linesOn_cons] at hp hq
  refine .intro ha ?_ ?_ ?_ ?_ ?_
  · rw [hs, Sink.put_primary, Sink.put_active]
    split
    · rename_i h
      rw [if_pos h] at hp
      exact hp.send hpo
    · rename_i h
      rwa [if_neg h, List.nil_append] at hp
  · rw [hs, Sink.put_secondary, Sink.put_active]
    split
    · rename_i h
      rw [if_pos h] at hq
      exact hq.send hqo
    · rename_i h
      rwa [if_neg h, List.nil_append] at hq
  · rw [hs, hv, Sink.put_primary]
    split
    · rw [Writer.send_closed, hpo]; rfl
    · exact hpo
  · rw [hs, hv, Sink.put_secondary]
    split
    · rw [Writer.send_closed, hqo]; rfl
    · exact hqo
  · rw [hs, Sink.put_active]
    simp only [routes, load, List.map_cons, Signal.workOfAll_cons] at hb ⊢
    omega

/-- At any time what has been written is a first part of what is to be. -/
theorem OnCourse.primary_prefix {source : Source S} {verdict : Except EffectError Unit}
    {script : List (Channel × String)} {r : IoRun S (Watched σ) (Watched τ)} {budget : Nat}
    (h : OnCourse source verdict script r budget) :
    r.sink.primary.stream.writes <+: linesOn .primary script := by
  obtain ⟨-, hp, -, -, -, -⟩ := h
  exact hp.isPrefix

/-- Once the writers are closed the verdict is the one expected, and a task that has ended in
success has written all of its lines. -/
theorem OnCourse.finished {source : Source S} {verdict v : Except EffectError Unit}
    {script : List (Channel × String)} {r : IoRun S (Watched σ) (Watched τ)} {budget : Nat}
    (h : OnCourse source verdict script r budget) (hv : r.verdict = some v) :
    v = verdict ∧
      (r.sink.primary.stopped? = some (.ok ()) →
        r.sink.primary.stream.writes = linesOn .primary script) ∧
      (r.sink.secondary.stopped? = some (.ok ()) →
        r.sink.secondary.stream.writes = linesOn .secondary script) := by
  obtain ⟨ahead, hp, hq, -, -, -⟩ := h
  obtain ⟨rfl, -, rfl⟩ := ahead.eq_of_verdict hv
  exact ⟨rfl, fun hs => by simpa [routes] using hp.writes_eq hs,
    fun hs => by simpa [routes] using hq.writes_eq hs⟩

variable [OutputStream σ] [OutputStream τ]

inductive Moved (source : Source S) (r : IoRun S σ τ) : IoRun S σ τ → Prop
  | loop (hv : r.verdict = none) : Moved source r (r.turn source)
  | primary {w events} (h : r.sink.primary.step = some (w, events)) :
    Moved source r (r.withSink { r.sink with primary := w })
  | secondary {w events} (h : r.sink.secondary.step = some (w, events)) :
    Moved source r (r.withSink { r.sink with secondary := w })

theorem move_loop {source : Source S} {r r' : IoRun S σ τ} {events : List Log.Event}
    (h : r.move source .loop = some (r', events)) : r.verdict = none ∧ r' = r.turn source := by
  cases hv : r.verdict with
  | none =>
    obtain ⟨rfl, -⟩ : r.turn source = r' ∧ _ := by simpa [move, hv] using h
    exact ⟨rfl, rfl⟩
  | some verdict => simp [move, hv] at h

theorem move_primary {source : Source S} {r r' : IoRun S σ τ} {events : List Log.Event}
    (h : r.move source (.writer .primary) = some (r', events)) :
    ∃ w, r.sink.primary.step = some (w, events) ∧
      r' = r.withSink { r.sink with primary := w } := by
  obtain ⟨⟨w, _⟩, hw, hr⟩ := Option.map_eq_some_iff.1 h
  obtain ⟨rfl, rfl⟩ := Prod.mk.inj hr
  exact ⟨w, hw, rfl⟩

theorem move_secondary {source : Source S} {r r' : IoRun S σ τ} {events : List Log.Event}
    (h : r.move source (.writer .secondary) = some (r', events)) :
    ∃ w, r.sink.secondary.step = some (w, events) ∧
      r' = r.withSink { r.sink with secondary := w } := by
  obtain ⟨⟨w, _⟩, hw, hr⟩ := Option.map_eq_some_iff.1 h
  obtain ⟨rfl, rfl⟩ := Prod.mk.inj hr
  exact ⟨w, hw, rfl⟩

theorem move_writer_cases {source : Source S} {channel : Channel} {r r' : IoRun S σ τ}
    {events : List Log.Event} (h : r.move source (.writer channel) = some (r', events)) :
    ∃ sink, sink.active = r.sink.active ∧ r' = r.withSink sink := by
  cases channel with
  | primary =>
    obtain ⟨w, -, rfl⟩ := move_primary h
    exact ⟨{ r.sink with primary := w }, rfl, rfl⟩
  | secondary =>
    obtain ⟨w, -, rfl⟩ := move_secondary h
    exact ⟨{ r.sink with secondary := w }, rfl, rfl⟩

theorem moved_of_move {source : Source S} {m : Move} {r r' : IoRun S σ τ}
    {events : List Log.Event} (h : r.move source m = some (r', events)) : Moved source r r' := by
  match m with
  | .loop =>
    obtain ⟨hv, rfl⟩ := move_loop h
    exact .loop hv
  | .writer .primary =>
    obtain ⟨w, hw, rfl⟩ := move_primary h
    exact .primary hw
  | .writer .secondary =>
    obtain ⟨w, hw, rfl⟩ := move_secondary h
    exact .secondary hw

theorem after_invariant {source : Source S} {P : IoRun S σ τ → Prop} {moves : List Move}
    {r r' : IoRun S σ τ} (h : r.after source moves = some r') (hr : P r)
    (hmove : ∀ r r', P r → Moved source r r' → P r') : P r' := by
  induction moves generalizing r with
  | nil =>
    obtain rfl : r = r' := by simpa [after] using h
    exact hr
  | cons m rest ih =>
    obtain ⟨⟨r₁, events⟩, hm, hrest⟩ := Option.bind_eq_some_iff.1 h
    exact ih hrest (hmove r r₁ hr (moved_of_move hm))

theorem after_append {source : Source S} (a b : List Move) (r : IoRun S σ τ) :
    r.after source (a ++ b) = (r.after source a).bind (·.after source b) := by
  induction a generalizing r with
  | nil => rfl
  | cons m rest ih => simp [after, ih, Option.bind_assoc]

/-- One of the two streams of a run, for what holds of either. -/
inductive Side (σ τ : Type) [OutputStream σ] [OutputStream τ] :
    (ρ : Type) → [OutputStream ρ] → Type 1
  | primary : Side σ τ σ
  | secondary : Side σ τ τ

namespace Side

variable {ρ : Type} [OutputStream ρ]

def channel : Side σ τ ρ → Channel
  | primary => .primary
  | secondary => .secondary

def writer : Side σ τ ρ → Sink σ τ → Writer ρ
  | primary, s => s.primary
  | secondary, s => s.secondary

def withWriter : Side σ τ ρ → Writer ρ → Sink σ τ → Sink σ τ
  | primary, w, s => { s with primary := w }
  | secondary, w, s => { s with secondary := w }

theorem writer_withSink (side : Side σ τ ρ) (w : Writer ρ) (r : IoRun S σ τ) :
    side.writer (r.withSink (side.withWriter w r.sink)).sink = w := by
  cases side <;> rfl

theorem writer_send (side : Side σ τ ρ) (s : Sink σ τ) (active : Option Channel)
    (target : Channel) (text : String) :
    side.writer (({ s with active } : Sink σ τ).send target text).1 =
      if target = side.channel then ((side.writer s).send text).1 else side.writer s := by
  cases side with
  | primary => exact Sink.send_primary target text _
  | secondary => exact Sink.send_secondary target text _

theorem writer_close (side : Side σ τ ρ) (s : Sink σ τ) :
    side.writer s.close = (side.writer s).close := by
  cases side with
  | primary => exact s.close_primary
  | secondary => exact s.close_secondary

theorem move_writer (side : Side σ τ ρ) (source : Source S) (r : IoRun S σ τ) :
    r.move source (.writer side.channel) =
      (side.writer r.sink).step.map fun (w, events) =>
        (r.withSink (side.withWriter w r.sink), events) := by
  cases side <;> rfl

theorem writer_of_other_move (side : Side σ τ ρ) {source : Source S} {target : Channel}
    {r r' : IoRun S σ τ} {events : List Log.Event} (h : target ≠ side.channel)
    (hm : r.move source (.writer target) = some (r', events)) :
    side.writer r'.sink = side.writer r.sink ∧ r'.verdict = r.verdict := by
  cases side with
  | primary =>
    cases target with
    | primary => exact absurd rfl h
    | secondary =>
      obtain ⟨w, -, rfl⟩ := move_secondary hm
      exact ⟨rfl, rfl⟩
  | secondary =>
    cases target with
    | primary =>
      obtain ⟨w, -, rfl⟩ := move_primary hm
      exact ⟨rfl, rfl⟩
    | secondary => exact absurd rfl h

end Side

theorem Moved.writer {ρ : Type} [OutputStream ρ] (side : Side σ τ ρ) {source : Source S}
    {r r' : IoRun S σ τ} (h : Moved source r r') :
    (∃ text, side.writer r'.sink = ((side.writer r.sink).send text).1) ∨
      side.writer r'.sink = (side.writer r.sink).close ∨
      side.writer r'.sink = side.writer r.sink ∨
      ∃ events, (side.writer r.sink).Turn (side.writer r'.sink) events := by
  cases h with
  | loop hv =>
    rcases sink_turn source r with hs | ⟨output, hs⟩ | hs
    · exact .inr (.inr (.inl (congrArg _ hs)))
    · rw [hs, Sink.put_eq_send, side.writer_send]
      split
      · exact .inl ⟨_, rfl⟩
      · exact .inr (.inr (.inl rfl))
    · rw [hs, side.writer_close]
      exact .inr (.inl rfl)
  | primary hw =>
    cases side with
    | primary => exact .inr (.inr (.inr ⟨_, Writer.turn_of_step hw⟩))
    | secondary => exact .inr (.inr (.inl rfl))
  | secondary hw =>
    cases side with
    | primary => exact .inr (.inr (.inl rfl))
    | secondary => exact .inr (.inr (.inr ⟨_, Writer.turn_of_step hw⟩))

/-- A stream that never fails is still so after any moves, whatever the other one does. -/
theorem steady_after {ρ : Type} [OutputStream ρ] (side : Side σ τ ρ) {source : Source S}
    {moves : List Move} {r r' : IoRun S σ τ} (hr : r.after source moves = some r')
    (h : (side.writer r.sink).Steady) : (side.writer r'.sink).Steady := by
  apply after_invariant hr (P := fun r => (side.writer r.sink).Steady) h
  intro r r' h hm
  rcases hm.writer side with ⟨text, hw⟩ | hw | hw | ⟨events, turn⟩
  · rw [hw]
    exact h.send text
  · rw [hw]
    exact h.close
  · rw [hw]
    exact h
  · exact h.turn turn

/-- Every move leaves a smaller budget. -/
theorem OnCourse.moved {source : Source S} {verdict : Except EffectError Unit}
    {script : List (Channel × String)} {r r' : IoRun S (Watched σ) (Watched τ)} {budget : Nat}
    (h : OnCourse source verdict script r budget) (hm : Moved source r r') :
    ∃ b < budget, OnCourse source verdict script r' b := by
  obtain @⟨n, outputs, ahead, hp, hq, hpc, hqc, hb⟩ := h
  cases hm with
  | loop hv =>
    obtain ⟨m, rfl, turn⟩ := ahead.turn hv
    rw [hv] at hpc hqc
    refine ⟨budget - 1, by omega, ?_⟩
    cases turn with
    | put ha hs hv' => exact .put ha hs hv' hp hq hpc hqc (by omega)
    | pull ha hs hv' =>
      rw [← hs] at hp hq hpc hqc hb
      exact .intro ha hp hq (by rw [hpc, hv']) (by rw [hqc, hv']) (by omega)
    | close ha hs hv' =>
      refine .intro ha ?_ ?_ ?_ ?_ ?_
      · rw [hs, Sink.close_primary]; exact hp.close
      · rw [hs, Sink.close_secondary]; exact hq.close
      · rw [hs, hv', Sink.close_primary]; rfl
      · rw [hs, hv', Sink.close_secondary]; rfl
      · rw [hs, Sink.work_close]
        simp only [routes, load, List.map_nil, Signal.workOfAll_nil] at hb ⊢
        omega
  | @primary w _ hw =>
    have hlt := Writer.work_lt_of_step hw
    have turn := Writer.turn_of_step hw
    rw [Sink.work] at hb
    have hb' : n + load (routes r.sink.active outputs) + (w.work + r.sink.secondary.work) ≤
      budget - 1 := by omega
    exact ⟨budget - 1, by omega,
      .intro (ahead.withSink _) (hp.turn turn) hq (turn.closed.trans hpc) hqc hb'⟩
  | @secondary w _ hw =>
    have hlt := Writer.work_lt_of_step hw
    have turn := Writer.turn_of_step hw
    rw [Sink.work] at hb
    have hb' : n + load (routes r.sink.active outputs) + (r.sink.primary.work + w.work) ≤
      budget - 1 := by omega
    exact ⟨budget - 1, by omega,
      .intro (ahead.withSink _) hp (hq.turn turn) hpc (turn.closed.trans hqc) hb'⟩

theorem OnCourse.after {source : Source S} {verdict : Except EffectError Unit}
    {script : List (Channel × String)} {moves : List Move}
    {r r' : IoRun S (Watched σ) (Watched τ)} {budget : Nat}
    (h : OnCourse source verdict script r budget) (hr : r.after source moves = some r') :
    ∃ b, moves.length + b ≤ budget ∧ OnCourse source verdict script r' b := by
  induction moves generalizing r budget with
  | nil =>
    obtain rfl : r = r' := by simpa [IoRun.after] using hr
    exact ⟨budget, by simp, h⟩
  | cons m rest ih =>
    obtain ⟨⟨r₁, events⟩, hm, hrest⟩ := Option.bind_eq_some_iff.1 hr
    obtain ⟨b, hb, h₁⟩ := h.moved (moved_of_move hm)
    obtain ⟨b', hb', h'⟩ := ih h₁ hrest
    exact ⟨b', by simp only [List.length_cons]; omega, h'⟩

/-- Where nobody can move the loop has its verdict, all its outputs have been put and both
tasks have stopped. -/
theorem OnCourse.stuck {source : Source S} {verdict : Except EffectError Unit}
    {script : List (Channel × String)} {r : IoRun S (Watched σ) (Watched τ)} {budget : Nat}
    (h : OnCourse source verdict script r budget) (hm : ∀ m, r.move source m = none) :
    r.verdict.isSome ∧ r.sink.primary.stopped?.isSome ∧ r.sink.secondary.stopped?.isSome := by
  obtain ⟨-, -, -, hpc, hqc, -⟩ := h
  have hv : r.verdict.isSome := by
    have := hm .loop
    cases hv : r.verdict with
    | none => simp [move, hv] at this
    | some verdict => rfl
  rw [hv] at hpc hqc
  refine ⟨hv, ?_, ?_⟩
  · exact Writer.stopped_of_step_eq_none hpc (by simpa [move] using hm (.writer .primary))
  · exact Writer.stopped_of_step_eq_none hqc (by simpa [move] using hm (.writer .secondary))

end IoRun

end StyledEffects
