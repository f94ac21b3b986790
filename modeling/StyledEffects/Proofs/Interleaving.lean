import StyledEffects.Proofs.Sent

/-! The order in which a run writes to its two streams. The tasks of the writers owe nothing to
each other: once all has been queued each can make its next write at any time. So every order
that keeps the lines of each stream in order comes about, and no other one does. -/

namespace StyledEffects

open Json Style Wire Output

namespace Writer

variable {σ : Type}

/-- The line that the task writes with its next turn, if it does. -/
def writing? (w : Writer σ) : Option String :=
  match w.phase with
  | .writing (line :: _) => some line
  | _ => none

theorem send_stream (text : String) (w : Writer σ) : (w.send text).1.stream = w.stream := by
  unfold send
  split
  · rfl
  · split <;> rfl

variable [OutputStream σ]

theorem Turn.writes {w w' : Writer (Watched σ)} {events : List Log.Event}
    (h : Turn w w' events) : w'.stream.writes = w.stream.writes ++ w.writing?.toList := by
  cases h with
  | endText hp => simp [writing?, hp]
  | flush hp => simp [writing?, hp]
  | _ => simp_all [writing?]

theorem Turn.owed_eq {w w' : Writer σ} {events : List Log.Event} (h : Turn w w' events)
    (hf : ¬ w'.Failed) : w.owed = w.writing?.toList ++ w'.owed := by
  cases h with
  | takeText hp hq => simp [owed, writing?, hp, hq, Phase.rest, Signal.lines]
  | takeFlush hp hq => simp [owed, writing?, hp, hq, Phase.rest, Signal.lines]
  | takeEnd hp hq hc => simp [owed, writing?, hp, hq, Phase.rest]
  | endText hp => rw [owed, owed, rest_afterText, writing?, hp]; rfl
  | line hp hm => simp [owed, writing?, hp, Phase.rest]
  | fullLine hp hm => simp [owed, writing?, hp, Phase.rest]
  | drained hp hd => simp [owed, writing?, hp, Phase.rest]
  | broken hp hd => exact absurd ⟨_, rfl⟩ hf
  | flush hp => rw [owed, owed, flushed_rest, writing?, hp]; simp [Phase.rest]

/-- A task with a closed queue that cannot fail and has these lines still to write. -/
structure Owes (w : Writer σ) (lines : List String) : Prop where
  steady : w.Steady
  closed : w.closed = true
  last : w.phase = .flushing .last ∨ w.stopped? = some (.ok ()) →
    w.closed = true ∧ w.queue = []
  owed : w.owed = lines

theorem Owes.turn {w w' : Writer σ} {events : List Log.Event} {lines : List String}
    (h : w.Owes lines) (ht : Turn w w' events) :
    ∃ rest, lines = w.writing?.toList ++ rest ∧ w'.Owes rest := by
  have steady := h.steady.turn ht
  refine ⟨w'.owed, ?_, steady, ht.closed.trans h.closed, last_of_turn ht h.last, rfl⟩
  rw [← h.owed]
  exact ht.owed_eq steady.unfailed

theorem Owes.exists_turn {w : Writer σ} {line : String} {rest : List String}
    (h : w.Owes (line :: rest)) : ∃ w' events, w.step = some (w', events) := by
  cases hs : w.step with
  | some next => exact ⟨next.1, next.2, rfl⟩
  | none =>
    have stopped := h.steady.stopped (stopped_of_step_eq_none h.closed hs)
    have owed := h.owed
    rw [owed_of_stopped stopped (h.last (Or.inr stopped)).2] at owed
    cases owed

def advance : Nat → Writer σ → Option (Writer σ × List String)
  | 0, w => some (w, [])
  | turns + 1, w => w.step.bind fun (next, _) =>
    (advance turns next).map fun (last, lines) => (last, w.writing?.toList ++ lines)

theorem Owes.exists_write {w : Writer σ} {line : String} {rest : List String}
    (h : w.Owes (line :: rest)) :
    ∃ turns w', w.advance turns = some (w', [line]) ∧ w'.Owes rest := by
  induction hn : w.work using Nat.strongRecOn generalizing w with
  | ind n ih =>
    obtain ⟨next, events, hs⟩ := h.exists_turn
    obtain ⟨more, he, hnext⟩ := h.turn (turn_of_step hs)
    cases hw : w.writing? with
    | some l =>
      obtain ⟨rfl, rfl⟩ : line = l ∧ rest = more := by simpa [hw] using he
      exact ⟨1, next, by simp [advance, hs, hw], hnext⟩
    | none =>
      obtain rfl : line :: rest = more := by simpa [hw] using he
      obtain ⟨turns, w', ha, hw'⟩ := ih next.work (hn ▸ work_lt_of_step hs) hnext rfl
      exact ⟨turns + 1, w', by simp [advance, hs, ha, hw], hw'⟩

end Writer

/-- The lines that go to a channel, of those that go to either. -/
def Output.along (channel : Channel) (lines : List (Channel × String)) : List String :=
  (lines.filter (·.1 = channel)).map (·.2)

@[simp] theorem Output.along_nil (channel : Channel) : along channel [] = [] := rfl

@[simp] theorem Output.along_append (channel : Channel) (a b : List (Channel × String)) :
    along channel (a ++ b) = along channel a ++ along channel b := by
  simp [along]

theorem Output.along_map (channel other : Channel) (lines : List String) :
    along channel (lines.map (Prod.mk other)) = if other = channel then lines else [] := by
  by_cases h : other = channel <;> induction lines <;> simp_all [along]

theorem Output.eq_nil_of_along {lines : List (Channel × String)}
    (h : ∀ channel, along channel lines = []) : lines = [] := by
  cases lines with
  | nil => rfl
  | cons line rest => simpa [along] using h line.1

namespace IoRun

variable {S σ τ : Type} {source : Source S}

def writing (r : IoRun S σ τ) : Move → List (Channel × String)
  | .loop => []
  | .writer .primary => r.sink.primary.writing?.toList.map (Prod.mk .primary)
  | .writer .secondary => r.sink.secondary.writing?.toList.map (Prod.mk .secondary)

theorem stream_turn (source : Source S) (r : IoRun S σ τ) :
    (r.turn source).sink.primary.stream = r.sink.primary.stream ∧
      (r.turn source).sink.secondary.stream = r.sink.secondary.stream := by
  rcases sink_turn source r with hs | ⟨output, hs⟩ | hs
  · rw [hs]
    exact ⟨rfl, rfl⟩
  · rw [hs, Sink.put_primary, Sink.put_secondary]
    constructor <;> split <;> simp only [Writer.send_stream]
  · rw [hs, Sink.close_primary, Sink.close_secondary]
    exact ⟨rfl, rfl⟩

def written (channel : Channel) (r : IoRun S (Watched σ) (Watched τ)) : List String :=
  match channel with
  | .primary => r.sink.primary.stream.writes
  | .secondary => r.sink.secondary.stream.writes

variable [OutputStream σ] [OutputStream τ]

/-- The writes to both streams along some moves, in the order in which they are made. -/
def writes (source : Source S) (moves : List Move) (r : IoRun S σ τ) : List (Channel × String) :=
  gather source writing moves r

theorem along_writes {table : Table} {state : S} {primary : σ} {secondary : τ}
    {moves : List Move} {r : IoRun S (Watched σ) (Watched τ)}
    (hr : (new table state (Watched.new primary) (Watched.new secondary)).after source moves =
      some r) (channel : Channel) :
    along channel ((new table state (Watched.new primary) (Watched.new secondary)).writes source
      moves) = r.written channel := by
  apply gather_invariant writing (P := fun before r => along channel before = r.written channel)
    hr []
  · cases channel <;> rfl
  rintro before r m r' events h hm
  rw [along_append, h]
  match m with
  | .loop =>
    obtain ⟨-, rfl⟩ := move_loop hm
    obtain ⟨h₁, h₂⟩ := stream_turn source r
    cases channel <;> simp [writing, written, h₁, h₂]
  | .writer .primary =>
    obtain ⟨w, hw, rfl⟩ := move_primary hm
    rw [writing, along_map]
    cases channel with
    | primary => exact (Writer.turn_of_step hw).writes.symm
    | secondary => exact List.append_nil _
  | .writer .secondary =>
    obtain ⟨w, hw, rfl⟩ := move_secondary hm
    rw [writing, along_map]
    cases channel with
    | primary => exact List.append_nil _
    | secondary => exact (Writer.turn_of_step hw).writes.symm

theorem writing_writer {ρ : Type} [OutputStream ρ] (side : Side σ τ ρ) (r : IoRun S σ τ) :
    r.writing (.writer side.channel) =
      (side.writer r.sink).writing?.toList.map (Prod.mk side.channel) := by
  cases side <;> rfl

theorem after_advance {ρ : Type} [OutputStream ρ] (side : Side σ τ ρ) (source : Source S)
    {r : IoRun S σ τ} {turns : Nat} {w : Writer ρ} {lines : List String}
    (h : (side.writer r.sink).advance turns = some (w, lines)) :
    ∃ moves, r.after source moves = some (r.withSink (side.withWriter w r.sink)) ∧
      r.writes source moves = lines.map (Prod.mk side.channel) := by
  induction turns generalizing r lines with
  | zero =>
    obtain ⟨rfl, rfl⟩ : side.writer r.sink = w ∧ [] = lines := by
      simpa [Writer.advance] using h
    exact ⟨[], by cases side <;> rfl, rfl⟩
  | succ turns ih =>
    obtain ⟨⟨next, events⟩, hs, h⟩ := Option.bind_eq_some_iff.1 h
    obtain ⟨⟨last, rest⟩, ha, he⟩ := Option.map_eq_some_iff.1 h
    obtain ⟨rfl, rfl⟩ := Prod.mk.inj he
    have hm : r.move source (.writer side.channel) =
        some (r.withSink (side.withWriter next r.sink), events) := by
      rw [side.move_writer, hs]
      rfl
    obtain ⟨moves, hr, hw⟩ := ih (r := r.withSink (side.withWriter next r.sink)) (by
      rw [side.writer_withSink]
      exact ha)
    refine ⟨.writer side.channel :: moves, ?_, ?_⟩
    · rw [after, hm]
      exact hr.trans (by cases side <;> rfl)
    · rw [writes, gather, hm, writing_writer, List.map_append]
      exact congrArg _ hw

theorem writes_append {a : List Move} {r r' : IoRun S σ τ} (h : r.after source a = some r')
    (b : List Move) : r.writes source (a ++ b) = r.writes source a ++ r'.writes source b :=
  gather_append h b

/-- Once both tasks have only to work off their queues they can do it in any order that keeps
the lines of each. -/
theorem exists_moves_of_owes (source : Source S) {order : List (Channel × String)} {r : IoRun S σ τ}
    (hp : r.sink.primary.Owes (along .primary order))
    (hs : r.sink.secondary.Owes (along .secondary order)) :
    ∃ moves r', r.after source moves = some r' ∧ r.writes source moves = order := by
  induction order generalizing r with
  | nil => exact ⟨[], r, rfl, rfl⟩
  | cons next rest ih =>
    obtain ⟨channel, line⟩ := next
    cases channel with
    | primary =>
      obtain ⟨turns, w, ha, hw⟩ := hp.exists_write
      obtain ⟨first, hr, written⟩ := after_advance .primary source (r := r) ha
      obtain ⟨moves, r', hr', order⟩ := ih (r := r.withSink { r.sink with primary := w }) hw hs
      refine ⟨first ++ moves, r', by rw [after_append, hr]; exact hr', ?_⟩
      rw [writes_append hr, written]
      exact congrArg _ order
    | secondary =>
      obtain ⟨turns, w, ha, hw⟩ := hs.exists_write
      obtain ⟨first, hr, written⟩ := after_advance .secondary source (r := r) ha
      obtain ⟨moves, r', hr', order⟩ := ih (r := r.withSink { r.sink with secondary := w }) hp hw
      refine ⟨first ++ moves, r', by rw [after_append, hr]; exact hr', ?_⟩
      rw [writes_append hr, written]
      exact congrArg _ order

/-- The loop alone can come to its verdict, with nothing written so far. -/
theorem Ahead.exists_verdict {verdict : Except EffectError Unit} {r : IoRun S σ τ} {n : Nat}
    {outputs : List Output} (h : Ahead source verdict r n outputs) :
    ∃ moves r', r.after source moves = some r' ∧ r'.verdict.isSome ∧
      r.writes source moves = [] := by
  induction n generalizing r outputs with
  | zero =>
    refine ⟨[], r, rfl, ?_, rfl⟩
    cases h with
    | looping _ _ _ _ _ _ hn => omega
    | closing _ _ _ hn => omega
    | done hv => rw [hv]; rfl
  | succ n ih =>
    cases hv : r.verdict with
    | some v => exact absurd (h.eq_of_verdict hv).2.1 (Nat.succ_ne_zero n)
    | none =>
      obtain ⟨m, hm, turn⟩ := h.turn hv
      obtain rfl : n = m := Nat.succ.inj hm
      obtain ⟨moves, r', hr', hv', quiet⟩ : ∃ moves r',
          (r.turn source).after source moves = some r' ∧ r'.verdict.isSome ∧
            (r.turn source).writes source moves = [] := by
        cases turn with
        | put ha hs hv' => exact ih ha
        | pull ha hs hv' => exact ih ha
        | close ha hs hv' => exact ih ha
      have hm : r.move source .loop = some (r.turn source, r.notices source) := by
        simp [move, hv]
      refine ⟨.loop :: moves, r', by rw [after, hm]; exact hr', hv', ?_⟩
      rw [writes, gather, hm]
      exact quiet

theorem OnCourse.owes {verdict : Except EffectError Unit} {script : List (Channel × String)}
    {r : IoRun S (Watched σ) (Watched τ)} {budget : Nat}
    (h : OnCourse source verdict script r budget) (hv : r.verdict.isSome)
    (hp : r.sink.primary.Steady) (hs : r.sink.secondary.Steady) :
    ∃ first second, r.sink.primary.Owes first ∧ r.sink.secondary.Owes second ∧
      r.sink.primary.stream.writes ++ first = linesOn .primary script ∧
      r.sink.secondary.stream.writes ++ second = linesOn .secondary script := by
  obtain ⟨ahead, tp, ts, pc, sc, -⟩ := h
  obtain ⟨v, hv⟩ := Option.isSome_iff_exists.1 hv
  rw [hv] at pc sc
  obtain ⟨-, -, rfl⟩ := ahead.eq_of_verdict hv
  refine ⟨_, _, ⟨hp, pc, tp.last, rfl⟩, ⟨hs, sc, ts.last, rfl⟩, ?_, ?_⟩
  · simpa [routes] using tp.lines.resolve_right fun hf => hp.unfailed hf.1
  · simpa [routes] using ts.lines.resolve_right fun hf => hs.unfailed hf.1

/-- The orders in which a run can write are those that keep the lines of each stream. -/
theorem exists_writes_iff {state : S} {table : Table} {t : Transcript} {primary : σ}
    {secondary : τ} (plays : source.Plays none state (.new table) t)
    (hp : Stream.NeverFails primary) (hs : Stream.NeverFails secondary)
    (order : List (Channel × String)) :
    let start := new table state (Watched.new primary) (Watched.new secondary)
    (∃ moves r, start.after source moves = some r ∧ r.result?.isSome ∧
        start.writes source moves = order) ↔
      ∀ channel, along channel order = linesOn channel (routes none t.outputs) := by
  intro start
  have keeps {moves : List Move} {r : IoRun S (Watched σ) (Watched τ)}
      (hr : start.after source moves = some r) (h : r.result?.isSome) (channel : Channel) :
      along channel (start.writes source moves) = linesOn channel (routes none t.outputs) := by
    obtain ⟨result, hres⟩ := Option.isSome_iff_exists.1 h
    obtain ⟨-, h₁, h₂⟩ := written_of_plays plays hp hs hr hres
    rw [along_writes hr]
    cases channel
    · exact h₁
    · exact h₂
  constructor
  · rintro ⟨moves, r, hr, h, rfl⟩
    exact keeps hr h
  intro horder
  -- first the loop alone, then the writes in the order, then the rest in any way
  obtain ⟨moves₁, r₁, hr₁, hv, quiet⟩ := (ahead_new plays (Watched.new primary)
    (Watched.new secondary)).exists_verdict
  obtain ⟨budget, onCourse⟩ := onCourse_new plays primary secondary
  obtain ⟨b, -, onCourse₁⟩ := onCourse.after hr₁
  have steady : r₁.sink.primary.Steady :=
    steady_after .primary hr₁ (Writer.steady_new _ hp.watched)
  have steady' : r₁.sink.secondary.Steady :=
    steady_after .secondary hr₁ (Writer.steady_new _ hs.watched)
  obtain ⟨first, second, owes, owes', all, all'⟩ := onCourse₁.owes hv steady steady'
  have blank (channel : Channel) : r₁.written channel = [] := by
    rw [← along_writes hr₁, quiet, along_nil]
  rw [show r₁.sink.primary.stream.writes = [] from blank .primary, List.nil_append,
    ← horder] at all
  rw [show r₁.sink.secondary.stream.writes = [] from blank .secondary, List.nil_append,
    ← horder] at all'
  subst all all'
  obtain ⟨moves₂, r₂, hr₂, written⟩ := exists_moves_of_owes source owes owes'
  obtain ⟨b', -, onCourse₂⟩ := onCourse₁.after hr₂
  obtain ⟨moves₃, r₃, hr₃, h⟩ := onCourse₂.exists_result
  have hr : start.after source (moves₁ ++ (moves₂ ++ moves₃)) = some r₃ := by
    rw [after_append, hr₁, Option.bind_some, after_append, hr₂, Option.bind_some, hr₃]
  have total : start.writes source (moves₁ ++ (moves₂ ++ moves₃)) =
      order ++ r₂.writes source moves₃ := by
    rw [writes_append hr₁, quiet, writes_append hr₂, written, List.nil_append]
  refine ⟨_, r₃, hr, h, ?_⟩
  have none_left : r₂.writes source moves₃ = [] := by
    refine eq_nil_of_along fun channel => ?_
    have := keeps hr h channel
    rwa [total, along_append, horder, List.append_right_eq_self] at this
  rw [total, none_left, List.append_nil]

end IoRun

end StyledEffects
