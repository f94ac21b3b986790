import StyledEffects.Proofs.Counting
import StyledEffects.Proofs.Course

/-! A run onto two streams that never fail renders its source, whatever the schedule: it comes
to its end, every line of every text and burst is written in order, and the result is that of
the source. -/

namespace StyledEffects

open Json Style Wire Output

namespace IoRun

variable {S σ τ : Type} [OutputStream σ] [OutputStream τ]

omit [OutputStream σ] [OutputStream τ] in
/-- A run with a result is over: the loop has its verdict and both tasks have stopped. The
first error of the three, in this order, is the result. -/
theorem ended_of_result {r : IoRun S σ τ} {result : Except EffectError Unit}
    (h : r.result? = some result) :
    ∃ verdict first second, r.verdict = some verdict ∧
      r.sink.primary.stopped? = some first ∧ r.sink.secondary.stopped? = some second ∧
      result = verdict.bind fun _ => (first.bind fun _ => second).mapError .device := by
  cases hv : r.verdict with
  | none => simp [result?, hv] at h
  | some v =>
    cases h₁ : r.sink.primary.stopped? with
    | none => cases v <;> simp [result?, hv, Sink.outcome?, h₁] at h
    | some o₁ =>
      cases h₂ : r.sink.secondary.stopped? with
      | none => cases v <;> cases o₁ <;> simp [result?, hv, Sink.outcome?, h₁, h₂] at h
      | some o₂ =>
        refine ⟨v, o₁, o₂, rfl, rfl, rfl, ?_⟩
        cases v <;> cases o₁ <;>
          simpa [result?, hv, Sink.outcome?, h₁, h₂, Except.bind] using h.symm

theorem OnCourse.result {source : Source S} {verdict result : Except EffectError Unit}
    {script : List (Channel × String)} {r : IoRun S (Watched σ) (Watched τ)} {budget : Nat}
    (h : OnCourse source verdict script r budget) (hp : r.sink.primary.Steady)
    (hq : r.sink.secondary.Steady) (hr : r.result? = some result) :
    result = verdict ∧ r.sink.primary.stream.writes = linesOn .primary script ∧
      r.sink.secondary.stream.writes = linesOn .secondary script := by
  obtain ⟨v, o₁, o₂, hv, h₁, h₂, rfl⟩ := ended_of_result hr
  obtain ⟨rfl, primary, secondary⟩ := h.finished hv
  have e₁ := hp.stopped (by simp [h₁])
  have e₂ := hq.stopped (by simp [h₂])
  obtain ⟨rfl, rfl⟩ : o₁ = .ok () ∧ o₂ = .ok () := by simp_all
  exact ⟨by cases v <;> rfl, primary e₁, secondary e₂⟩

theorem written_of_plays {source : Source S} {state : S} {table : Table} {t : Transcript}
    {primary : σ} {secondary : τ} {moves : List Move} {r : IoRun S (Watched σ) (Watched τ)}
    {result : Except EffectError Unit} (plays : source.Plays none state (.new table) t)
    (hp : Stream.NeverFails primary) (hs : Stream.NeverFails secondary)
    (hr : (new table state (Watched.new primary) (Watched.new secondary)).after source moves =
      some r)
    (h : r.result? = some result) :
    result = t.verdict ∧
      r.sink.primary.stream.writes = linesOn .primary (routes none t.outputs) ∧
      r.sink.secondary.stream.writes = linesOn .secondary (routes none t.outputs) := by
  obtain ⟨budget, start⟩ := onCourse_new plays primary secondary
  obtain ⟨b, -, course⟩ := start.after hr
  have first : r.sink.primary.Steady :=
    steady_after .primary hr (Writer.steady_new _ hp.watched)
  have second : r.sink.secondary.Steady :=
    steady_after .secondary hr (Writer.steady_new _ hs.watched)
  exact course.result first second h

/-- A run has a result exactly when nobody can move any more. -/
theorem OnCourse.stuck_iff {source : Source S} {verdict : Except EffectError Unit}
    {script : List (Channel × String)} {r : IoRun S (Watched σ) (Watched τ)} {budget : Nat}
    (h : OnCourse source verdict script r budget) :
    (∀ m, r.move source m = none) ↔ r.result?.isSome := by
  constructor
  · intro hm
    obtain ⟨hv, h₁, h₂⟩ := h.stuck hm
    obtain ⟨v, hv⟩ := Option.isSome_iff_exists.1 hv
    obtain ⟨o₁, h₁⟩ := Option.isSome_iff_exists.1 h₁
    obtain ⟨o₂, h₂⟩ := Option.isSome_iff_exists.1 h₂
    cases v <;> cases o₁ <;> simp [result?, hv, Sink.outcome?, h₁, h₂]
  · intro hr m
    obtain ⟨result, hr⟩ := Option.isSome_iff_exists.1 hr
    obtain ⟨v, o₁, o₂, hv, h₁, h₂, -⟩ := ended_of_result hr
    match m with
    | .loop => simp [move, hv]
    | .writer .primary => simp [move, Writer.step_of_stopped h₁]
    | .writer .secondary => simp [move, Writer.step_of_stopped h₂]

theorem OnCourse.exists_result {source : Source S} {verdict : Except EffectError Unit}
    {script : List (Channel × String)} {budget : Nat} {r : IoRun S (Watched σ) (Watched τ)}
    (h : OnCourse source verdict script r budget) :
    ∃ moves r', r.after source moves = some r' ∧ r'.result?.isSome := by
  induction budget using Nat.strongRecOn generalizing r with
  | ind budget ih =>
    by_cases hm : ∀ m, r.move source m = none
    · exact ⟨[], r, rfl, h.stuck_iff.1 hm⟩
    · obtain ⟨m, hm⟩ := Classical.not_forall.1 hm
      obtain ⟨⟨r₁, events⟩, hr₁⟩ := Option.ne_none_iff_exists'.1 hm
      obtain ⟨b, hb, h₁⟩ := h.moved (moved_of_move hr₁)
      obtain ⟨moves, r', hr', hres⟩ := ih b hb h₁
      exact ⟨m :: moves, r', by rw [IoRun.after, hr₁]; exact hr', hres⟩

/-- A run that every schedule brings to an end within this many moves, and to its result. -/
structure Ends (source : Source S) (start : IoRun S σ τ) (budget : Nat) : Prop where
  bounded : ∀ moves r, start.after source moves = some r → moves.length ≤ budget
  stuck_iff : ∀ moves r, start.after source moves = some r →
    ((∀ m, r.move source m = none) ↔ r.result?.isSome)
  reached : ∃ moves r, start.after source moves = some r ∧ r.result?.isSome

theorem Ends.mono {source : Source S} {start : IoRun S σ τ}
    {budget budget' : Nat} (h : start.Ends source budget) (le : budget ≤ budget') :
    start.Ends source budget' :=
  ⟨fun moves r hr => Nat.le_trans (h.bounded moves r hr) le, h.stuck_iff, h.reached⟩

/-- Two runs that come to their ends do so within one budget. -/
theorem exists_ends_and {S' σ' τ' : Type} [OutputStream σ'] [OutputStream τ']
    {source : Source S} {source' : Source S'} {start : IoRun S σ τ} {start' : IoRun S' σ' τ'}
    (h : ∃ budget, start.Ends source budget) (h' : ∃ budget, start'.Ends source' budget) :
    ∃ budget, start.Ends source budget ∧ start'.Ends source' budget := by
  obtain ⟨b, ends⟩ := h
  obtain ⟨b', ends'⟩ := h'
  exact ⟨max b b', ends.mono (Nat.le_max_left b b'), ends'.mono (Nat.le_max_right b b')⟩

theorem ends_of_plays {source : Source S} {state : S} {table : Table} {t : Transcript}
    (plays : source.Plays none state (.new table) t) (primary : σ) (secondary : τ) :
    ∃ budget, (new table state (Watched.new primary) (Watched.new secondary)).Ends source
      budget := by
  obtain ⟨budget, start⟩ := onCourse_new plays primary secondary
  refine ⟨budget, fun moves r hr => ?_, fun moves r hr => ?_, start.exists_result⟩
  · obtain ⟨b, hb, -⟩ := start.after hr
    omega
  · obtain ⟨b, -, course⟩ := start.after hr
    exact course.stuck_iff

omit [OutputStream σ] [OutputStream τ] in
theorem isSome_verdict {r : IoRun S σ τ} (h : r.result?.isSome) : r.verdict.isSome := by
  cases hv : r.verdict with
  | none => simp [result?, hv] at h
  | some v => rfl

/-- Either the loop goes on and what it has still to play completes a play from the start, or
there is one already. -/
inductive Playing (source : Source S) (state : S) (table : Table) (r : IoRun S σ τ) : Prop
  | looping (hv : r.verdict = none) (hd : r.drive.result = none)
      (hf : r.drive.pump.finished = false)
      (ht : ∀ t, source.Plays r.drive.resume r.drive.pump.state r.core t →
        ∃ t, source.Plays none state (.new table) t)
  | played (t : Transcript) (ht : source.Plays none state (.new table) t)

/-- A source that a run has come to the end of plays to the end. -/
theorem plays_of_result {source : Source S} {state : S} {table : Table} {primary : σ}
    {secondary : τ} {moves : List Move} {r : IoRun S σ τ}
    (hr : (new table state primary secondary).after source moves = some r)
    (h : r.result?.isSome) : ∃ t, source.Plays none state (.new table) t := by
  have playing : Playing source state table r := by
    apply after_invariant hr (P := Playing source state table)
    · exact .looping rfl rfl rfl fun t ht => ⟨t, ht⟩
    · intro r r' hplay hm
      cases hplay with
      | played t ht => exact .played t ht
      | looping hv hd hf ht =>
        cases hm with
        | primary hw => exact .looping hv hd hf ht
        | secondary hw => exact .looping hv hd hf ht
        | loop _ =>
          cases hp : r.pending with
          | cons output rest =>
            rw [turn_pending source hp]
            exact .looping hv hd hf ht
          | nil =>
            rcases ha : (source.advance r.drive.resume r.drive.pump.state).1.result with e | _ | v
            · obtain ⟨t, ht⟩ := ht _ (.failed ha)
              exact .played t ht
            · obtain ⟨t, ht⟩ := ht _ (.ended ha)
              exact .played t ht
            · rcases hc : r.core.dispatch v with ⟨e | next, core, outputs⟩
              · obtain ⟨t, ht⟩ := ht _ (.refused ha hc)
                exact .played t ht
              · rw [turn_carried hp hd hf ha hc]
                exact .looping hv hd rfl fun t ht' => ht _ (.carried ha hc ht')
  cases playing with
  | played t ht => exact ⟨t, ht⟩
  | looping hv =>
    have := isSome_verdict h
    simp [hv] at this

/-- Every schedule of a run over a finite source and two streams that never fail comes to an
end within a budget, and at the end the streams have all lines of all that was carried out. The
result is that of the items. -/
theorem rendering_on_every_schedule (source : Source S) (state : S) (items : List Item)
    (table : Table) (primary : σ) (secondary : τ) (hsource : source.Yields state items)
    (hp : Stream.NeverFails primary) (hs : Stream.NeverFails secondary) :
    ∃ budget, ∀ moves r,
      (IoRun.new table state (Watched.new primary) (Watched.new secondary)).after source moves =
        some r →
      moves.length ≤ budget ∧
      ((∀ m, r.move source m = none) ↔ r.result?.isSome) ∧
      ∀ result, r.result? = some result →
        result = (Transcript.of (.new table) items).verdict ∧
        Conclusion items result ∧
        r.sink.primary.stream.writes =
          linesOn .primary (routes none (Transcript.of (.new table) items).outputs) ∧
        r.sink.secondary.stream.writes =
          linesOn .secondary (routes none (Transcript.of (.new table) items).outputs) := by
  have plays := hsource.plays (.new table)
  obtain ⟨budget, ends⟩ := ends_of_plays plays primary secondary
  refine ⟨budget, fun moves r hr => ⟨ends.bounded moves r hr, ends.stuck_iff moves r hr, ?_⟩⟩
  intro result h
  obtain ⟨rfl, first, second⟩ := written_of_plays plays hp hs hr h
  exact ⟨rfl, Transcript.conclusion table items, first, second⟩

def poppedTwice : List Item :=
  [.ok (Instruction.write "a" 1), .ok (Instruction.push [.bold]),
    .ok (Instruction.write "b\nc" 2), .ok Instruction.pop, .ok Instruction.pop]

def leftBold : List Item :=
  [.ok (Instruction.push [.bold]), .ok (Instruction.push [.italic]), .ok Instruction.pop,
    .ok (Instruction.write "a\n" 1)]

theorem rendering_of_unbalanced_pops :
    (∃ budget, ∀ moves r,
      (IoRun.new .ansi poppedTwice (Watched.new (Recorder.new (some 1) false))
        (Watched.new (Recorder.new none false))).after Source.items moves = some r →
      moves.length ≤ budget ∧
      ((∀ m, r.move Source.items m = none) ↔ r.result?.isSome) ∧
      ∀ result, r.result? = some result →
        result = .error .popOnEmptyStack ∧
        r.sink.primary.stream.writes = ["a", "\x1b[1m", "\x1b[22m"] ∧
        r.sink.secondary.stream.writes = ["\n", "b\n", "c"]) ∧
    ∃ budget, ∀ moves r,
      (IoRun.new .ansi leftBold (Watched.new (Recorder.new none false))
        (Watched.new (Recorder.new none false))).after Source.items moves = some r →
      moves.length ≤ budget ∧
      ((∀ m, r.move Source.items m = none) ↔ r.result?.isSome) ∧
      ∀ result, r.result? = some result →
        result = .error (.unbalancedStack 1) ∧
        r.sink.primary.stream.writes =
          ["\x1b[1m", "\x1b[22m", "\x1b[3m", "\x1b[23m", "\x1b[1m", "a\n"] ∧
        r.sink.secondary.stream.writes = [] := by
  constructor
  · obtain ⟨budget, onStreams⟩ := rendering_on_every_schedule Source.items _ poppedTwice .ansi
      (Recorder.new (some 1) false) (Recorder.new none false) (Source.yields_items _)
      (Stream.neverFails_recorder rfl) (Stream.neverFails_recorder rfl)
    refine ⟨budget, fun moves r hr => ?_⟩
    obtain ⟨bound, stuck, ended⟩ := onStreams moves r hr
    refine ⟨bound, stuck, fun result h => ?_⟩
    obtain ⟨verdict, -, first, second⟩ := ended result h
    exact ⟨verdict, first, second⟩
  · obtain ⟨budget, onStreams⟩ := rendering_on_every_schedule Source.items _ leftBold .ansi
      (Recorder.new none false) (Recorder.new none false) (Source.yields_items _)
      (Stream.neverFails_recorder rfl) (Stream.neverFails_recorder rfl)
    refine ⟨budget, fun moves r hr => ?_⟩
    obtain ⟨bound, stuck, ended⟩ := onStreams moves r hr
    refine ⟨bound, stuck, fun result h => ?_⟩
    obtain ⟨verdict, -, first, second⟩ := ended result h
    exact ⟨verdict, first, second⟩

end IoRun

end StyledEffects
