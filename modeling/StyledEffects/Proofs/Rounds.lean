import StyledEffects.Proofs.Chunks
import StyledEffects.Proofs.Rendering

/-! The loop over a source with everything else left aside. In each round an instruction is
pulled and dispatched. A run onto two streams and a run into chunks go through the same rounds,
and once they are over, both have come to the round in which the loop has its result. -/

namespace StyledEffects

open Json Style Wire

def Core.carry (v : Value) (core : Core) : Except EffectError (Option Value) × Core :=
  ((core.dispatch v).1, (core.dispatch v).2.1)

theorem Core.carry_of_dispatch {v : Value} {core core' : Core} {outputs : List Output}
    {result : Except EffectError (Option Value)}
    (h : core.dispatch v = (result, core', outputs)) : core.carry v = (result, core') := by
  rw [carry, h]

namespace Drive

variable {S : Type} {source : Source S} {d : Drive S Core}

section

variable {D : Type} {dispatch : Value → D → Except EffectError (Option Value) × D}

theorem turn_of_result {d : Drive S D} (h : d.result.isSome) : d.turn source dispatch = d := by
  obtain ⟨result, h⟩ := Option.isSome_iff_exists.1 h
  rw [turn, h]

theorem run_succ (n : Nat) (d : Drive S D) :
    d.run source dispatch (n + 1) = (d.run source dispatch n).turn source dispatch := by
  induction n generalizing d with
  | zero => rfl
  | succ n ih => rw [run, ih, run]

theorem run_of_result (n : Nat) {d : Drive S D} (h : d.result.isSome) :
    d.run source dispatch n = d := by
  induction n with
  | zero => rfl
  | succ n ih => rw [run, turn_of_result h, ih]

theorem run_of_turn {n : Nat} {d d' : Drive S D} (hn : n ≠ 0)
    (h : d.turn source dispatch = d') (hr : d'.result.isSome) :
    d.run source dispatch n = d' := by
  obtain ⟨n, rfl⟩ := Nat.exists_eq_add_one_of_ne_zero hn
  rw [run, h, run_of_result n hr]

theorem run_add (m n : Nat) (d : Drive S D) :
    d.run source dispatch (m + n) = (d.run source dispatch m).run source dispatch n := by
  induction n with
  | zero => rfl
  | succ n ih => rw [← Nat.add_assoc, run_succ, ih, run_succ]

theorem run_eq_of_result {m n : Nat} {d : Drive S D} (hm : (d.run source dispatch m).result.isSome)
    (hn : (d.run source dispatch n).result.isSome) :
    d.run source dispatch m = d.run source dispatch n := by
  rw [← run_of_result n hm, ← run_add, Nat.add_comm, run_add, run_of_result m hn]

end

def verdict? (d : Drive S Core) : Option (Except EffectError Unit) :=
  d.result.map fun result => IoRun.judge result d.work

theorem isSome_of_verdict {v : Except EffectError Unit} (h : d.verdict? = some v) :
    d.result.isSome := by
  have verdict := congrArg Option.isSome h
  rwa [verdict?, Option.isSome_map] at verdict

/-- A source that plays to its end ends the loop, which has one round for each instruction that
is carried out and one for the end. -/
theorem run_of_plays {resume : Option Value} {s : S} {core : Core} {t : Transcript}
    (h : source.Plays resume s core t) {n : Nat} (hn : t.stages.length < n) (pulled : Nat) :
    ((⟨⟨s, pulled, false⟩, resume, core, none⟩ : Drive S Core).run source Core.carry n).verdict? =
      some t.verdict := by
  have some_round := Nat.ne_zero_of_lt hn
  induction h generalizing n pulled with
  | ended h =>
    rw [run_of_turn some_round (turn_ended rfl rfl h) rfl]
    rfl
  | failed h =>
    rw [run_of_turn some_round (turn_failed rfl rfl h) rfl]
    rfl
  | refused h hd =>
    rw [run_of_turn some_round (turn_refused rfl rfl h (Core.carry_of_dispatch hd)) rfl]
    rfl
  | carried h hd _ ih =>
    obtain ⟨n, rfl⟩ := Nat.exists_eq_add_one_of_ne_zero some_round
    have fewer := Nat.lt_of_succ_lt_succ hn
    rw [run, turn_carried rfl rfl h (Core.carry_of_dispatch hd)]
    exact ih fewer (pulled + 1) (Nat.ne_zero_of_lt fewer)

end Drive

def rounds {S : Type} (source : Source S) (table : Table) (state : S) (n : Nat) : Drive S Core :=
  (Drive.new state (.new table)).run source Core.carry n

namespace IoRun

variable {S σ τ : Type} {source : Source S}

def loop (r : IoRun S σ τ) : Drive S Core :=
  ⟨r.drive.pump, r.drive.resume, r.core, r.drive.result⟩

theorem loop_turn (source : Source S) (r : IoRun S σ τ) :
    (r.turn source).loop = r.loop ∨ (r.turn source).loop = r.loop.turn source Core.carry := by
  obtain ⟨⟨pump, resume, ⟨core, sink, pending⟩, result⟩, verdict⟩ := r
  cases pending with
  | cons output rest => exact .inl rfl
  | nil =>
    cases result with
    | some result => cases verdict <;> exact .inl rfl
    | none =>
      right
      rw [turn_pull source rfl rfl]
      rcases hs : pump.step source resume with ⟨_ | _ | v, pump'⟩
      · simp [loop, IoRun.core, Drive.turn, hs]
      · simp [loop, IoRun.core, Drive.turn, hs]
      · rcases hd : core.dispatch v with ⟨_ | next, core', outputs⟩ <;>
          simp [loop, IoRun.core, Drive.turn, hs, Session.dispatch, Core.carry, hd]

theorem verdict_turn (source : Source S) {r : IoRun S σ τ} {v : Except EffectError Unit}
    (h : r.verdict = none) (hv : (r.turn source).verdict = some v) :
    (r.turn source).loop.verdict? = some v := by
  obtain ⟨⟨pump, resume, ⟨core, sink, pending⟩, result⟩, verdict⟩ := r
  obtain rfl : verdict = none := h
  cases pending with
  | cons output rest => cases hv
  | nil =>
    cases result with
    | none =>
      rw [turn_pull source rfl rfl] at hv
      cases hv
    | some result => exact hv

variable [OutputStream σ] [OutputStream τ]

/-- At any point the loop has made some rounds. If there is a verdict it is the one on its
result. -/
theorem loop_after {table : Table} {state : S} {primary : σ} {secondary : τ} {moves : List Move}
    {r : IoRun S σ τ} (hr : (new table state primary secondary).after source moves = some r) :
    (∃ n, r.loop = rounds source table state n) ∧
      ∀ v, r.verdict = some v → r.loop.verdict? = some v := by
  apply after_invariant hr (P := fun r => (∃ n, r.loop = rounds source table state n) ∧
    ∀ v, r.verdict = some v → r.loop.verdict? = some v)
  · exact ⟨⟨0, rfl⟩, fun v hv => nomatch hv⟩
  · rintro r r' ⟨⟨n, looped⟩, judged⟩ moved
    cases moved with
    | primary => exact ⟨⟨n, looped⟩, judged⟩
    | secondary => exact ⟨⟨n, looped⟩, judged⟩
    | loop hv =>
      refine ⟨?_, fun v => verdict_turn source hv⟩
      rcases loop_turn source r with same | turned
      · exact ⟨n, same.trans looped⟩
      · exact ⟨n + 1, by rw [turned, looped, rounds, rounds, Drive.run_succ]⟩

end IoRun

namespace PureRun

variable {S : Type} {source : Source S}

def after (source : Source S) : Nat → PureRun S → PureRun S
  | 0, r => r
  | n + 1, r =>
    match r.step source with
    | none => r
    | some (_, r) => after source n r

/-- Of the loop of a run into chunks only the result is not kept. -/
def loop (r : PureRun S) (result : Option (Except EffectError Nat)) : Drive S Core :=
  ⟨r.pump, r.resume, r.core, result⟩

theorem loop_step {r r' : PureRun S} {item : Option (Except EffectError String)}
    (h : r.step source = some (item, r')) :
    ∃ result, result.isSome = r'.ended ∧ (r'.loop result = r.loop none ∨
      r'.loop result = (r.loop none).turn source Core.carry) := by
  obtain ⟨pump, resume, core, chunks, ended⟩ := r
  cases ended with
  | true => cases h
  | false =>
    cases chunks with
    | cons chunk chunks =>
      obtain ⟨-, rfl⟩ := Prod.mk.inj (Option.some.inj h)
      exact ⟨none, rfl, .inl rfl⟩
    | nil =>
      rcases hs : pump.step source resume with ⟨e | _ | v, pump'⟩
      · obtain ⟨-, rfl⟩ : _ = item ∧ _ = r' := by simpa [step, hs] using h
        exact ⟨some (.error e), rfl, .inr (by simp [loop, Drive.turn, hs])⟩
      · have ended : r' = ⟨pump', resume, core, [], true⟩ := by
          cases hf : core.finish <;> simp_all [step]
        subst ended
        exact ⟨some (.ok pump'.pulled), rfl, .inr (by simp [loop, Drive.turn, hs])⟩
      · rcases hd : core.dispatch v with ⟨e | next, core', outputs⟩
        · obtain ⟨-, rfl⟩ : _ = item ∧ _ = r' := by simpa [step, hs, hd] using h
          exact ⟨some (.error e), rfl, .inr (by simp [loop, Drive.turn, hs, Core.carry, hd])⟩
        · obtain ⟨-, rfl⟩ : _ = item ∧ _ = r' := by simpa [step, hs, hd] using h
          exact ⟨none, rfl, .inr (by simp [loop, Drive.turn, hs, Core.carry, hd])⟩

theorem ended_of_step {r : PureRun S} {next : Option (Except EffectError String) × PureRun S}
    (h : r.step source = some next) : r.ended = false := by
  cases he : r.ended with
  | false => rfl
  | true => simp [step, he] at h

theorem ended_of_no_step {r : PureRun S} (h : r.step source = none) : r.ended = true := by
  obtain ⟨pump, resume, core, chunks, ended⟩ := r
  cases ended with
  | true => rfl
  | false =>
    cases chunks with
    | cons chunk chunks => cases h
    | nil =>
      rcases hs : pump.step source resume with ⟨e | _ | v, pump'⟩
      · simp [step, hs] at h
      · cases hf : core.finish <;> simp [step, hs, hf] at h
      · rcases hd : core.dispatch v with ⟨_ | next, core', outputs⟩ <;> simp [step, hs, hd] at h

theorem after_invariant {P : PureRun S → Prop} {r : PureRun S} (hr : P r)
    (hstep : ∀ r item r', P r → r.step source = some (item, r') → P r') (n : Nat) :
    P (r.after source n) := by
  induction n generalizing r with
  | zero => exact hr
  | succ n ih =>
    rw [after]
    cases h : r.step source with
    | none => exact hr
    | some next => exact ih (hstep r next.1 next.2 hr h)

theorem after_ended {r : PureRun S} (h : r.ended = true) (n : Nat) : r.after source n = r := by
  have still : r.step source = none := by simp [step, h]
  cases n with
  | zero => rfl
  | succ n => rw [after, still]

theorem loop_after (source : Source S) (table : Table) (state : S) (steps : Nat) :
    ∃ result, result.isSome = ((new table state).after source steps).ended ∧
      ∃ n, ((new table state).after source steps).loop result = rounds source table state n := by
  apply after_invariant (P := fun r => ∃ result, result.isSome = r.ended ∧
    ∃ n, r.loop result = rounds source table state n)
  · exact ⟨none, rfl, 0, rfl⟩
  · rintro r item r' ⟨result, ended, n, looped⟩ h
    rw [ended_of_step h] at ended
    obtain rfl : result = none := by simpa using ended
    obtain ⟨result, ended', same | turned⟩ := loop_step h
    · exact ⟨result, ended', n, same.trans looped⟩
    · exact ⟨result, ended', n + 1, by rw [turned, looped, rounds, rounds, Drive.run_succ]⟩

theorem ended_of_gives {n : Nat} {r : PureRun S} {items : List (Except EffectError String)}
    (h : (feed source).Gives n r items) {steps : Nat} (hn : n ≤ steps) :
    (r.after source steps).ended = true := by
  induction h generalizing steps with
  | ended h =>
    have ended := ended_of_no_step h
    rw [after_ended ended]
    exact ended
  | failed h =>
    obtain ⟨steps, rfl⟩ := Nat.exists_eq_add_one_of_ne_zero (by omega : steps ≠ 0)
    have h : step source _ = _ := h
    have ended := ended_of_error h
    rw [after, h]
    simp only
    rw [after_ended ended]
    exact ended
  | quiet h _ ih =>
    obtain ⟨steps, rfl⟩ := Nat.exists_eq_add_one_of_ne_zero (by omega : steps ≠ 0)
    have h : step source _ = _ := h
    rw [after, h]
    exact ih (by omega)
  | chunk h _ ih =>
    obtain ⟨steps, rfl⟩ := Nat.exists_eq_add_one_of_ne_zero (by omega : steps ≠ 0)
    have h : step source _ = _ := h
    rw [after, h]
    exact ih (by omega)

end PureRun

section

variable {S : Type} {source : Source S} {state : S} {table : Table} {t : Transcript}

theorem verdict_rounds (h : source.Plays none state (.new table) t) :
    (rounds source table state (t.stages.length + 1)).verdict? = some t.verdict :=
  Drive.run_of_plays h (Nat.lt_succ_self _) 0

theorem isSome_result_rounds (h : source.Plays none state (.new table) t) :
    (rounds source table state (t.stages.length + 1)).result.isSome :=
  Drive.isSome_of_verdict (verdict_rounds h)

theorem IoRun.loop_of_result {σ τ : Type} [OutputStream σ] [OutputStream τ] {primary : σ}
    {secondary : τ} {moves : List Move} {r : IoRun S σ τ}
    (h : source.Plays none state (.new table) t)
    (hr : (new table state primary secondary).after source moves = some r)
    (hres : r.result?.isSome) : r.loop = rounds source table state (t.stages.length + 1) := by
  obtain ⟨⟨n, looped⟩, judged⟩ := loop_after hr
  obtain ⟨v, hv⟩ := Option.isSome_iff_exists.1 (isSome_verdict hres)
  have ended := Drive.isSome_of_verdict (judged v hv)
  rw [looped] at ended ⊢
  exact Drive.run_eq_of_result ended (isSome_result_rounds h)

theorem PureRun.loop_of_plays (h : source.Plays none state (.new table) t) {limit : Nat}
    (hl : t.stages.length ≤ limit) :
    ((new table state).after source (stepsFor limit)).ended = true ∧
    ∃ result, ((new table state).after source (stepsFor limit)).loop result =
      rounds source table state (t.stages.length + 1) := by
  obtain ⟨n, hn, gives⟩ := gives_of_plays h 0
  obtain ⟨result, ended, m, looped⟩ := loop_after source table state (stepsFor limit)
  have halted : ((new table state).after source (stepsFor limit)).ended = true :=
    ended_of_gives gives (by unfold stepsFor; omega)
  have stopped : (rounds source table state m).result.isSome := by
    rw [← looped]
    exact ended.trans halted
  refine ⟨halted, result, ?_⟩
  rw [looped]
  exact Drive.run_eq_of_result stopped (isSome_result_rounds h)

end

end StyledEffects
