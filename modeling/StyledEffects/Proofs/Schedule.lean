import StyledEffects.Proofs.Delivery
import StyledEffects.Proofs.Routing
import StyledEffects.Proofs.Transcript
import StyledEffects.Run.Io

/-! Runs onto two streams under every schedule. The loop works off its transcript one move at
a time, whatever the tasks of the writers do in between, and the writers keep track of the
lines that the transcript sends them. Every move uses up some of a budget. -/

namespace StyledEffects

open Json Style Wire Output

namespace IoRun

variable {S σ τ : Type}

/-- What is still ahead of the loop: its number of moves, its outputs and its verdict. -/
inductive Ahead (source : Source S) (verdict : Except EffectError Unit) (r : IoRun S σ τ) :
    Nat → List Output → Prop
  | looping {t n outputs} (hv : r.verdict = none) (hd : r.drive.result = none)
      (hf : r.drive.pump.finished = false)
      (ht : source.Plays r.drive.resume r.drive.pump.state r.core t)
      (ho : t.verdict = verdict) (hp : outputs = r.pending ++ t.outputs)
      (hn : n = outputs.length + t.stages.length + 2) :
    Ahead source verdict r n outputs
  | closing {result n} (hv : r.verdict = none) (hd : r.drive.result = some result)
      (ho : judge result r.core = verdict) (hn : n = r.pending.length + 1) :
    Ahead source verdict r n r.pending
  | done (hv : r.verdict = some verdict) : Ahead source verdict r 0 []

theorem ahead_new {source : Source S} {state : S} {table : Table} {t : Transcript}
    (ht : source.Plays none state (.new table) t) (primary : σ) (secondary : τ) :
    Ahead source t.verdict (new table state primary secondary)
      (t.outputs.length + t.stages.length + 2) t.outputs :=
  .looping rfl rfl rfl ht rfl rfl rfl

/-- What the tasks of the writers do does not matter to the loop. -/
theorem Ahead.withSink {source : Source S} {verdict : Except EffectError Unit}
    {r : IoRun S σ τ} {n : Nat} {outputs : List Output} (h : Ahead source verdict r n outputs)
    (sink : Sink σ τ) : Ahead source verdict (r.withSink sink) n outputs := by
  cases h with
  | looping hv hd hf ht ho hp hn => exact .looping hv hd hf ht ho hp hn
  | closing hv hd ho hn => exact .closing hv hd ho hn
  | done hv => exact .done hv

theorem Ahead.eq_of_verdict {source : Source S} {verdict v : Except EffectError Unit}
    {r : IoRun S σ τ} {n : Nat} {outputs : List Output} (h : Ahead source verdict r n outputs)
    (hv : r.verdict = some v) : v = verdict ∧ n = 0 ∧ outputs = [] := by
  cases h with
  | looping hv' => simp [hv] at hv'
  | closing hv' => simp [hv] at hv'
  | done hv' => exact ⟨by simpa [hv] using hv', rfl, rfl⟩

inductive LoopTurn (source : Source S) (verdict : Except EffectError Unit)
    (r : IoRun S σ τ) : Nat → List Output → Prop
  | put {n output rest} (ha : Ahead source verdict (r.turn source) n rest)
      (hs : (r.turn source).sink = (r.sink.put output).1)
      (hv : (r.turn source).verdict = none) :
    LoopTurn source verdict r n (output :: rest)
  | pull {n outputs} (ha : Ahead source verdict (r.turn source) n outputs)
      (hs : (r.turn source).sink = r.sink) (hv : (r.turn source).verdict = none) :
    LoopTurn source verdict r n outputs
  | close {n} (ha : Ahead source verdict (r.turn source) n [])
      (hs : (r.turn source).sink = r.sink.close)
      (hv : (r.turn source).verdict = some verdict) :
    LoopTurn source verdict r n []

theorem turn_pending (source : Source S) {r : IoRun S σ τ} {output : Output}
    {rest : List Output} (hp : r.pending = output :: rest) :
    r.turn source = r.withSession ⟨r.core, (r.sink.put output).1, rest⟩ := by
  simp [turn, hp]

theorem turn_pull (source : Source S) {r : IoRun S σ τ} (hp : r.pending = [])
    (hd : r.drive.result = none) :
    r.turn source = { r with drive := r.drive.turn source Session.dispatch } := by
  simp [turn, hp, hd]

theorem turn_close (source : Source S) {r : IoRun S σ τ} {result : Except EffectError Nat}
    (hp : r.pending = []) (hd : r.drive.result = some result) (hv : r.verdict = none) :
    r.turn source = { r with verdict := some (judge result r.core) }.withSink r.sink.close := by
  simp [turn, hp, hd, hv]

theorem turn_carried {source : Source S} {r : IoRun S σ τ} {v : Value} {next : Option Value}
    {core : Core} {outputs : List Output} (hp : r.pending = []) (hd : r.drive.result = none)
    (hf : r.drive.pump.finished = false)
    (h : (source.advance r.drive.resume r.drive.pump.state).1.result = .ok (some v))
    (hc : r.core.dispatch v = (.ok next, core, outputs)) :
    r.turn source = { r with drive :=
      { r.drive with
        pump := r.drive.pump.pulledOne source r.drive.resume
        resume := next
        work := ⟨core, r.sink, outputs⟩ } } := by
  have carried : Session.dispatch v r.drive.work = (.ok next, ⟨core, r.sink, outputs⟩) := by
    have hc' : r.drive.work.core.dispatch v = (.ok next, core, outputs) := hc
    simp only [Session.dispatch, hc']
    rfl
  rw [turn_pull source hp hd, Drive.turn_carried hd hf h carried]

theorem ahead_pull {source : Source S} {r : IoRun S σ τ} {t : Transcript}
    (hp : r.pending = []) (hv : r.verdict = none) (hd : r.drive.result = none)
    (hf : r.drive.pump.finished = false)
    (ht : source.Plays r.drive.resume r.drive.pump.state r.core t) :
    Ahead source t.verdict (r.turn source) (t.outputs.length + t.stages.length + 1) t.outputs ∧
      (r.turn source).sink = r.sink ∧ (r.turn source).verdict = none := by
  obtain ⟨⟨pump, resume, ⟨core, sink, pending⟩, result⟩, verdict⟩ := r
  obtain rfl : pending = [] := hp
  rw [turn_pull source rfl hd]
  cases ht with
  | ended h =>
    rw [Drive.turn_ended hd hf h]
    exact ⟨.closing hv rfl rfl rfl, rfl, hv⟩
  | failed h =>
    rw [Drive.turn_failed hd hf h]
    exact ⟨.closing hv rfl rfl rfl, rfl, hv⟩
  | @refused _ _ _ v e core' outputs h hc =>
    obtain rfl : outputs = [] := Core.dispatch_error hc
    have refused : Session.dispatch v ⟨core, sink, []⟩ = (.error e, ⟨core', sink, []⟩) := by
      have hc' : core.dispatch v = (.error e, core', []) := hc
      simp only [Session.dispatch, hc']
    rw [Drive.turn_refused hd hf h refused]
    exact ⟨.closing hv rfl rfl rfl, rfl, hv⟩
  | carried h hc ht =>
    rw [← turn_pull source rfl hd, turn_carried rfl hd hf h hc]
    exact ⟨.looping hv hd rfl ht rfl rfl rfl, rfl, hv⟩

/-- While there is no verdict the loop can move, and every turn is one move less ahead. -/
theorem Ahead.turn {source : Source S} {verdict : Except EffectError Unit} {r : IoRun S σ τ}
    {n : Nat} {outputs : List Output} (h : Ahead source verdict r n outputs)
    (hv : r.verdict = none) : ∃ m, n = m + 1 ∧ LoopTurn source verdict r m outputs := by
  cases h with
  | @looping t _ _ _ hd hf ht ho hl hn =>
    subst ho hl
    cases hp : r.pending with
    | nil =>
      obtain ⟨ha, hs, hv'⟩ := ahead_pull hp hv hd hf ht
      exact ⟨_, by rw [hn, hp]; rfl, .pull ha hs hv'⟩
    | cons output rest =>
      have e := turn_pending source hp
      refine ⟨(rest ++ t.outputs).length + t.stages.length + 2, ?_, ?_⟩
      · rw [hn, hp, List.cons_append, List.length_cons]
        omega
      · refine .put ?_ (by rw [e]; rfl) (by rw [e]; exact hv)
        rw [e]
        exact .looping hv hd hf ht rfl rfl rfl
  | @closing result _ _ hd ho hn =>
    cases hp : r.pending with
    | nil =>
      have e := turn_close source hp hd hv
      refine ⟨0, by rw [hn, hp]; rfl, .close ?_ (by rw [e]; rfl) (by rw [e, ← ho]; rfl)⟩
      rw [e]
      exact .done (congrArg some ho)
    | cons output rest =>
      have e := turn_pending source hp
      refine ⟨rest.length + 1, by rw [hn, hp]; rfl, ?_⟩
      refine .put ?_ (by rw [e]; rfl) (by rw [e]; exact hv)
      rw [e]
      exact .closing hv hd ho rfl
  | done h => simp [hv] at h

end IoRun

end StyledEffects
