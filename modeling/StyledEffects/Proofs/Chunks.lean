import StyledEffects.Proofs.Reassembly
import StyledEffects.Proofs.Transcript
import StyledEffects.Run.Pure

/-! A run into chunks hands out the chunks of its transcript, in order, and then the error if
there is one. The number of steps that a run is given is enough for that. -/

namespace StyledEffects

open Json Style Wire

namespace Transcript

def chunks (t : Transcript) : List String := t.outputs.filterMap PureRun.chunkOf

def items (t : Transcript) : List (Except EffectError String) :=
  t.chunks.map .ok ++
    match t.verdict with
    | .ok () => []
    | .error e => [.error e]

theorem items_after (stage : Stage) (t : Transcript) :
    (t.after stage).items = (stage.outputs.filterMap PureRun.chunkOf).map .ok ++ t.items := by
  simp [items, chunks]

theorem length_stages_of_le (core : Core) (items : List Item) :
    (of core items).stages.length ≤ items.length := by
  induction items generalizing core with
  | nil => simp [of]
  | cons item rest ih =>
    cases item with
    | error e => simp [of]
    | ok v =>
      rcases hd : core.dispatch v with ⟨result, core', outputs⟩
      have := ih core'
      cases result <;> simp [of, hd]
      omega

end Transcript

theorem Core.length_outputs_le {v : Value} {core core' : Core} {resume : Option Value}
    {outputs : List Output} (h : core.dispatch v = (.ok resume, core', outputs)) :
    outputs.length ≤ 2 := by
  obtain ⟨-, effect, -, hp⟩ := dispatch_ok h
  rcases perform_cases hp with ⟨text, channel, -, -, -, rfl⟩ | ⟨-, -, rfl⟩
  · simp
  · simp only [Transition.bursts, List.length_map, List.length_append, Option.length_toList]
    split <;> split <;> simp

theorem Source.Plays.length_outputs_le {S : Type} {source : Source S} {resume : Option Value}
    {s : S} {core : Core} {t : Transcript} (h : source.Plays resume s core t) :
    t.outputs.length ≤ 2 * t.stages.length := by
  induction h with
  | carried _ hd _ ih =>
    have := Core.length_outputs_le hd
    simp only [Transcript.outputs_after, Transcript.stages_after, List.length_append,
      List.length_cons]
    omega
  | _ => simp

namespace PureRun

variable {S : Type} {source : Source S}

theorem items_ended {r : PureRun S} (n : Nat) (h : r.ended = true) : r.items source n = [] := by
  cases n <;> simp [items, step, h]

theorem ended_of_error {r r' : PureRun S} {e : EffectError}
    (h : r.step source = some (some (.error e), r')) : r'.ended = true := by
  unfold step at h
  split at h
  · simp at h
  · split at h
    · simp at h
    · split at h
      · obtain ⟨-, rfl⟩ := by simpa using h
        rfl
      · split at h
        · simp at h
        · obtain ⟨-, rfl⟩ := by simpa using h
          rfl
      · split at h
        · obtain ⟨-, rfl⟩ := by simpa using h
          rfl
        · simp at h

theorem gives_chunks {pump : Pump S} {resume : Option Value} {core : Core} {n : Nat}
    {items : List (Except EffectError String)} (chunks : List String)
    (h : (feed source).Gives n ⟨pump, resume, core, [], false⟩ items) :
    (feed source).Gives (chunks.length + n) ⟨pump, resume, core, chunks, false⟩
      (chunks.map .ok ++ items) := by
  induction chunks with
  | nil => simpa using h
  | cons chunk rest ih =>
    rw [List.length_cons, Nat.add_right_comm]
    exact .chunk rfl ih

/-- The run hands out the items of its transcript. An instruction takes three steps at most. -/
theorem gives_of_plays {resume : Option Value} {s : S} {core : Core} {t : Transcript}
    (h : source.Plays resume s core t) (pulled : Nat) :
    ∃ n ≤ 3 * t.stages.length + 1,
      (feed source).Gives n ⟨⟨s, pulled, false⟩, resume, core, [], false⟩ t.items := by
  induction h generalizing pulled with
  | @ended resume s core h =>
    have hp : (⟨s, pulled, false⟩ : Pump S).step source resume = _ := Pump.step_end rfl h
    refine ⟨1, by simp, ?_⟩
    rcases hf : core.finish with e | u
    · rw [Transcript.items]
      exact .failed (by simp [feed, step, hp, hf]; rfl)
    · exact .quiet (by simp [feed, step, hp, hf]; rfl) (.ended rfl)
  | @failed resume s core e h =>
    have hp : (⟨s, pulled, false⟩ : Pump S).step source resume = _ := Pump.step_error rfl h
    exact ⟨1, by simp, .failed (by simp [feed, step, hp]; rfl)⟩
  | @refused resume s core v e core' outputs h hd =>
    have hp : (⟨s, pulled, false⟩ : Pump S).step source resume = _ := Pump.step_item rfl h
    exact ⟨1, by simp, .failed (by simp [feed, step, hp, hd]; rfl)⟩
  | @carried resume s core v next core' outputs t h hd ht ih =>
    have hp : (⟨s, pulled, false⟩ : Pump S).step source resume = _ := Pump.step_item rfl h
    have hlen : (outputs.filterMap chunkOf).length ≤ 2 :=
      Nat.le_trans (List.length_filterMap_le _ _) (Core.length_outputs_le hd)
    obtain ⟨n, hn, hg⟩ := ih (pulled + 1)
    refine ⟨(outputs.filterMap chunkOf).length + n + 1, ?_, ?_⟩
    · rw [Transcript.stages_after, List.length_cons]
      omega
    · rw [Transcript.items_after]
      exact .quiet (by simp [feed, step, hp, hd]; rfl) (gives_chunks _ hg)

theorem items_of_gives {n : Nat} {r : PureRun S} {items : List (Except EffectError String)}
    (h : (feed source).Gives n r items) {steps : Nat} (hn : n ≤ steps) :
    r.items source steps = items := by
  induction h generalizing steps with
  | ended h =>
    have h : step source _ = none := h
    cases steps <;> simp [PureRun.items, h]
  | failed h =>
    obtain ⟨steps, rfl⟩ := Nat.exists_eq_add_one_of_ne_zero (by omega : steps ≠ 0)
    have h : step source _ = _ := h
    rw [PureRun.items, h]
    simp only
    rw [items_ended steps (ended_of_error h)]
  | quiet h _ ih =>
    obtain ⟨steps, rfl⟩ := Nat.exists_eq_add_one_of_ne_zero (by omega : steps ≠ 0)
    have h : step source _ = _ := h
    rw [PureRun.items, h]
    exact ih (by omega)
  | chunk h _ ih =>
    obtain ⟨steps, rfl⟩ := Nat.exists_eq_add_one_of_ne_zero (by omega : steps ≠ 0)
    have h : step source _ = _ := h
    rw [PureRun.items, h]
    exact congrArg _ (ih (by omega))

theorem evaluate_of_plays {table : Table} {state : S} {t : Transcript} {limit : Nat}
    (h : source.Plays none state (.new table) t) (hl : t.stages.length ≤ limit) :
    evaluate source limit table state = t.items := by
  obtain ⟨n, hn, hg⟩ := gives_of_plays h 0
  exact items_of_gives hg (by unfold stepsFor; omega)

/-- Empty texts are no chunks, but they are not missed. -/
theorem join_chunks (outputs : List Output) :
    String.join (outputs.filterMap chunkOf) = String.join (outputs.map Output.content) := by
  induction outputs with
  | nil => rfl
  | cons output rest ih =>
    rw [List.map_cons, String.join_cons, ← ih]
    cases output with
    | control escapes => simp [chunkOf, Output.content]
    | text channel t => by_cases h : t = "" <;> simp [chunkOf, Output.content, h]

theorem emitted_items (t : Transcript) :
    Feed.emitted t.items = String.join (t.outputs.map Output.content) := by
  rw [← join_chunks, Feed.emitted, Transcript.items, List.filterMap_append]
  cases t.verdict <;>
    simp [List.filterMap_map, Function.comp_def, Except.toOption, List.filterMap_cons,
      Transcript.chunks]

theorem verdict_items (t : Transcript) : Feed.verdict t.items = t.verdict := by
  unfold Transcript.items
  induction t.chunks with
  | nil => cases t.verdict <;> rfl
  | cons chunk rest ih => exact ih

theorem join_append (chunks : List String) (rest : List (Except EffectError String)) :
    join (chunks.map .ok ++ rest) = (join rest).map (String.join chunks ++ ·) := by
  induction chunks with
  | nil => cases h : join rest <;> simp [h, Except.map]
  | cons chunk chunks ih =>
    simp only [List.map_cons, List.cons_append, join, ih]
    cases join rest <;> simp [Except.map, String.append_assoc]

/-- The run of a source in one piece is what it emits, unless the run fails. -/
theorem join_items (t : Transcript) : join t.items = t.verdict.map fun _ => Feed.emitted t.items := by
  rw [emitted_items, ← join_chunks, Transcript.items, join_append]
  cases t.verdict <;> simp [join, Except.map, Transcript.chunks]

end PureRun

end StyledEffects
