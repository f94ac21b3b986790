import StyledEffects.Proofs.Colour
import StyledEffects.Proofs.Sent

/-! The two ways to run a source agree. A run into chunks comes to an end exactly when a run
onto two streams can, with the same result, and its chunks are what the other run sends to
its streams, without the line feeds that are put before texts. -/

namespace StyledEffects

open Json Style Wire Output

namespace PureRun

variable {S : Type} {source : Source S}

/-- A step of a run that goes on ends a play or leaves the rest of one to be played. -/
theorem step_open {r r' : PureRun S} {item : Option (Except EffectError String)}
    (ho : r.ended = false) (hf : r.pump.finished = false)
    (h : r.step source = some (item, r')) :
    (∃ t, source.Plays r.resume r.pump.state r.core t) ∨
      (r'.ended = false ∧ r'.pump.finished = false ∧
        ∀ t', source.Plays r'.resume r'.pump.state r'.core t' →
          ∃ t, source.Plays r.resume r.pump.state r.core t) := by
  cases hc : r.chunks with
  | cons chunk rest =>
    obtain ⟨-, rfl⟩ := by simpa [step, ho, hc] using h
    exact .inr ⟨rfl, hf, fun t ht => ⟨t, ht⟩⟩
  | nil =>
    rcases ha : (source.advance r.resume r.pump.state).1.result with e | _ | v
    · exact .inl ⟨_, .failed ha⟩
    · exact .inl ⟨_, .ended ha⟩
    · rcases hd : r.core.dispatch v with ⟨e | next, core, outputs⟩
      · exact .inl ⟨_, .refused ha hd⟩
      · obtain ⟨-, rfl⟩ := by simpa [step, ho, hc, Pump.step_item hf ha, hd] using h
        exact .inr ⟨rfl, rfl, fun t ht => ⟨_, .carried ha hd ht⟩⟩

theorem step_ne_none {r : PureRun S} (ho : r.ended = false) : r.step source ≠ none := by
  unfold step
  rw [if_neg (by simp [ho])]
  split
  · simp
  · split
    · simp
    · split <;> simp
    · split <;> simp

theorem plays_of_gives {n : Nat} {r : PureRun S} {items : List (Except EffectError String)}
    (h : (feed source).Gives n r items) (ho : r.ended = false)
    (hf : r.pump.finished = false) :
    ∃ t, source.Plays r.resume r.pump.state r.core t := by
  induction h with
  | ended h => exact absurd h (step_ne_none ho)
  | failed h =>
    rcases step_open ho hf h with played | ⟨ho', -⟩
    · exact played
    · rw [ended_of_error h] at ho'
      cases ho'
  | quiet h _ ih =>
    rcases step_open ho hf h with played | ⟨ho', hf', rest⟩
    · exact played
    · obtain ⟨t, ht⟩ := ih ho' hf'
      exact rest t ht
  | chunk h _ ih =>
    rcases step_open ho hf h with played | ⟨ho', hf', rest⟩
    · exact played
    · obtain ⟨t, ht⟩ := ih ho' hf'
      exact rest t ht

theorem gives_unique {P : Type} {feed : Feed P} {n m : Nat} {s : P}
    {items items' : List (Except EffectError String)} (h : feed.Gives n s items)
    (h' : feed.Gives m s items') : items = items' := by
  induction h generalizing m items' with
  | ended h => cases h' <;> simp_all
  | failed h => cases h' <;> simp_all
  | quiet h _ ih =>
    cases h' with
    | quiet h' hi' =>
      obtain rfl : _ = _ := by simpa [h] using h'
      exact ih hi'
    | _ => simp_all
  | chunk h _ ih =>
    cases h' with
    | chunk h' hi' =>
      obtain ⟨rfl, rfl⟩ := by simpa [h] using h'
      rw [ih hi']
    | _ => simp_all

/-- A run into chunks comes to its end exactly when its source plays to the end. -/
theorem exists_gives_iff {table : Table} {state : S} :
    (∃ n items, (feed source).Gives n (new table state) items) ↔
      ∃ t, source.Plays none state (.new table) t := by
  constructor
  · rintro ⟨n, items, h⟩
    exact plays_of_gives h rfl rfl
  · rintro ⟨t, plays⟩
    obtain ⟨n, -, h⟩ := gives_of_plays plays 0
    exact ⟨n, t.items, h⟩

theorem getLast?_items (t : Transcript) (e : EffectError) :
    t.items.getLast? = some (.error e) ↔ t.verdict = .error e := by
  cases hv : t.verdict with
  | error e' => simp [Transcript.items, hv]
  | ok u =>
    have : ∀ item ∈ t.items, item ≠ .error e := by simp [Transcript.items, hv]
    simp only [reduceCtorEq, iff_false]
    exact fun h => this _ (List.mem_of_getLast? h) rfl

end PureRun

namespace Sent

theorem on_eq_of_forall {channel : Channel} {sent : List Sent}
    (h : ∀ s ∈ sent, s.output.channel = channel) : on channel sent = sent.map Sent.output := by
  rw [on, List.filter_eq_self]
  intro output ho
  obtain ⟨s, hs, rfl⟩ := List.mem_map.1 ho
  exact decide_eq_true (h s hs)

/-- As long as no text goes to the secondary channel no line feed is put before any. -/
theorem map_content_sendings {last : Option Channel} {outputs : List Output}
    (hl : last ≠ some .secondary)
    (h : ∀ s ∈ sendings last outputs, s.output.channel = .primary) :
    (sendings last outputs).map (·.output.content) = outputs.map content := by
  induction outputs generalizing last with
  | nil => rfl
  | cons output rest ih =>
    obtain ⟨ho, hr⟩ := List.forall_mem_cons.1 h
    cases output with
    | control escapes => simpa [sendings, sending, lastAfter, content] using ih hl hr
    | text channel t =>
      obtain rfl : channel = .primary := ho
      have quiet : lead last .primary t = "" := by
        unfold lead
        cases last with
        | none => simp
        | some c => cases c <;> simp_all
      have := ih (by simp [lastAfter]) hr
      simpa [sendings, sending, lastAfter, content, quiet] using this

end Sent

section Runs

variable {S σ τ : Type} [OutputStream σ] [OutputStream τ]

/-- A run onto two streams that never fail and a run into chunks of the same source come to
their ends together, and then the results are the same, the chunks are what has been sent to
the streams without the line feeds put before texts, and the streams have what has been sent
to them. With texts for the primary channel only, that is all of the chunks. -/
theorem chunks_agree_with_streams (source : Source S) (state : S) (table : Table) (primary : σ)
    (secondary : τ) (hp : Stream.NeverFails primary) (hs : Stream.NeverFails secondary) :
    let start := IoRun.new table state (Watched.new primary) (Watched.new secondary)
    ((∃ moves r, start.after source moves = some r ∧ r.result?.isSome) ↔
      ∃ n items, (PureRun.feed source).Gives n (PureRun.new table state) items) ∧
    ∀ moves r result n items, start.after source moves = some r → r.result? = some result →
      (PureRun.feed source).Gives n (PureRun.new table state) items →
        let sent := start.sent source moves
        (∀ limit, n ≤ PureRun.stepsFor limit →
          PureRun.evaluate source limit table state = items) ∧
        (∀ e, items.getLast? = some (.error e) ↔ result = .error e) ∧
        Feed.emitted items = String.join (sent.map Sent.own) ∧
        r.sink.primary.stream.bytes = bytes (Sent.on .primary sent) ∧
        r.sink.secondary.stream.bytes = bytes (Sent.on .secondary sent) ∧
        ((∀ s ∈ sent, s.output.channel = .primary) →
          r.sink.primary.stream.bytes = Text.utf8 (Feed.emitted items)) := by
  intro start
  refine ⟨by rw [IoRun.exists_end_iff, PureRun.exists_gives_iff], ?_⟩
  intro moves r result n items hr hres gives sent
  obtain ⟨t, plays, rfl, h₁, h₂⟩ := IoRun.plays_of_run hr hres hp hs
  obtain ⟨m, -, gives'⟩ := PureRun.gives_of_plays plays 0
  obtain rfl : items = t.items := PureRun.gives_unique gives gives'
  have all : sent = sendings none t.outputs := IoRun.sent_of_plays plays hr (by rw [hres]; rfl)
  have on (channel : Channel) : Sent.on channel sent = sentTo channel none t.outputs := by
    rw [all, sentTo_eq_filter, Sent.on]
  refine ⟨fun limit => PureRun.items_of_gives gives, PureRun.getLast?_items t, ?_, ?_, ?_, ?_⟩
  · rw [PureRun.emitted_items, all, Sent.map_own_sendings]
  · rw [h₁, on]
  · rw [h₂, on]
  · intro one
    have texts : sent.map (·.output.content) = t.outputs.map content := by
      rw [all] at one ⊢
      exact Sent.map_content_sendings (by simp) one
    rw [h₁, ← on, Sent.on_eq_of_forall one, bytes, List.map_map, PureRun.emitted_items, ← texts]
    rfl

def textsAndPop : List Item :=
  [.ok (Instruction.write "a" 2), .ok (Instruction.write "b" 1), .ok Instruction.pop]

def textsAndPopRun : IoRun (List Item) (Watched Recorder) (Watched Recorder) :=
  .new .ansi textsAndPop (.new (.new none false)) (.new (.new none false))

/-- One order of its moves: the loop first, then one task after the other. -/
def loopFirst : List Move :=
  List.replicate 6 .loop ++ List.replicate 6 (.writer .secondary) ++
    List.replicate 7 (.writer .primary)

/-- The line feed before the second text is on its stream only, and the error is in both. -/
theorem textsAndPop_agree :
    let items := PureRun.evaluate Source.items 2 .ansi textsAndPop
    ∃ r, textsAndPopRun.after Source.items loopFirst = some r ∧
      r.result? = some (.error .popOnEmptyStack) ∧
      items.getLast? = some (.error .popOnEmptyStack) ∧ Feed.emitted items = "ab" ∧
      String.join ((textsAndPopRun.sent Source.items loopFirst).map Sent.own) = "ab" ∧
      r.sink.primary.stream.bytes = Text.utf8 "\nb" ∧
      r.sink.secondary.stream.bytes = Text.utf8 "a" := by
  intro items
  obtain ⟨r, hr, hres⟩ : ∃ r, textsAndPopRun.after Source.items loopFirst = some r ∧
    r.result? = some (.error .popOnEmptyStack) := ⟨_, rfl, rfl⟩
  obtain ⟨n, hn, gives⟩ :=
    PureRun.gives_of_plays ((Source.yields_items textsAndPop).plays (.new .ansi)) 0
  obtain ⟨all, last, own, primary, secondary, -⟩ :=
    (chunks_agree_with_streams Source.items textsAndPop .ansi _ _
      (Stream.neverFails_recorder rfl) (Stream.neverFails_recorder rfl)).2 loopFirst r _ n _ hr
      hres gives
  have sent : textsAndPopRun.sent Source.items loopFirst =
      [⟨.text .secondary "a", false⟩, ⟨.text .primary "\nb", true⟩] := by decide
  rw [textsAndPopRun] at sent
  rw [sent] at primary secondary
  have emitted : Feed.emitted items = "ab" := by decide
  rw [← all 2 hn] at last own
  exact ⟨r, hr, hres, (last _).2 rfl, emitted, own.symm.trans emitted, primary, secondary⟩

end Runs

end StyledEffects
