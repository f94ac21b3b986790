import StyledEffects.Proofs.Chunks
import StyledEffects.Proofs.Erasing
import StyledEffects.Proofs.Rendering

/-! Colour only adds escapes. The style table has no say in what a run does: with any two of
them it takes the same errors and the same new lines, and puts out the same texts. With the
table of a terminal the rest of the output is complete settings, and erasing them leaves what
comes out without colour. -/

namespace StyledEffects

open Json Style Wire Output

namespace Output

def isText : Output → Bool
  | .text .. => true
  | .control _ => false

@[simp] theorem filter_text (channel : Channel) (t : String) (rest : List Output) :
    (.text channel t :: rest : List Output).filter isText =
      .text channel t :: rest.filter isText := rfl

@[simp] theorem filter_control (escapes : String) (rest : List Output) :
    (.control escapes :: rest : List Output).filter isText = rest.filter isText := rfl

theorem filter_controls (bursts : List String) : (bursts.map control).filter isText = [] := by
  induction bursts with
  | nil => rfl
  | cons escapes rest ih => rw [List.map_cons, filter_control, ih]

/-- A text without escape characters, or a burst made of complete settings. -/
def Clean : Output → Prop
  | .text _ t => esc ∉ t.toList
  | .control escapes => ∃ settings : List Sgr, escapes = String.join (settings.map Sgr.text)

def bytes (outputs : List Output) : List UInt8 := Text.utf8 (String.join (outputs.map content))

theorem bytes_cons (output : Output) (rest : List Output) :
    bytes (output :: rest) = Text.utf8 output.content ++ bytes rest := by
  simp [bytes]

theorem erase_bytes {outputs : List Output} (h : ∀ o ∈ outputs, o.Clean) :
    erase (bytes outputs) = bytes (outputs.filter isText) := by
  induction outputs with
  | nil => exact erase_nil
  | cons output rest ih =>
    obtain ⟨ho, hr⟩ := List.forall_mem_cons.1 h
    rw [bytes_cons]
    cases output with
    | text channel t =>
      rw [filter_text, bytes_cons, content, erase_append (escByte_notMem_utf8 ho), ih hr]
    | control escapes =>
      obtain ⟨settings, rfl⟩ := ho
      rw [filter_control, content, erase_settings, ih hr]

theorem escByte_notMem_bytes {outputs : List Output} (h : ∀ o ∈ outputs, o.Clean)
    (ht : ∀ o ∈ outputs, o.isText) : escByte ∉ bytes outputs := by
  induction outputs with
  | nil => exact List.not_mem_nil
  | cons output rest ih =>
    obtain ⟨ho, hr⟩ := List.forall_mem_cons.1 h
    obtain ⟨hto, htr⟩ := List.forall_mem_cons.1 ht
    rw [bytes_cons, List.mem_append, not_or]
    cases output with
    | text channel t => exact ⟨escByte_notMem_utf8 ho, ih hr htr⟩
    | control escapes => simp [isText] at hto

/-- Escapes are not counted as texts when it comes to new lines. -/
theorem filter_sentTo (channel : Channel) (last : Option Channel) (outputs : List Output) :
    (sentTo channel last outputs).filter isText =
      sentTo channel last (outputs.filter isText) := by
  induction outputs generalizing last with
  | nil => rfl
  | cons output rest ih =>
    cases output with
    | text c t => by_cases h : c = channel <;> simp [sentTo, ih, h]
    | control escapes => cases channel <;> simp [sentTo, ih]

theorem clean_sentTo {outputs : List Output} (h : ∀ o ∈ outputs, o.Clean) (channel : Channel)
    (last : Option Channel) : ∀ o ∈ sentTo channel last outputs, o.Clean := by
  induction outputs generalizing last with
  | nil => simp [sentTo]
  | cons output rest ih =>
    obtain ⟨ho, hr⟩ := List.forall_mem_cons.1 h
    intro o hm
    cases output with
    | text c t =>
      rcases List.mem_append.1 hm with hm | hm
      · split at hm
        · obtain rfl := List.mem_singleton.1 hm
          exact esc_notMem_lead ho last c
        · simp at hm
      · exact ih hr _ o hm
    | control escapes =>
      rcases List.mem_append.1 hm with hm | hm
      · split at hm
        · obtain rfl := List.mem_singleton.1 hm
          exact ho
        · simp at hm
      · exact ih hr _ o hm

theorem isText_sentTo_secondary (last : Option Channel) (outputs : List Output) :
    ∀ o ∈ sentTo .secondary last outputs, o.isText := by
  induction outputs generalizing last with
  | nil => simp [sentTo]
  | cons output rest ih =>
    intro o hm
    cases output with
    | text c t =>
      rcases List.mem_append.1 hm with hm | hm
      · split at hm
        · obtain rfl := List.mem_singleton.1 hm
          rfl
        · simp at hm
      · exact ih _ o hm
    | control escapes => exact ih _ o hm

end Output

namespace Style.Transition

theorem mem_nonEmpty {a s : String} (h : a ∈ (nonEmpty s).toList) : a = s := by
  unfold nonEmpty at h
  split at h
  · simp at h
  · simpa using h

theorem settings_of_mem_bursts {old new : Frame} {escapes : String}
    (h : escapes ∈ (between .ansi old new).bursts) :
    ∃ settings : List Sgr, escapes = String.join (settings.map Sgr.text) := by
  rcases List.mem_append.1 h with h | h
  · exact ⟨_, (mem_nonEmpty h).trans old.closing_ansi⟩
  · exact ⟨_, (mem_nonEmpty h).trans new.opening_ansi⟩

theorem bursts_plain (old new : Frame) : (between .plain old new).bursts = [] := by
  have blank (spans : List Span) : String.join (spans.map fun _ => "") = "" := by
    induction spans with
    | nil => rfl
    | cons span rest ih => rw [List.map_cons, String.join_cons, ih]; rfl
  simp only [between, Frame.closing, Frame.opening, Table.plain, blank]
  rfl

end Style.Transition

namespace Core

def inTable (table : Table) (core : Core) : Core := ⟨table, core.stack⟩

/-- The style table has no say in the result of an instruction, in the stack after it or in
the texts that it hands over. -/
theorem dispatch_inTable {v : Value} {core core' : Core}
    {result : Except EffectError (Option Value)} {outputs : List Output} (table : Table)
    (h : core.dispatch v = (result, core', outputs)) :
    ∃ outputs', (core.inTable table).dispatch v = (result, core'.inTable table, outputs') ∧
      outputs'.filter isText = outputs.filter isText := by
  unfold dispatch at h ⊢
  cases hd : decode v with
  | error e =>
    obtain ⟨rfl, rfl, rfl⟩ : .error e = result ∧ core = core' ∧ [] = outputs := by
      simpa [hd] using h
    exact ⟨[], rfl, rfl⟩
  | ok effect =>
    rw [hd] at h
    cases effect with
    | write text channel =>
      cases he : hasEscape text with
      | true =>
        obtain ⟨rfl, rfl, rfl⟩ := by simpa [perform, he] using h
        exact ⟨[], by simp [perform, he], rfl⟩
      | false =>
        obtain ⟨rfl, rfl, rfl⟩ := by simpa [perform, he] using h
        exact ⟨_, by simp [perform, he], rfl⟩
    | push spans =>
      obtain ⟨rfl, rfl, rfl⟩ := by simpa [perform] using h
      exact ⟨_, rfl, by rw [filter_controls, filter_controls]⟩
    | pop =>
      cases hs : core.stack with
      | empty =>
        obtain ⟨rfl, rfl, rfl⟩ := by simpa [perform, hs, Stack.pop?] using h
        exact ⟨[], by simp [perform, inTable, hs, Stack.pop?], rfl⟩
      | on frame below depth =>
        obtain ⟨rfl, rfl, rfl⟩ := by simpa [perform, hs, Stack.pop?] using h
        exact ⟨_, by simp [perform, inTable, hs, Stack.pop?]; rfl, by rw [filter_controls, filter_controls]⟩

end Core

namespace Source.Plays

variable {S : Type} {source : Source S} {resume : Option Value} {s : S} {core : Core}
  {t : Transcript}

/-- A source plays the same with any style table. -/
theorem inTable (h : source.Plays resume s core t) (table : Table) :
    ∃ t', source.Plays resume s (core.inTable table) t' ∧ t'.verdict = t.verdict ∧
      t'.stages.length = t.stages.length ∧
      t'.outputs.filter isText = t.outputs.filter isText := by
  induction h with
  | ended h => exact ⟨_, .ended h, rfl, rfl, rfl⟩
  | failed h => exact ⟨_, .failed h, rfl, rfl, rfl⟩
  | refused h hd =>
    obtain ⟨outputs', hd', -⟩ := Core.dispatch_inTable table hd
    exact ⟨_, .refused h hd', rfl, rfl, rfl⟩
  | carried h hd _ ih =>
    obtain ⟨outputs', hd', ho⟩ := Core.dispatch_inTable table hd
    obtain ⟨t', ht', hv, hl, hf⟩ := ih
    refine ⟨_, .carried h hd' ht', hv, by simp [hl], ?_⟩
    rw [Transcript.outputs_after, Transcript.outputs_after, List.filter_append,
      List.filter_append, ho, hf]

theorem clean (h : source.Plays resume s core t) (ht : core.table = .ansi) :
    ∀ o ∈ t.outputs, o.Clean := by
  apply h.forall_outputs (P := Clean)
  · intro channel text he
    simpa [Clean, Core.hasEscape] using he
  · intro old new escapes he
    rw [ht] at he
    exact Transition.settings_of_mem_bursts he

theorem isText (h : source.Plays resume s core t) (ht : core.table = .plain) :
    ∀ o ∈ t.outputs, o.isText := by
  apply h.forall_outputs (P := fun o => o.isText)
  · intro channel text _
    rfl
  · intro old new escapes he
    rw [ht, Transition.bursts_plain] at he
    exact absurd he List.not_mem_nil

theorem colour {state : S} {t' : Transcript} (h : source.Plays none state (.new .ansi) t)
    (h' : source.Plays none state (.new .plain) t') :
    t'.verdict = t.verdict ∧ t'.stages.length = t.stages.length ∧
      t'.outputs = t.outputs.filter Output.isText := by
  obtain ⟨t₁, h₁, hv, hl, hf⟩ := h.inTable .plain
  obtain rfl := h₁.unique h'
  have texts := List.filter_eq_self.2 (h₁.isText rfl)
  exact ⟨hv, hl, by rw [← texts, hf]⟩

theorem exists_inTable {state : S} {table : Table} (table' : Table)
    (h : ∃ t, source.Plays none state (.new table) t) :
    ∃ t, source.Plays none state (.new table') t := by
  obtain ⟨t, ht⟩ := h
  obtain ⟨t', ht', -⟩ := ht.inTable table'
  exact ⟨t', ht'⟩

end Source.Plays

theorem Output.erase_sentTo {outputs : List Output} (h : ∀ o ∈ outputs, o.Clean)
    (channel : Channel) : erase (bytes (sentTo channel none outputs)) =
      bytes (sentTo channel none (outputs.filter isText)) := by
  rw [erase_bytes (clean_sentTo h channel none), filter_sentTo]

theorem Source.Plays.sent_colour {S : Type} {source : Source S} {state : S} {t t' : Transcript}
    (h : source.Plays none state (.new .ansi) t) (h' : source.Plays none state (.new .plain) t') :
    bytes (sentTo .secondary none t.outputs) = bytes (sentTo .secondary none t'.outputs) ∧
      escByte ∉ bytes (sentTo .secondary none t.outputs) ∧
      erase (bytes (sentTo .primary none t.outputs)) =
        bytes (sentTo .primary none t'.outputs) := by
  obtain ⟨-, -, texts⟩ := h.colour h'
  have clean := h.clean rfl
  have onlyTexts := isText_sentTo_secondary none t.outputs
  rw [texts]
  refine ⟨?_, ?_, erase_sentTo clean .primary⟩
  · rw [← filter_sentTo, List.filter_eq_self.2 onlyTexts]
  · exact escByte_notMem_bytes (clean_sentTo clean _ _) onlyTexts

section Runs

variable {S σ τ σ' τ' : Type} [OutputStream σ] [OutputStream τ] [OutputStream σ']
  [OutputStream τ']

def Watched.bytes {ρ : Type} (w : Watched ρ) : List UInt8 := Text.utf8 (String.join w.writes)

/-- A run that has come to its end, over streams that never fail, has a play of its source to
show for it. -/
theorem IoRun.plays_of_run {source : Source S} {state : S} {table : Table} {primary : σ}
    {secondary : τ} {moves : List Move} {r : IoRun S (Watched σ) (Watched τ)}
    {result : Except EffectError Unit}
    (hr : (new table state (Watched.new primary) (Watched.new secondary)).after source moves =
      some r)
    (hres : r.result? = some result) (hp : Stream.NeverFails primary)
    (hs : Stream.NeverFails secondary) :
    ∃ t, source.Plays none state (.new table) t ∧ result = t.verdict ∧
      r.sink.primary.stream.bytes = Output.bytes (sentTo .primary none t.outputs) ∧
      r.sink.secondary.stream.bytes = Output.bytes (sentTo .secondary none t.outputs) := by
  obtain ⟨t, plays⟩ := plays_of_result hr (by rw [hres]; rfl)
  obtain ⟨hv, h₁, h₂⟩ := written_of_plays plays hp hs hr hres
  refine ⟨t, plays, hv, ?_, ?_⟩
  · rw [Watched.bytes, h₁, join_linesOn_routes, Output.bytes]
  · rw [Watched.bytes, h₂, join_linesOn_routes, Output.bytes]

theorem IoRun.exists_end_iff {source : Source S} {state : S} {table : Table} {primary : σ}
    {secondary : τ} :
    (∃ moves r, (new table state (Watched.new primary) (Watched.new secondary)).after source
      moves = some r ∧ r.result?.isSome) ↔ ∃ t, source.Plays none state (.new table) t := by
  constructor
  · rintro ⟨moves, r, hr, h⟩
    exact plays_of_result hr h
  · rintro ⟨t, plays⟩
    obtain ⟨budget, ends⟩ := ends_of_plays plays primary secondary
    exact ends.reached

/-- With and without colour a source runs to the same result and puts out the same, but for
the settings on the primary stream. If it plays to the end, so does every schedule of either
run. -/
theorem colour_only_adds_escapes (source : Source S) (state : S) (primary : σ) (secondary : τ)
    (primary' : σ') (secondary' : τ') (hp : Stream.NeverFails primary)
    (hs : Stream.NeverFails secondary) (hp' : Stream.NeverFails primary')
    (hs' : Stream.NeverFails secondary') :
    let ansi := IoRun.new .ansi state (Watched.new primary) (Watched.new secondary)
    let plain := IoRun.new .plain state (Watched.new primary') (Watched.new secondary')
    ((∃ moves r, ansi.after source moves = some r ∧ r.result?.isSome) ↔
      ∃ moves r, plain.after source moves = some r ∧ r.result?.isSome) ∧
    (∀ t, source.Plays none state (.new .ansi) t →
      ∃ budget, ansi.Ends source budget ∧ plain.Ends source budget) ∧
    (∀ moves r result moves' r' result',
      ansi.after source moves = some r → r.result? = some result →
      plain.after source moves' = some r' → r'.result? = some result' →
        result = result' ∧
        r.sink.secondary.stream.bytes = r'.sink.secondary.stream.bytes ∧
        escByte ∉ r.sink.secondary.stream.bytes ∧
        erase r.sink.primary.stream.bytes = r'.sink.primary.stream.bytes) ∧
    ∀ t limit, source.Plays none state (.new .ansi) t → t.stages.length ≤ limit →
      let coloured := PureRun.evaluate source limit .ansi state
      let bare := PureRun.evaluate source limit .plain state
      Feed.verdict coloured = Feed.verdict bare ∧
      erase (Text.utf8 (Feed.emitted coloured)) = Text.utf8 (Feed.emitted bare) := by
  intro ansi plain
  refine ⟨?_, ?_, ?_, ?_⟩
  · rw [IoRun.exists_end_iff, IoRun.exists_end_iff]
    exact ⟨Source.Plays.exists_inTable .plain, Source.Plays.exists_inTable .ansi⟩
  · intro t plays
    obtain ⟨t', plays', -⟩ := plays.inTable .plain
    exact IoRun.exists_ends_and (IoRun.ends_of_plays plays primary secondary)
      (IoRun.ends_of_plays plays' primary' secondary')
  · intro moves r result moves' r' result' hr hres hr' hres'
    obtain ⟨t, plays, rfl, h₁, h₂⟩ := IoRun.plays_of_run hr hres hp hs
    obtain ⟨t', plays', rfl, h₁', h₂'⟩ := IoRun.plays_of_run hr' hres' hp' hs'
    obtain ⟨hv, -, -⟩ := plays.colour plays'
    rw [h₁, h₁', h₂, h₂']
    exact ⟨hv.symm, plays.sent_colour plays'⟩
  · intro t limit plays hl
    obtain ⟨t', plays', -⟩ := plays.inTable .plain
    obtain ⟨hv, hl', texts⟩ := plays.colour plays'
    rw [PureRun.evaluate_of_plays plays hl, PureRun.evaluate_of_plays plays' (by omega)]
    refine ⟨by rw [PureRun.verdict_items, PureRun.verdict_items, hv], ?_⟩
    rw [PureRun.emitted_items, PureRun.emitted_items, texts]
    exact erase_bytes (plays.clean rfl)

def boldText : List Item :=
  [.ok (Instruction.push [.bold]), .ok (Instruction.write "a" 1), .ok Instruction.pop,
    .ok (Instruction.write "b" 2)]

/-- Of the bold text the text is left, in the chunks and on the primary stream. -/
theorem boldText_erased :
    let ansi := IoRun.new .ansi boldText (Watched.new (Recorder.new none false))
      (Watched.new (Recorder.new none false))
    let plain := IoRun.new .plain boldText (Watched.new (Recorder.new none false))
      (Watched.new (Recorder.new none false))
    Feed.emitted (PureRun.evaluate Source.items 4 .ansi boldText) = "\x1b[1ma\x1b[22mb" ∧
    erase (Text.utf8 "\x1b[1ma\x1b[22mb") = Text.utf8 "ab" ∧
    ∃ moves r moves' r', ansi.after Source.items moves = some r ∧ r.result? = some (.ok ()) ∧
      plain.after Source.items moves' = some r' ∧ r'.result? = some (.ok ()) ∧
      r.sink.primary.stream.writes = ["\x1b[1m", "a", "\x1b[22m"] ∧
      erase r.sink.primary.stream.bytes = Text.utf8 "a" ∧
      r'.sink.primary.stream.bytes = Text.utf8 "a" := by
  intro ansi plain
  have yields := Source.yields_items boldText
  have never := Stream.neverFails_recorder (r := Recorder.new none false) rfl
  obtain ⟨-, ends, onStreams, chunks⟩ := colour_only_adds_escapes Source.items boldText
    (Recorder.new none false) (Recorder.new none false) (Recorder.new none false)
    (Recorder.new none false) never never never never
  have coloured : Feed.emitted (PureRun.evaluate Source.items 4 .ansi boldText) =
      "\x1b[1ma\x1b[22mb" := rfl
  have bare : Feed.emitted (PureRun.evaluate Source.items 4 .plain boldText) = "ab" := rfl
  refine ⟨coloured, ?_, ?_⟩
  · obtain ⟨-, erased⟩ := chunks _ 4 (yields.plays _) (by decide)
    rwa [coloured, bare] at erased
  · obtain ⟨-, ⟨-, -, moves, r, hr, h⟩, -, -, moves', r', hr', h'⟩ := ends _ (yields.plays _)
    obtain ⟨result, hres⟩ := Option.isSome_iff_exists.1 h
    obtain ⟨result', hres'⟩ := Option.isSome_iff_exists.1 h'
    obtain ⟨rfl, written, -⟩ := IoRun.written_of_plays (yields.plays _) never never hr hres
    obtain ⟨-, written', -⟩ := IoRun.written_of_plays (yields.plays _) never never hr' hres'
    obtain ⟨rfl, -, -, erased⟩ := onStreams moves r _ moves' r' _ hr hres hr' hres'
    have text : r'.sink.primary.stream.bytes = Text.utf8 "a" := by
      rw [Watched.bytes, written']
      rfl
    exact ⟨moves, r, moves', r', hr, hres, hr', hres', written, erased.trans text, text⟩

end Runs

end StyledEffects
