import StyledEffects.Proofs.Chunks
import StyledEffects.Proofs.Rendering
import StyledEffects.Proofs.Rendition

/-! What a reader of a run sees. Every text is shown in the style of the frame that is on top
when it is written, with nothing left of the frames below or of those popped before, both in
the chunks of a run and on the primary stream. -/

namespace StyledEffects

open Json Style Wire Output

namespace Output

def shown (r : Rendition) : Output → List (Char × Rendition)
  | .text _ t => t.toList.map (·, r)
  | .control _ => []

theorem sentTo_controls (last : Option Channel) (bursts : List String) :
    sentTo .primary last (bursts.map .control) = bursts.map .control := by
  induction bursts with
  | nil => rfl
  | cons escapes rest ih => simp [sentTo, ih]

end Output

/-- What the texts of a run look like when the style at each moment is that of the frame on
top. -/
def display (frame : Frame) : List Stage → List (Char × Rendition)
  | [] => []
  | stage :: rest =>
    stage.outputs.flatMap (shown frame.rendition) ++ display stage.core.stack.current rest

def lastFrame (frame : Frame) (stages : List Stage) : Frame :=
  stages.foldl (fun _ stage => stage.core.stack.current) frame

def primaryStages (last : Option Channel) : List Stage → List Stage
  | [] => []
  | stage :: rest =>
    ⟨stage.core, sentTo .primary last stage.outputs⟩ ::
      primaryStages (lastOf last stage.outputs) rest

/-- Stages that write texts without escapes in the style in force, or else go from the style
in force to another one. -/
inductive Styled : Frame → List Stage → Prop
  | nil {frame} : Styled frame []
  | write {core outputs rest}
      (ht : ∀ o ∈ outputs, ∃ channel t, o = .text channel t ∧ esc ∉ t.toList)
      (hr : Styled core.stack.current rest) :
    Styled core.stack.current (⟨core, outputs⟩ :: rest)
  | change {frame core rest} (hr : Styled core.stack.current rest) :
    Styled frame (⟨core, (Transition.between .ansi frame core.stack.current).bursts.map
      .control⟩ :: rest)

theorem Source.Plays.styled {S : Type} {source : Source S} {resume : Option Value} {s : S}
    {core : Core} {t : Transcript} (h : source.Plays resume s core t)
    (ht : core.table = .ansi) : Styled core.stack.current t.stages := by
  induction h with
  | ended => exact .nil
  | failed => exact .nil
  | refused => exact .nil
  | carried h hd _ ih =>
    obtain ⟨-, effect, -, hp⟩ := Core.dispatch_ok hd
    rcases Core.perform_cases hp with ⟨text, channel, -, he, rfl, rfl⟩ | ⟨-, htable, rfl⟩
    · refine .write (fun o ho => ?_) (ih ht)
      obtain rfl := List.mem_singleton.1 ho
      exact ⟨channel, text, rfl, by simpa [Core.hasEscape] using he⟩
    · rw [ht] at htable ⊢
      exact .change (ih htable)

theorem Source.Plays.lastFrame_of_ok {S : Type} {source : Source S} {resume : Option Value}
    {s : S} {core : Core} {t : Transcript} (h : source.Plays resume s core t)
    (hv : t.verdict = .ok ()) : lastFrame core.stack.current t.stages = ⟨[]⟩ := by
  induction h with
  | @ended _ _ core h =>
    cases hs : core.stack with
    | empty => rfl
    | on frame below depth => simp [Core.finish, hs, Stack.isEmpty] at hv
  | failed => simp at hv
  | refused => simp at hv
  | carried _ _ _ ih => exact ih hv

theorem Styled.primaryStages {frame : Frame} {stages : List Stage} (h : Styled frame stages)
    (last : Option Channel) : Styled frame (primaryStages last stages) := by
  induction h generalizing last with
  | nil => exact .nil
  | @write core outputs rest ht _ ih =>
    refine .write ?_ (ih _)
    clear ih
    induction outputs generalizing last with
    | nil => simp [sentTo]
    | cons output outputs ih =>
      obtain ⟨⟨channel, t, rfl, he⟩, hrest⟩ := List.forall_mem_cons.1 ht
      cases channel with
      | primary =>
        exact List.forall_mem_cons.2 ⟨⟨.primary, _, rfl, esc_notMem_lead he _ _⟩, ih hrest _⟩
      | secondary => exact ih hrest _
  | @change frame core rest _ ih =>
    rw [StyledEffects.primaryStages, sentTo_controls]
    exact .change (ih _)

theorem outputs_primaryStages (last : Option Channel) (stages : List Stage) :
    (primaryStages last stages).flatMap Stage.outputs =
      sentTo .primary last (stages.flatMap Stage.outputs) := by
  induction stages generalizing last with
  | nil => rfl
  | cons stage rest ih =>
    rw [primaryStages, List.flatMap_cons, ih, List.flatMap_cons, sentTo_append]

theorem lastFrame_primaryStages (frame : Frame) (last : Option Channel) (stages : List Stage) :
    lastFrame frame (primaryStages last stages) = lastFrame frame stages := by
  induction stages generalizing frame last with
  | nil => rfl
  | cons stage rest ih => exact ih _ _

theorem feedAll_texts {outputs : List Output}
    (h : ∀ o ∈ outputs, ∃ channel t, o = .text channel t ∧ esc ∉ t.toList) (r : Rendition)
    (seen : List (Char × Rendition)) :
    Terminal.feedAll (String.join (outputs.map content)) ⟨r, .text, seen⟩ =
      ⟨r, .text, (outputs.flatMap (shown r)).reverse ++ seen⟩ := by
  induction outputs generalizing seen with
  | nil => rfl
  | cons output rest ih =>
    obtain ⟨⟨channel, t, rfl, he⟩, hrest⟩ := List.forall_mem_cons.1 h
    rw [List.map_cons, String.join_cons, Terminal.feedAll_append, content,
      Terminal.feedAll_plain he, ih hrest]
    simp [shown]

/-- A terminal in the style in force at the start of some stages shows their texts as it
should and is then in the style in force at their end. -/
theorem Styled.feedAll {frame : Frame} {stages : List Stage} (h : Styled frame stages)
    (seen : List (Char × Rendition)) :
    Terminal.feedAll (String.join ((stages.flatMap Stage.outputs).map content))
        ⟨frame.rendition, .text, seen⟩ =
      ⟨(lastFrame frame stages).rendition, .text, (display frame stages).reverse ++ seen⟩ := by
  induction h generalizing seen with
  | nil => rfl
  | @write core outputs rest ht _ ih =>
    rw [List.flatMap_cons, List.map_append, String.join_append, Terminal.feedAll_append,
      feedAll_texts ht, ih]
    simp [display, lastFrame]
  | @change frame core rest _ ih =>
    have quiet : ((Transition.between .ansi frame core.stack.current).bursts.map
        Output.control).flatMap (shown frame.rendition) = [] := by
      simp [shown]
    rw [List.flatMap_cons, List.map_append, String.join_append, Terminal.feedAll_append,
      List.map_map]
    simp only [Function.comp_def, content, List.map_id']
    rw [Transition.feedAll_between, ih, display, quiet]
    rfl

section Runs

variable {S σ τ : Type} [OutputStream σ] [OutputStream τ] {source : Source S} {state : S}
  {t : Transcript}

theorem Source.Plays.feedAll_chunks (h : source.Plays none state (.new .ansi) t) :
    Terminal.start.feedAll (String.join (t.outputs.map content)) =
      ⟨(lastFrame ⟨[]⟩ t.stages).rendition, .text, (display ⟨[]⟩ t.stages).reverse⟩ := by
  have := (h.styled rfl).feedAll []
  rw [List.append_nil] at this
  exact this

theorem Source.Plays.feedAll_primary (h : source.Plays none state (.new .ansi) t) :
    Terminal.start.feedAll (String.join (linesOn .primary (routes none t.outputs))) =
      ⟨(lastFrame ⟨[]⟩ t.stages).rendition, .text,
        (display ⟨[]⟩ (primaryStages none t.stages)).reverse⟩ := by
  have := ((h.styled rfl).primaryStages none).feedAll []
  rw [outputs_primaryStages, ← join_linesOn_routes, lastFrame_primaryStages,
    List.append_nil] at this
  exact this

theorem Source.Plays.plain_of_ok (h : source.Plays none state (.new .ansi) t)
    (hv : t.verdict = .ok ()) : (lastFrame ⟨[]⟩ t.stages).rendition = .default := by
  have last : lastFrame ⟨[]⟩ t.stages = ⟨[]⟩ := h.lastFrame_of_ok hv
  rw [last]
  rfl

theorem Source.Plays.feedAll_join (h : source.Plays none state (.new .ansi) t) {text : String}
    (ht : PureRun.join t.items = .ok text) :
    Terminal.start.feedAll text = ⟨.default, .text, (display ⟨[]⟩ t.stages).reverse⟩ := by
  rw [PureRun.join_items] at ht
  cases hv : t.verdict with
  | error e => simp [hv, Except.map] at ht
  | ok u =>
    obtain rfl : _ = text := by simpa [hv, Except.map] using ht
    rw [PureRun.emitted_items, h.feedAll_chunks, h.plain_of_ok hv]

/-- What a terminal shows of a run onto two streams, at any time, is a first part of what is
to be shown. -/
theorem IoRun.shown_prefix {primary : σ} {secondary : τ} {moves : List Move}
    {r : IoRun S (Watched σ) (Watched τ)} (h : source.Plays none state (.new .ansi) t)
    (hr : (new .ansi state (Watched.new primary) (Watched.new secondary)).after source moves =
      some r) :
    (Terminal.start.feedAll (String.join r.sink.primary.stream.writes)).shown.reverse <+:
      display ⟨[]⟩ (primaryStages none t.stages) := by
  obtain ⟨budget, start⟩ := onCourse_new h primary secondary
  obtain ⟨b, -, course⟩ := start.after hr
  obtain ⟨rest, hrest⟩ := course.primary_prefix
  have grown := Terminal.shown_feedAll (String.join rest)
    (Terminal.start.feedAll (String.join r.sink.primary.stream.writes))
  rw [← Terminal.feedAll_append, ← String.join_append, hrest, h.feedAll_primary] at grown
  rw [← List.reverse_reverse (display _ _)]
  exact List.reverse_prefix.2 grown

/-- Fed with what a run has put out, a terminal shows each character of each text in the
style of the frame on top, and is back in its default style after a run without an error.
While a run onto two streams goes on, and if a stream fails, it shows a first part of that.
Every schedule of such a run comes to its end. -/
theorem texts_shown_in_style_on_top (source : Source S) (state : S) (items : List Item)
    (primary : σ) (secondary : τ) (h : source.Yields state items) :
    let stages := (Transcript.of (.new .ansi) items).stages
    let start := IoRun.new .ansi state (Watched.new primary) (Watched.new secondary)
    (∀ limit, items.length ≤ limit →
      let chunks := PureRun.evaluate source limit .ansi state
      (Terminal.start.feedAll (Feed.emitted chunks)).shown.reverse = display ⟨[]⟩ stages ∧
      ∀ text, PureRun.join chunks = .ok text →
        Terminal.start.feedAll text = ⟨.default, .text, (display ⟨[]⟩ stages).reverse⟩) ∧
    (∃ budget, start.Ends source budget) ∧
    ∀ moves r, start.after source moves = some r →
      let screen := Terminal.start.feedAll (String.join r.sink.primary.stream.writes)
      screen.shown.reverse <+: display ⟨[]⟩ (primaryStages none stages) ∧
      (Stream.NeverFails primary → Stream.NeverFails secondary →
        ∀ result, r.result? = some result →
          screen.shown.reverse = display ⟨[]⟩ (primaryStages none stages) ∧
          (result = .ok () → screen.rendition = .default ∧ screen.progress = .text)) := by
  have plays := h.plays (.new .ansi)
  refine ⟨fun limit hl => ?_, IoRun.ends_of_plays plays primary secondary,
    fun moves r hr => ⟨IoRun.shown_prefix plays hr, ?_⟩⟩
  · rw [PureRun.evaluate_of_plays plays (Nat.le_trans (Transcript.length_stages_of_le _ _) hl)]
    refine ⟨?_, fun text ht => plays.feedAll_join ht⟩
    rw [PureRun.emitted_items, plays.feedAll_chunks, List.reverse_reverse]
  · intro hp hs result hres
    obtain ⟨rfl, hw, -⟩ := IoRun.written_of_plays plays hp hs hr hres
    simp only [hw, plays.feedAll_primary, List.reverse_reverse, true_and, and_true]
    exact plays.plain_of_ok

def boldOnBold : List Item :=
  [.ok (Instruction.push [.bold]), .ok (Instruction.push [.bold, .dim, .red]),
    .ok (Instruction.write "a" 1), .ok Instruction.pop, .ok Instruction.pop,
    .ok (Instruction.write "b" 1)]

/-- Bold and dim end with the same escape, and the second text has nothing of either: in the
chunks, and on the primary stream at the end of every run, which there is. -/
theorem boldOnBold_shown :
    let shown := [('a', { Rendition.default with
        bold := true, dim := true, foreground := some (.color ⟨.red, false⟩) }),
      ('b', Rendition.default)]
    let start := IoRun.new .ansi boldOnBold (Watched.new (Recorder.new none false))
      (Watched.new (Recorder.new none false))
    (Terminal.start.feedAll (Feed.emitted
      (PureRun.evaluate Source.items 6 .ansi boldOnBold))).shown.reverse = shown ∧
    (∀ moves r result, start.after Source.items moves = some r → r.result? = some result →
      let screen := Terminal.start.feedAll (String.join r.sink.primary.stream.writes)
      result = .ok () ∧ screen.shown.reverse = shown ∧ screen.rendition = .default) ∧
    ∃ moves r, start.after Source.items moves = some r ∧ r.result?.isSome := by
  intro shown start
  have yields := Source.yields_items boldOnBold
  have never := Stream.neverFails_recorder (r := Recorder.new none false) rfl
  obtain ⟨chunks, ⟨budget, ends⟩, onStreams⟩ :=
    texts_shown_in_style_on_top Source.items boldOnBold boldOnBold (Recorder.new none false)
      (Recorder.new none false) yields
  refine ⟨(chunks 6 (by decide)).1, ?_, ends.reached⟩
  intro moves r result hr hres
  obtain ⟨rfl, -, -⟩ := IoRun.written_of_plays (yields.plays _) never never hr hres
  obtain ⟨all, back⟩ := (onStreams moves r hr).2 never never _ hres
  exact ⟨rfl, all, (back rfl).1⟩

end Runs

end StyledEffects
