import Mathlib.Data.List.Count
import StyledEffects.Proofs.Rendition
import StyledEffects.Proofs.Transcript

/-! Opening and closing in turn. Whatever the style table, and whatever effects are dispatched on
a fresh core, what is put out besides texts opens the frames that come into force, one after the
other, and closes each before the next is opened. When no frame is open in the end, every span
has been closed as often as it has been opened. -/

namespace StyledEffects

open Style Wire

/-! ## Frames in force -/

/-- The frame in force when these frames are open, the innermost first. -/
def inForce (opened : List Frame) : Frame := opened.headD ⟨[]⟩

/-- The frames that are open after a push or a pop. Other effects, and a pop when no frame is
open, give none. -/
def reopened (opened : List Frame) : Effect → Option (List Frame)
  | .write .. => none
  | .push none | .push (some []) => some (inForce opened :: opened)
  | .push (some spans) => some (⟨spans⟩ :: opened)
  | .pop => opened.tail?

def styles : List Frame → List Effect → List Frame
  | _, [] => []
  | opened, effect :: rest =>
    match reopened opened effect with
    | none => styles opened rest
    | some opened => inForce opened :: styles opened rest

theorem Style.Stack.current_eq_inForce (s : Stack) : s.current = inForce s.frames := by
  cases s <;> rfl

/-! ## Effects one after the other -/

def Output.control? : Output → Option String
  | text .. => none
  | control escapes => some escapes

structure Dispatched where
  effect : Effect
  result : Except EffectError Unit
  core : Core
  outputs : List Output

namespace Dispatched

def isChange (d : Dispatched) : Bool :=
  match d.effect, d.result with
  | .push _, .ok () | .pop, .ok () => true
  | _, _ => false

def frame (d : Dispatched) : Frame := d.core.stack.current

end Dispatched

namespace Core

def dispatched (core : Core) (effect : Effect) : Dispatched :=
  let (result, core, outputs) := core.perform effect
  ⟨effect, result, core, outputs⟩

/-- Effects dispatched one after the other. One that fails does not stop those after it. -/
def dispatchAll : List Effect → Core → List Dispatched
  | [], _ => []
  | effect :: rest, core =>
    core.dispatched effect :: (core.dispatched effect).core.dispatchAll rest

def changes (effects : List Effect) (core : Core) : List Dispatched :=
  (core.dispatchAll effects).filter Dispatched.isChange

def controls (effects : List Effect) (core : Core) : List String :=
  (core.dispatchAll effects).flatMap fun d => d.outputs.filterMap Output.control?

def after (effects : List Effect) (core : Core) : Core :=
  effects.foldl (fun core effect => (core.dispatched effect).core) core

end Core

/-- The control output from one frame to another: the escapes that close the one and those that
open the other, unless they are empty. -/
def crossing (table : Table) (old new : Frame) : List Output :=
  ([old.closing table, new.opening table].filter (· ≠ "")).map .control

theorem bursts_between (table : Table) (old new : Frame) :
    (Transition.between table old new).bursts =
      [old.closing table, new.opening table].filter (· ≠ "") := by
  unfold Transition.between Transition.bursts nonEmpty
  by_cases hc : old.closing table = "" <;> by_cases ho : new.opening table = "" <;> simp [hc, ho]

theorem filterMap_control? (bursts : List String) :
    (bursts.map Output.control).filterMap Output.control? = bursts := by
  induction bursts with
  | nil => rfl
  | cons escapes rest ih => rw [List.map_cons, List.filterMap_cons, Output.control?, ih]

theorem join_crossing (table : Table) (old new : Frame) :
    String.join ((crossing table old new).filterMap Output.control?) =
      old.closing table ++ new.opening table := by
  rw [crossing, filterMap_control?, ← bursts_between, Transition.join_bursts]

/-! ## One effect -/

theorem reopened_push (s : Stack) (spans : Option (List Span)) :
    reopened s.frames (.push spans) = some (⟨s.spansFor spans⟩ :: s.frames) := by
  rcases spans with _ | _ | ⟨span, spans⟩
  · rw [reopened, Stack.spansFor, s.current_eq_inForce]
  · rw [reopened, Stack.spansFor, s.current_eq_inForce]
  · rfl

section

variable {core : Core} {effect : Effect}

theorem Core.dispatched_of_kept (h : reopened core.stack.frames effect = none) :
    (core.dispatched effect).isChange = false ∧ (core.dispatched effect).core = core ∧
      (core.dispatched effect).outputs.filterMap Output.control? = [] := by
  cases effect with
  | write text channel =>
    cases he : hasEscape text <;>
      simp [dispatched, perform, he, Dispatched.isChange, Output.control?]
  | push spans =>
    rw [reopened_push] at h
    cases h
  | pop =>
    cases hs : core.stack with
    | on frame below depth => simp [reopened, hs, Stack.frames] at h
    | empty => simp [dispatched, perform, hs, Stack.pop?, Dispatched.isChange]

/-- Any other effect is carried out, and crosses from the frame in force to the next one. -/
theorem Core.dispatched_of_reopened {opened : List Frame}
    (h : reopened core.stack.frames effect = some opened) :
    (core.dispatched effect).isChange = true ∧
      (core.dispatched effect).core.table = core.table ∧
      (core.dispatched effect).core.stack.frames = opened ∧
      (core.dispatched effect).outputs =
        crossing core.table core.stack.current (inForce opened) := by
  cases effect with
  | write text channel => cases h
  | push spans =>
    obtain rfl : ⟨core.stack.spansFor spans⟩ :: core.stack.frames = opened := by
      rw [reopened_push] at h
      exact Option.some.inj h
    refine ⟨rfl, rfl, rfl, ?_⟩
    rw [crossing, ← bursts_between]
    rfl
  | pop =>
    cases hs : core.stack with
    | empty => simp [reopened, hs, Stack.frames] at h
    | on frame below depth =>
      obtain rfl : below.frames = opened := by simpa [reopened, hs, Stack.frames] using h
      rw [crossing, ← bursts_between, ← below.current_eq_inForce]
      simp [dispatched, perform, hs, Stack.pop?, Dispatched.isChange, Stack.current, Stack.top?]

end

/-! ## All effects -/

namespace Core

theorem changes_cons (effect : Effect) (rest : List Effect) (core : Core) :
    core.changes (effect :: rest) =
      if (core.dispatched effect).isChange then
        core.dispatched effect :: (core.dispatched effect).core.changes rest
      else (core.dispatched effect).core.changes rest := by
  rw [changes, dispatchAll, List.filter_cons]
  rfl

theorem controls_cons (effect : Effect) (rest : List Effect) (core : Core) :
    core.controls (effect :: rest) =
      (core.dispatched effect).outputs.filterMap Output.control? ++
        (core.dispatched effect).core.controls rest := by
  rw [controls, dispatchAll, List.flatMap_cons]
  rfl

theorem map_frame_changes (effects : List Effect) (core : Core) :
    (core.changes effects).map Dispatched.frame = styles core.stack.frames effects := by
  induction effects generalizing core with
  | nil => rfl
  | cons effect rest ih =>
    rw [changes_cons, styles]
    cases h : reopened core.stack.frames effect with
    | none =>
      obtain ⟨kept, same, -⟩ := dispatched_of_kept h
      simp only [kept, same, Bool.false_eq_true, if_false]
      exact ih core
    | some opened =>
      obtain ⟨carried, -, rfl, -⟩ := dispatched_of_reopened h
      simp only [carried, if_true, List.map_cons, ih, Dispatched.frame,
        Stack.current_eq_inForce]

/-- Each push and pop crosses from the frame that came into force last to the next one. -/
theorem map_outputs_changes (effects : List Effect) (core : Core) :
    (core.changes effects).map Dispatched.outputs =
      List.zipWith (crossing core.table)
        (core.stack.current :: styles core.stack.frames effects)
        (styles core.stack.frames effects) := by
  induction effects generalizing core with
  | nil => rfl
  | cons effect rest ih =>
    rw [changes_cons, styles]
    cases h : reopened core.stack.frames effect with
    | none =>
      obtain ⟨kept, same, -⟩ := dispatched_of_kept h
      simp only [kept, same, Bool.false_eq_true, if_false]
      exact ih core
    | some opened =>
      obtain ⟨carried, table, rfl, outputs⟩ := dispatched_of_reopened h
      simp only [carried, if_true, List.map_cons, ih, outputs, table,
        Stack.current_eq_inForce, List.zipWith_cons_cons]

theorem controls_eq (effects : List Effect) (core : Core) :
    core.controls effects =
      (core.changes effects).flatMap fun d => d.outputs.filterMap Output.control? := by
  induction effects generalizing core with
  | nil => rfl
  | cons effect rest ih =>
    rw [controls_cons, changes_cons, ih]
    cases h : reopened core.stack.frames effect with
    | none =>
      obtain ⟨kept, -, silent⟩ := dispatched_of_kept h
      simp only [kept, silent, Bool.false_eq_true, if_false, List.nil_append]
    | some opened =>
      obtain ⟨carried, -⟩ := dispatched_of_reopened h
      simp only [carried, if_true, List.flatMap_cons]

/-- The frame in force in the end is the last that came into force, if any did. -/
theorem current_after (effects : List Effect) (core : Core) :
    (core.after effects).stack.current =
      (styles core.stack.frames effects).getLastD core.stack.current := by
  induction effects generalizing core with
  | nil => rfl
  | cons effect rest ih =>
    rw [after, List.foldl_cons, ← after, ih, styles]
    cases h : reopened core.stack.frames effect with
    | none =>
      obtain ⟨-, same, -⟩ := dispatched_of_kept h
      rw [same]
    | some opened =>
      obtain ⟨-, -, rfl, -⟩ := dispatched_of_reopened h
      rw [List.getLastD_cons, ← Stack.current_eq_inForce]

end Core

/-! ## Opening and closing in turn -/

/-- What is put out for frames that come into force one after the other, each of them closed
before the next one is opened. -/
def inTurn {α : Type} (opening closing : Frame → List α) : List Frame → List α
  | [] => []
  | [frame] => opening frame
  | frame :: next :: rest =>
    opening frame ++ closing frame ++ inTurn opening closing (next :: rest)

/-- One end of a span in what is put out: where it is opened or where it is closed. -/
inductive Edge where
  | opened (span : Span)
  | closed (span : Span)
  deriving DecidableEq, Repr

def Edge.text (table : Table) : Edge → String
  | opened span => (table span).opening
  | closed span => (table span).closing

/-- The places where spans are opened and closed: those of a frame are opened in order and
closed in reverse order. -/
def edges : List Frame → List Edge :=
  inTurn (fun frame => frame.spans.map .opened) fun frame => frame.spans.reverse.map .closed

def escapesInTurn (table : Table) (frames : List Frame) : String :=
  String.join (inTurn (fun f => [f.opening table]) (fun f => [f.closing table]) frames)

theorem join_crossings (table : Table) (frame : Frame) (rest : List Frame) :
    frame.opening table ++ String.join ((List.zipWith (crossing table) (frame :: rest) rest).flatMap
      fun outputs => outputs.filterMap Output.control?) =
    escapesInTurn table (frame :: rest) := by
  unfold escapesInTurn
  induction rest generalizing frame with
  | nil => simp [inTurn]
  | cons next rest ih =>
    rw [List.zipWith_cons_cons, List.flatMap_cons, String.join_append, join_crossing, inTurn,
      String.join_append, ← ih next]
    simp [String.append_assoc]

theorem Core.join_controls (effects : List Effect) (core : Core) :
    core.stack.current.opening core.table ++ String.join (core.controls effects) =
      escapesInTurn core.table (core.stack.current :: styles core.stack.frames effects) := by
  rw [← join_crossings, ← map_outputs_changes, List.flatMap_map, controls_eq]

theorem join_edges (table : Table) (frames : List Frame) :
    String.join ((edges frames).map (Edge.text table)) = escapesInTurn table frames := by
  have opening (f : Frame) :
      String.join ((f.spans.map Edge.opened).map (Edge.text table)) = f.opening table := by
    rw [List.map_map]
    rfl
  have closing (f : Frame) :
      String.join ((f.spans.reverse.map Edge.closed).map (Edge.text table)) = f.closing table := by
    rw [List.map_map]
    rfl
  unfold edges escapesInTurn
  induction frames with
  | nil => rfl
  | cons frame rest ih =>
    cases rest with
    | nil => simp only [inTurn, opening, String.join_cons, String.join_nil, String.append_empty]
    | cons next rest =>
      simp only [inTurn, List.map_append, String.join_append, opening, closing, ih,
        String.join_cons, String.join_nil, String.append_empty]

theorem edges_cons_nil (frames : List Frame) : edges (⟨[]⟩ :: frames) = edges frames := by
  cases frames <;> rfl

theorem escapesInTurn_cons_nil (table : Table) (frames : List Frame) :
    escapesInTurn table (⟨[]⟩ :: frames) = escapesInTurn table frames := by
  rw [← join_edges, edges_cons_nil, join_edges]

/-- Up to the frame in force in the end, every span has been closed as often as it has been
opened. -/
theorem count_opened_edges (span : Span) (frame : Frame) (rest : List Frame) :
    (edges (frame :: rest)).count (.opened span) =
      (edges (frame :: rest)).count (.closed span) + (rest.getLastD frame).spans.count span := by
  have opened (spans : List Span) : (spans.map Edge.opened).count (.opened span) =
      spans.count span :=
    List.count_map_of_injective spans _ (fun _ _ h => Edge.opened.inj h) span
  have closed (spans : List Span) : (spans.reverse.map Edge.closed).count (.closed span) =
      spans.count span := by
    rw [List.count_map_of_injective _ _ (fun _ _ h => Edge.closed.inj h), List.count_reverse]
  have unclosed (spans : List Span) : (spans.map Edge.opened).count (.closed span) = 0 := by
    rw [List.count_eq_zero]
    simp
  have unopened (spans : List Span) : (spans.map Edge.closed).count (.opened span) = 0 := by
    rw [List.count_eq_zero]
    simp
  unfold edges
  induction rest generalizing frame with
  | nil => simp only [inTurn, opened, unclosed, List.getLastD_nil, Nat.zero_add]
  | cons next rest ih =>
    -- what is opened here is closed at once, so only the rest counts
    simp only [inTurn, List.count_append, opened, closed, unclosed, unopened, ih next,
      List.getLastD_cons]
    omega

/-- Effects dispatched on a fresh core, with any style table. The frames in force after the
pushes and pops that are carried out are those that the effects ask for. Each push and pop puts
out what closes the frame that came into force last and then what opens the next one, and
nothing else does. So the frames are opened and closed in turn, span by span, and if no frame is
open in the end, each span has been closed as often as it has been opened. -/
theorem frames_opened_and_closed_in_turn (table : Table) (effects : List Effect) :
    let core := Core.new table
    let frames := (core.changes effects).map Dispatched.frame
    frames = styles [] effects ∧
    (core.changes effects).map Dispatched.outputs =
      List.zipWith (crossing table) (⟨[]⟩ :: frames) frames ∧
    core.controls effects =
      ((core.changes effects).flatMap fun d => d.outputs.filterMap Output.control?) ∧
    String.join (core.controls effects) = escapesInTurn table frames ∧
    String.join (core.controls effects) =
      String.join ((edges (styles [] effects)).map (Edge.text table)) ∧
    ((core.after effects).stack = .empty → ∀ span,
      (edges (styles [] effects)).count (.opened span) =
        (edges (styles [] effects)).count (.closed span)) := by
  intro core frames
  have framed : frames = styles [] effects := core.map_frame_changes effects
  have joined : String.join (core.controls effects) = escapesInTurn table (styles [] effects) := by
    have bare : core.stack.current.opening core.table = "" := rfl
    have put := core.join_controls effects
    rw [bare, String.empty_append] at put
    rw [put]
    exact escapesInTurn_cons_nil table _
  refine ⟨framed, ?_, core.controls_eq effects, ?_, ?_, ?_⟩
  · rw [framed]
    exact core.map_outputs_changes effects
  · rw [joined, framed]
  · rw [joined, join_edges]
  · intro h span
    have last : (styles [] effects).getLastD ⟨[]⟩ = ⟨[]⟩ := by
      have current := core.current_after effects
      rw [h] at current
      exact current.symm
    have counts := count_opened_edges span ⟨[]⟩ (styles [] effects)
    rw [edges_cons_nil, last] at counts
    exact counts

def pushAndEcho : List Effect :=
  [.push (some [.bold, .red]), .push none, .write "text" .primary, .pop, .pop]

theorem pushAndEcho_closed : ((Core.new .ansi).after pushAndEcho).stack = .empty ∧
    (edges (styles [] pushAndEcho)).count (.opened .red) = 3 ∧
    (edges (styles [] pushAndEcho)).count (.closed .red) = 3 := by
  have ended : ((Core.new .ansi).after pushAndEcho).stack = .empty := by decide
  have opened : (edges (styles [] pushAndEcho)).count (.opened .red) = 3 := by decide
  obtain ⟨-, -, -, -, -, balanced⟩ := frames_opened_and_closed_in_turn .ansi pushAndEcho
  exact ⟨ended, opened, (balanced ended .red).symm.trans opened⟩

end StyledEffects
