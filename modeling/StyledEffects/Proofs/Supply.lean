import StyledEffects.Proofs.Atomicity
import StyledEffects.Proofs.Isolation
import StyledEffects.Proofs.Rounds

/-! How the items of a run are supplied does not matter. Ready at once, deferred with or without
a pause, or made one by one, they lead to the same result and the same writes or chunks. What the
source is asked can be read off the list of items: it is asked once more than instructions are
handed to the dispatcher, except that nothing is asked after one that fails. -/

namespace StyledEffects

open Json Style Wire Output

/-! ## Suppliers -/

namespace Source

/-- Defers every answer. Each one, that of the end or of a failure too, takes time or not, as
`pause` has it for its number. -/
def paced (pause : Nat → Bool) : Source (Nat × List Item) where
  advance
    | _, (n, []) => (.deferred (pause n) (.ok none), n + 1, [])
    | _, (n, .ok v :: rest) => (.deferred (pause n) (.ok (some v)), n + 1, rest)
    | _, (n, .error e :: rest) => (.deferred (pause n) (.error e), n + 1, rest)

theorem yields_paced (pause : Nat → Bool) (n : Nat) (items : List Item) :
    (paced pause).Yields (n, items) items := by
  induction items generalizing n with
  | nil => rfl
  | cons item rest ih =>
    cases item with
    | error e => rfl
    | ok v => exact ⟨rfl, ih (n + 1)⟩

theorem Yields.transcribed {S : Type} {source : Source S} {s : S} {items : List Item}
    (h : source.Yields s items) (record : List Exchange) :
    source.transcribing.Yields (s, record) items := by
  induction items generalizing s record with
  | nil => exact h
  | cons item rest ih =>
    cases item with
    | error e => exact h
    | ok v => exact ⟨h.1, ih h.2 _⟩

end Source

inductive Supplier where
  | items
  | stream (pause : Bool)
  | paced (pause : Nat → Bool)
  | coroutine

namespace Supplier

def State : Supplier → Type
  | items | stream _ | coroutine => List Item
  | paced _ => Nat × List Item

def source : (a : Supplier) → Source a.State
  | items => .items
  | stream pause => .stream pause
  | paced pause => .paced pause
  | coroutine => .coroutine Source.nextItem

def start (list : List Item) : (a : Supplier) → a.State
  | items | stream _ | coroutine => list
  | paced _ => (0, list)

theorem yields (a : Supplier) (list : List Item) : a.source.Yields (a.start list) list := by
  cases a with
  | items => exact Source.yields_items list
  | stream pause => exact Source.yields_stream pause list
  | paced pause => exact Source.yields_paced pause 0 list
  | coroutine => exact Source.yields_coroutine list

end Supplier

/-! ## What is asked -/

namespace Core

/-- The instructions among the items that are handed to the dispatcher. None is after the first
failure, whether of an item or of a dispatch. -/
def tried (core : Core) : List Item → List Attempt
  | [] => []
  | .error _ :: _ => []
  | .ok v :: rest =>
    core.attempt v ::
      if (core.attempt v).succeeded then (core.attempt v).after.tried rest else []

def asked (core : Core) : List Item → List Exchange
  | [] => [⟨none, .ok none⟩]
  | .error e :: _ => [⟨none, .error e⟩]
  | .ok v :: rest =>
    ⟨none, .ok (some v)⟩ ::
      if (core.attempt v).succeeded then (core.attempt v).after.asked rest else []

def balks (core : Core) (items : List Item) : Bool :=
  (core.tried items).any fun a => !a.succeeded

theorem length_asked (core : Core) (items : List Item) :
    (core.asked items).length =
      if core.balks items then (core.tried items).length else (core.tried items).length + 1 := by
  unfold balks
  induction items generalizing core with
  | nil => rfl
  | cons item rest ih =>
    cases item with
    | error e => rfl
    | ok v =>
      rw [asked, tried]
      cases h : (core.attempt v).succeeded with
      | false => simp [h]
      | true =>
        simp only [if_true, List.length_cons, List.any_cons, h, Bool.not_true, Bool.false_or, ih]
        split <;> rfl

end Core

namespace Drive

variable {S : Type} {source : Source S}

def going (s : S) (record : List Exchange) (pulled : Nat) (core : Core) :
    Drive (S × List Exchange) Core := ⟨⟨(s, record), pulled, false⟩, none, core, none⟩

theorem run_transcribing {s : S} {items : List Item} (h : source.Yields s items) (core : Core)
    (record : List Exchange) (pulled : Nat) {n : Nat} (hn : items.length < n) :
    ((going s record pulled core).run source.transcribing Core.carry n).pump.state.2 =
        (core.asked items).reverse ++ record ∧
      ((going s record pulled core).run source.transcribing Core.carry n).pump.pulled =
        pulled + (core.tried items).length := by
  have some_round := Nat.ne_zero_of_lt hn
  induction items generalizing s core record pulled n with
  | nil =>
    have answer : (source.advance none s).1.result = .ok none := h
    have pull : (source.transcribing.advance none (s, record)).1.result = .ok none := answer
    rw [going, run_of_turn some_round (turn_ended rfl rfl pull) rfl]
    simp [Pump.exhausted, Source.transcribing, Core.asked, Core.tried, answer]
  | cons item rest ih =>
    cases item with
    | error e =>
      have answer : (source.advance none s).1.result = .error e := h
      have pull : (source.transcribing.advance none (s, record)).1.result = .error e := answer
      rw [going, run_of_turn some_round (turn_failed rfl rfl pull) rfl]
      simp [Pump.exhausted, Source.transcribing, Core.asked, Core.tried, answer]
    | ok v =>
      obtain ⟨answer, later⟩ := h
      have pull : (source.transcribing.advance none (s, record)).1.result = .ok (some v) := answer
      rcases hd : core.dispatch v with ⟨e | next, core', outputs⟩
      · have refused := Core.carry_of_dispatch hd
        rw [going, run_of_turn some_round (turn_refused rfl rfl pull refused) rfl]
        simp [Pump.pulledOne, Source.transcribing, Core.asked, Core.tried,
          Core.attempt_of_dispatch hd, answer]
      · obtain ⟨rfl, -⟩ := Core.dispatch_ok hd
        obtain ⟨n, rfl⟩ := Nat.exists_eq_add_one_of_ne_zero some_round
        have fewer := Nat.lt_of_succ_lt_succ hn
        have next : (going s record pulled core).turn source.transcribing Core.carry =
            going (source.advance none s).2 (⟨none, .ok (some v)⟩ :: record) (pulled + 1) core' := by
          rw [going, turn_carried rfl rfl pull (Core.carry_of_dispatch hd), going, ← answer]
          rfl
        have attempt := Core.attempt_of_dispatch hd
        obtain ⟨questions, count⟩ := ih later core' (⟨none, .ok (some v)⟩ :: record) (pulled + 1)
          fewer (Nat.ne_zero_of_lt fewer)
        rw [run, next, questions, count, Core.asked, Core.tried, attempt]
        refine ⟨?_, ?_⟩
        · simp
        · simp only [Attempt.succeeded_ok, if_true, List.length_cons]
          omega

end Drive

theorem rounds_transcribing {S : Type} {source : Source S} {state : S} {items : List Item}
    (h : source.Yields state items) (table : Table) :
    let core := Core.new table
    let d := rounds source.transcribing table (state, [])
      ((Transcript.of core items).stages.length + 1)
    d.pump.state.2 = (core.asked items).reverse ∧ d.pump.pulled = (core.tried items).length := by
  intro core d
  have plays := (h.transcribed []).plays core
  have enough := Nat.lt_succ_of_le (Transcript.length_stages_of_le core items)
  have ended := Drive.isSome_of_verdict (Drive.run_of_plays plays enough 0)
  obtain ⟨record, pulled⟩ := Drive.run_transcribing h core [] 0 (Nat.lt_succ_self items.length)
  rw [List.append_nil] at record
  rw [Nat.zero_add] at pulled
  have same : d = (Drive.going state [] 0 core).run source.transcribing Core.carry
      (items.length + 1) := Drive.run_eq_of_result (isSome_result_rounds plays) ended
  rw [same]
  exact ⟨record, pulled⟩

section

variable {σ τ : Type} [OutputStream σ] [OutputStream τ]

/-- A list of items from one supplier or another, for any style table. Onto streams that never
fail a run comes to its end on every schedule. At the end of two such runs the results are the
same, and so are the writes on both streams; into chunks the items are the same. The suppliers
have been asked the same, with the same answers: once more than instructions have been handed to
the dispatcher or, if one of those has failed, just as often. -/
theorem supplier_does_not_matter (a b : Supplier) (items : List Item) (table : Table)
    (primary : σ) (secondary : τ) (hp : Stream.NeverFails primary)
    (hs : Stream.NeverFails secondary) :
    let core := Core.new table
    let handed := (core.tried items).length
    let advances := if core.balks items then handed else handed + 1
    let onto (c : Supplier) := IoRun.new table (c.start items, ([] : List Exchange))
      (Watched.new primary) (Watched.new secondary)
    let into (c : Supplier) := PureRun.new table (c.start items, ([] : List Exchange))
    (∃ budget, ∀ moves r, (onto a).after a.source.transcribing moves = some r →
      moves.length ≤ budget ∧
        ((∀ m, r.move a.source.transcribing m = none) ↔ r.result?.isSome)) ∧
    (∀ moves r moves' r', (onto a).after a.source.transcribing moves = some r →
      (onto b).after b.source.transcribing moves' = some r' →
      r.result?.isSome → r'.result?.isSome →
        r.result? = r'.result? ∧
        r.sink.primary.stream.writes = r'.sink.primary.stream.writes ∧
        r.sink.secondary.stream.writes = r'.sink.secondary.stream.writes ∧
        r.drive.pump.state.2 = r'.drive.pump.state.2 ∧
        r.drive.pump.state.2.length = advances ∧ r.drive.pump.pulled = handed) ∧
    ∀ limit, items.length ≤ limit →
      let r := (into a).after a.source.transcribing (PureRun.stepsFor limit)
      let r' := (into b).after b.source.transcribing (PureRun.stepsFor limit)
      PureRun.evaluate a.source.transcribing limit table (a.start items, []) =
          PureRun.evaluate b.source.transcribing limit table (b.start items, []) ∧
        r.ended = true ∧ r'.ended = true ∧ r.pump.state.2 = r'.pump.state.2 ∧
        r.pump.state.2.length = advances ∧ r.pump.pulled = handed := by
  intro core handed advances onto into
  have plays (c : Supplier) := ((c.yields items).transcribed []).plays core
  have asked (c : Supplier) := rounds_transcribing (c.yields items) table
  have count : (core.asked items).reverse.length = advances := by
    rw [List.length_reverse]
    exact core.length_asked items
  refine ⟨?_, ?_, ?_⟩
  · obtain ⟨budget, onCourse⟩ := IoRun.onCourse_new (plays a) primary secondary
    refine ⟨budget, ?_⟩
    intro moves r hr
    obtain ⟨b, hb, onCourse⟩ := onCourse.after hr
    exact ⟨by omega, onCourse.stuck_iff⟩
  · intro moves r moves' r' hr hr' hres hres'
    obtain ⟨result, h⟩ := Option.isSome_iff_exists.1 hres
    obtain ⟨result', h'⟩ := Option.isSome_iff_exists.1 hres'
    obtain ⟨rfl, first, second⟩ := IoRun.written_of_plays (plays a) hp hs hr h
    obtain ⟨rfl, first', second'⟩ := IoRun.written_of_plays (plays b) hp hs hr' h'
    obtain ⟨record, pulled⟩ := asked a
    obtain ⟨record', -⟩ := asked b
    rw [← IoRun.loop_of_result (plays a) hr hres] at record pulled
    rw [← IoRun.loop_of_result (plays b) hr' hres'] at record'
    refine ⟨h.trans h'.symm, first.trans first'.symm, second.trans second'.symm,
      record.trans record'.symm, ?_, pulled⟩
    exact (congrArg List.length record).trans count
  · intro limit hl r r'
    have enough := Nat.le_trans (Transcript.length_stages_of_le core items) hl
    obtain ⟨record, pulled⟩ := asked a
    obtain ⟨record', -⟩ := asked b
    obtain ⟨ended, result, looped⟩ := PureRun.loop_of_plays (plays a) enough
    obtain ⟨ended', result', looped'⟩ := PureRun.loop_of_plays (plays b) enough
    rw [← looped] at record pulled
    rw [← looped'] at record'
    refine ⟨?_, ended, ended', record.trans record'.symm,
      (congrArg List.length record).trans count, pulled⟩
    rw [PureRun.evaluate_of_plays (plays a) enough, PureRun.evaluate_of_plays (plays b) enough]

def textAndBarePop : List Item :=
  [.ok (Instruction.write "a" 1), .ok Instruction.pop, .ok (Instruction.write "b" 1)]

/-- With a pause before every other answer it is the same as from a coroutine: two questions, one
chunk and the error, and the same end on every schedule. -/
theorem textAndBarePop_supplied :
    let a : Supplier := .paced fun n => n % 2 == 0
    let onto (c : Supplier) := IoRun.new .plain (c.start textAndBarePop, ([] : List Exchange))
      (Watched.new (Recorder.new none false)) (Watched.new (Recorder.new none false))
    let into := PureRun.new .plain (a.start textAndBarePop, ([] : List Exchange))
    PureRun.evaluate a.source.transcribing 3 .plain (a.start textAndBarePop, []) =
        [.ok "a", .error .popOnEmptyStack] ∧
      (into.after a.source.transcribing (PureRun.stepsFor 3)).pump.state.2.length = 2 ∧
      ∀ moves r moves' r', (onto a).after a.source.transcribing moves = some r →
        (onto .coroutine).after Supplier.coroutine.source.transcribing moves' = some r' →
        r.result?.isSome → r'.result?.isSome → r.result? = r'.result? ∧
          r.sink.primary.stream.writes = r'.sink.primary.stream.writes := by
  intro a onto into
  have chunks : PureRun.evaluate Supplier.coroutine.source.transcribing 3 .plain
      (Supplier.coroutine.start textAndBarePop, []) = [.ok "a", .error .popOnEmptyStack] := rfl
  have never : Stream.NeverFails (Recorder.new none false) := Stream.neverFails_recorder rfl
  obtain ⟨-, onStreams, intoChunks⟩ := supplier_does_not_matter a .coroutine textAndBarePop .plain
    (Recorder.new none false) (Recorder.new none false) never never
  obtain ⟨same, -, -, -, advances, -⟩ := intoChunks 3 (Nat.le_refl 3)
  refine ⟨same.trans chunks, advances, ?_⟩
  intro moves r moves' r' hr hr' hres hres'
  obtain ⟨results, writes, -⟩ := onStreams moves r moves' r' hr hr' hres hres'
  exact ⟨results, writes⟩

end

end StyledEffects
