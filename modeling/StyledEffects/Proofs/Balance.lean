import StyledEffects.Proofs.Rounds

/-! Pushes and pops by count. The stack of a run is as deep as the pushes so far outnumber the
pops. So a run ends well exactly if the pops never outnumber the pushes and are as many in the
end. Whatever the style table, neither more nor less is asked of the instructions. -/

namespace StyledEffects

open Json Style Wire

/-- The stack when this many instructions have been pulled: all of them have been carried out,
but for the last if that is a pop too many. -/
inductive Tally (instructions : List Value) (stack : Stack) : Nat → Prop
  | carried {done rest} (split : instructions = done ++ rest) (counts : stack.Counts done) :
    Tally instructions stack done.length
  | refused {done v rest} (split : instructions = done ++ v :: rest)
      (counts : stack.Counts done) (excess : pushes (done ++ [v]) < pops (done ++ [v])) :
    Tally instructions stack (done.length + 1)

/-- How a run of instructions ends, by their count, and how many of them it has pulled. -/
structure Settled (instructions : List Value) (result : Except EffectError Unit) (pulled : Nat) :
    Prop where
  ok_iff : result = .ok () ↔ Covered instructions ∧ pushes instructions = pops instructions
  underflow : ¬ Covered instructions → result = .error .popOnEmptyStack ∧
    ∃ done v rest, instructions = done ++ v :: rest ∧ Covered done ∧
      pushes (done ++ [v]) < pops (done ++ [v]) ∧ pulled = done.length + 1
  leftOpen : Covered instructions → pushes instructions ≠ pops instructions →
    result = .error (.unbalancedStack (pushes instructions - pops instructions))
  all : Covered instructions → pulled = instructions.length

inductive Progress {S : Type} (source : Source S) (instructions : List Value)
    (d : Drive S Core) : Prop
  | going {done rest} (split : instructions = done ++ rest) (hd : d.result = none)
      (hf : d.pump.finished = false) (resume : d.resume = none)
      (yields : source.Yields d.pump.state (rest.map .ok)) (pulled : d.pump.pulled = done.length)
      (level : d.work.Level done)
  | ended (hd : d.result = some (.ok instructions.length))
      (pulled : d.pump.pulled = instructions.length) (level : d.work.Level instructions)
  | refused {done v rest} (split : instructions = done ++ v :: rest)
      (hd : d.result = some (.error .popOnEmptyStack)) (pulled : d.pump.pulled = done.length + 1)
      (level : d.work.Level done) (excess : pushes (done ++ [v]) < pops (done ++ [v]))

namespace Progress

variable {S : Type} {source : Source S} {instructions : List Value} {d : Drive S Core}

theorem turn (h : Progress source instructions d) (plain : ∀ v ∈ instructions, Plain v) :
    Progress source instructions (d.turn source Core.carry) := by
  cases h with
  | ended hd pulled level =>
    rw [Drive.turn_of_result (by rw [hd]; rfl)]
    exact .ended hd pulled level
  | refused split hd pulled level excess =>
    rw [Drive.turn_of_result (by rw [hd]; rfl)]
    exact .refused split hd pulled level excess
  | @going done rest split hd hf resume yields pulled level =>
    cases rest with
    | nil =>
      rw [List.append_nil] at split
      subst split
      have answer : (source.advance d.resume d.pump.state).1.result = .ok none := by
        rw [resume]
        exact yields
      rw [Drive.turn_ended hd hf answer]
      exact .ended (by rw [pulled]) pulled level
    | cons v rest =>
      have answer : (source.advance d.resume d.pump.state).1.result = .ok (some v) := by
        rw [resume]
        exact yields.1
      have carry := level.dispatch (plain v (by simp [split]))
      rcases carry with ⟨core', outputs, carried, level'⟩ | ⟨fails, excess⟩
      · rw [Drive.turn_carried hd hf answer (Core.carry_of_dispatch carried)]
        have later : source.Yields (source.advance d.resume d.pump.state).2 (rest.map .ok) := by
          rw [resume]
          exact yields.2
        refine .going (by rw [split, List.append_cons]) hd rfl rfl later ?_ level'
        rw [Pump.pulledOne, pulled, List.length_append, List.length_singleton]
      · rw [Drive.turn_refused hd hf answer (Core.carry_of_dispatch fails)]
        exact .refused split rfl (by rw [Pump.pulledOne, pulled]) level excess

theorem tally (h : Progress source instructions d) :
    Tally instructions d.work.stack d.pump.pulled := by
  cases h with
  | going split hd hf resume yields pulled level =>
    rw [pulled]
    exact .carried split level.counts
  | ended hd pulled level =>
    rw [pulled]
    exact .carried (List.append_nil _).symm level.counts
  | refused split hd pulled level excess =>
    rw [pulled]
    exact .refused split level.counts excess

theorem settled (h : Progress source instructions d) {verdict : Except EffectError Unit}
    (hv : d.verdict? = some verdict) : Settled instructions verdict d.pump.pulled := by
  cases h with
  | going split hd =>
    rw [Drive.verdict?, hd] at hv
    cases hv
  | @refused done v rest split hd pulled level excess =>
    rw [Drive.verdict?, hd] at hv
    obtain rfl : .error .popOnEmptyStack = verdict := Option.some.inj hv
    have uncovered := not_covered split excess
    have failed : (.error .popOnEmptyStack : Except EffectError Unit) ≠ .ok () := by simp
    refine ⟨⟨fun h => absurd h failed, fun h => absurd h.1 uncovered⟩, ?_,
      fun h => absurd h uncovered, fun h => absurd h uncovered⟩
    intro _
    exact ⟨rfl, done, v, rest, split, level.covered, excess, pulled⟩
  | ended hd pulled level =>
    rw [Drive.verdict?, hd] at hv
    obtain rfl : d.work.finish = verdict := Option.some.inj hv
    rw [level.finish]
    by_cases even : pushes instructions = pops instructions
    · rw [if_pos even]
      exact ⟨⟨fun _ => ⟨level.covered, even⟩, fun _ => rfl⟩, fun h => absurd level.covered h,
        fun _ ne => absurd even ne, fun _ => pulled⟩
    · rw [if_neg even]
      exact ⟨⟨fun h => (by cases h), fun h => absurd h.2 even⟩, fun h => absurd level.covered h,
        fun _ _ => rfl, fun _ => pulled⟩

theorem rounds (plain : ∀ v ∈ instructions, Plain v) {state : S} {table : Table}
    (yields : source.Yields state (instructions.map .ok)) (n : Nat) :
    Progress source instructions (rounds source table state n) := by
  induction n with
  | zero => exact .going rfl rfl rfl rfl yields rfl ⟨covered_nil, trivial, rfl⟩
  | succ n ih =>
    rw [StyledEffects.rounds, Drive.run_succ]
    exact ih.turn plain

end Progress

section

variable {S σ τ : Type} [OutputStream σ] [OutputStream τ]

/-- Instructions that all decode, with no escape character in their texts, from any source that
gives them, with any style table. A run onto two streams that never fail comes to its end on
every schedule, and so does a run into chunks. At any point of either the depth of the stack is
the number of pushes less that of pops so far, and the stack is empty where that is zero. The
result is a success exactly if no pop is one too many and no push is left open. The first pop too
many ends the run, and otherwise the error has the number of pushes left open. -/
theorem balance_enforced (source : Source S) (state : S) (instructions : List Value)
    (table : Table) (primary : σ) (secondary : τ) (plain : ∀ v ∈ instructions, Plain v)
    (yields : source.Yields state (instructions.map .ok)) (hp : Stream.NeverFails primary)
    (hs : Stream.NeverFails secondary) :
    (∃ budget, ∀ moves r,
      (IoRun.new table state (Watched.new primary) (Watched.new secondary)).after source moves =
        some r →
      moves.length ≤ budget ∧ ((∀ m, r.move source m = none) ↔ r.result?.isSome) ∧
      Tally instructions r.core.stack r.drive.pump.pulled ∧
      ∀ result, r.result? = some result → Settled instructions result r.drive.pump.pulled) ∧
    ∀ limit, instructions.length ≤ limit →
      (∀ n, let r := (PureRun.new table state).after source n
        Tally instructions r.core.stack r.pump.pulled) ∧
      let r := (PureRun.new table state).after source (PureRun.stepsFor limit)
      r.ended = true ∧
        Settled instructions (Feed.verdict (PureRun.evaluate source limit table state))
          r.pump.pulled := by
  have progress : ∀ n, Progress source instructions (rounds source table state n) :=
    Progress.rounds plain yields
  have plays := yields.plays (.new table)
  have settled := (progress _).settled (verdict_rounds plays)
  constructor
  · obtain ⟨budget, start⟩ := IoRun.onCourse_new plays primary secondary
    refine ⟨budget, ?_⟩
    intro moves r hr
    obtain ⟨b, hb, course⟩ := start.after hr
    obtain ⟨⟨n, looped⟩, -⟩ := IoRun.loop_after hr
    have tally := (progress n).tally
    rw [← looped] at tally
    refine ⟨by omega, course.stuck_iff, tally, ?_⟩
    intro result hres
    obtain ⟨rfl, -, -⟩ := IoRun.written_of_plays plays hp hs hr hres
    rw [← IoRun.loop_of_result plays hr (by rw [hres]; rfl)] at settled
    exact settled
  · intro limit hl
    have stages := Transcript.length_stages_of_le (.new table) (instructions.map .ok)
    rw [List.length_map] at stages
    have enough := Nat.le_trans stages hl
    constructor
    · intro n r
      obtain ⟨result, -, m, looped⟩ := PureRun.loop_after source table state n
      have tally := (progress m).tally
      rw [← looped] at tally
      exact tally
    · intro r
      obtain ⟨ended, result, looped⟩ := PureRun.loop_of_plays plays enough
      rw [← looped] at settled
      rw [PureRun.evaluate_of_plays plays enough, PureRun.verdict_items]
      exact ⟨ended, settled⟩

def closedTwice : List Value :=
  [Instruction.push [.bold], Instruction.pop, Instruction.pop, Instruction.write "a" 1]

/-- The second pop is refused by a run onto two streams, whatever its schedule, and by a run into
chunks. -/
theorem closedTwice_refused :
    (∀ moves r result,
      (IoRun.new .plain (closedTwice.map .ok) (Watched.new (Recorder.new none false))
        (Watched.new (Recorder.new none false))).after Source.items moves = some r →
      r.result? = some result → result = .error .popOnEmptyStack) ∧
    Feed.verdict (PureRun.evaluate Source.items 4 .plain (closedTwice.map .ok)) =
      .error .popOnEmptyStack := by
  have plain : ∀ v ∈ closedTwice, Plain v := by
    simp only [closedTwice, List.forall_mem_cons]
    refine ⟨⟨.push (some [.bold]), rfl, by simp⟩, ⟨.pop, rfl, by simp⟩, ⟨.pop, rfl, by simp⟩,
      ⟨.write "a" .primary, rfl, ?_⟩, List.forall_mem_nil _⟩
    rintro text channel h
    obtain ⟨rfl, -⟩ := Effect.write.inj h
    decide
  have uncovered : ¬ Covered closedTwice := by
    intro covered
    have enough := covered (closedTwice.take 3) (List.take_prefix 3 _)
    exact absurd enough (by decide)
  obtain ⟨⟨budget, onStreams⟩, intoChunks⟩ :=
    balance_enforced Source.items _ closedTwice .plain (Recorder.new none false)
      (Recorder.new none false) plain (Source.yields_items _) (Stream.neverFails_recorder rfl)
      (Stream.neverFails_recorder rfl)
  constructor
  · intro moves r result hr hres
    obtain ⟨-, -, -, settled⟩ := onStreams moves r hr
    exact ((settled result hres).underflow uncovered).1
  · obtain ⟨-, -, settled⟩ := intoChunks 4 (Nat.le_refl 4)
    exact (settled.underflow uncovered).1

end

end StyledEffects
