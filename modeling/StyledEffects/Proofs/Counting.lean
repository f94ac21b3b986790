import StyledEffects.Proofs.Transcript
import StyledEffects.Wire.Instruction

/-! Pushes and pops by count. The stack is as deep as the pushes carried out outnumber the pops,
whatever the style table. So how a run over a list of items ends can be told from the items
alone, with no stack. -/

namespace StyledEffects

open Json Style Wire

def verb? (v : Value) : Option Verb := (decode v).toOption.map Effect.verb

def pushes (instructions : List Value) : Nat := instructions.countP (verb? · = some .push)

def pops (instructions : List Value) : Nat := instructions.countP (verb? · = some .pop)

/-- Up to no point there are more pops than pushes. -/
def Covered (instructions : List Value) : Prop :=
  ∀ first, first <+: instructions → pops first ≤ pushes first

/-- An instruction with nothing against it but that it may be a pop too many. -/
def Plain (v : Value) : Prop :=
  ∃ effect, decode v = .ok effect ∧ ∀ text channel, effect = .write text channel →
    esc ∉ text.toList

theorem pushes_concat (done : List Value) (v : Value) :
    pushes (done ++ [v]) = pushes done + pushes [v] := List.countP_append

theorem pops_concat (done : List Value) (v : Value) :
    pops (done ++ [v]) = pops done + pops [v] := List.countP_append

theorem covered_nil : Covered [] := by
  intro first h
  obtain rfl := List.prefix_nil.1 h
  exact Nat.le_refl 0

theorem Covered.concat {done : List Value} {v : Value} (h : Covered done)
    (hv : pops (done ++ [v]) ≤ pushes (done ++ [v])) : Covered (done ++ [v]) := by
  intro first hf
  rcases List.prefix_concat_iff.1 hf with rfl | hf
  · exact hv
  · exact h first hf

theorem not_covered {instructions done rest : List Value} {v : Value}
    (split : instructions = done ++ v :: rest)
    (excess : pushes (done ++ [v]) < pops (done ++ [v])) : ¬ Covered instructions := by
  intro covered
  have first : done ++ [v] <+: instructions := ⟨rest, by rw [split, ← List.append_cons]⟩
  have enough := covered _ first
  omega

/-! ## The stack -/

namespace Style.Stack

/-- Every frame stores the number of frames from there down. -/
def Sized : Stack → Prop
  | empty => True
  | on _ below depth => depth = below.depth + 1 ∧ below.Sized

theorem Sized.isEmpty_iff {s : Stack} (h : s.Sized) : s.isEmpty = true ↔ s.depth = 0 := by
  cases s with
  | empty => exact ⟨fun _ => rfl, fun _ => rfl⟩
  | on frame below depth =>
    obtain ⟨rfl, -⟩ := h
    simp [isEmpty, Stack.depth]

structure Counts (s : Stack) (done : List Value) : Prop where
  depth : s.depth + pops done = pushes done
  isEmpty : s.isEmpty = true ↔ s.depth = 0

end Style.Stack

structure Core.Level (core : Core) (done : List Value) : Prop where
  covered : Covered done
  sized : core.stack.Sized
  depth : core.stack.depth + pops done = pushes done

theorem Core.Level.counts {core : Core} {done : List Value} (h : core.Level done) :
    core.stack.Counts done := ⟨h.depth, h.sized.isEmpty_iff⟩

/-- A plain instruction is carried out and counted, or it is a pop on the empty stack. -/
theorem Core.dispatch_plain {core : Core} {v : Value} (plain : Plain v)
    (sized : core.stack.Sized) :
    (∃ core' outputs, core.dispatch v = (.ok none, core', outputs) ∧ core'.stack.Sized ∧
      core'.stack.depth + pops [v] = core.stack.depth + pushes [v]) ∨
    (core.dispatch v = (.error .popOnEmptyStack, core, []) ∧ core.stack.depth = 0 ∧
      pushes [v] = 0 ∧ pops [v] = 1) := by
  obtain ⟨effect, hd, unescaped⟩ := plain
  cases effect with
  | write text channel =>
    left
    have he : hasEscape text = false := hasEscape_eq_false.2 (unescaped text channel rfl)
    refine ⟨core, [.text channel text], ?_, sized, ?_⟩
    · simp [dispatch, hd, perform, he, Except.map]
    · simp [pops, pushes, verb?, hd, Except.toOption, Effect.verb]
  | push spans =>
    left
    refine ⟨(core.perform (.push spans)).2.1, (core.perform (.push spans)).2.2, ?_,
      ⟨rfl, sized⟩, ?_⟩
    · simp [dispatch, hd, perform, Except.map]
    · simp [pops, pushes, verb?, hd, Except.toOption, Effect.verb, perform, Stack.push,
        Stack.depth]
  | pop =>
    have count : pushes [v] = 0 ∧ pops [v] = 1 := by
      simp [pops, pushes, verb?, hd, Except.toOption, Effect.verb]
    cases hs : core.stack with
    | empty =>
      right
      refine ⟨?_, rfl, count⟩
      simp [dispatch, hd, perform, hs, Stack.pop?, Except.map]
    | on frame below depth =>
      left
      rw [hs] at sized
      obtain ⟨rfl, sized⟩ := sized
      refine ⟨(core.perform .pop).2.1, (core.perform .pop).2.2, ?_, ?_, ?_⟩
      · simp [dispatch, hd, perform, hs, Stack.pop?, Except.map]
      · simpa [perform, hs, Stack.pop?] using sized
      · rw [count.1, count.2]
        simp [perform, hs, Stack.pop?, Stack.depth]

/-- One more instruction is either covered, and then carried out, or a pop too many, and then
it fails. -/
theorem Core.Level.dispatch {core : Core} {done : List Value} {v : Value} (h : core.Level done)
    (plain : Plain v) :
    (∃ core' outputs, core.dispatch v = (.ok none, core', outputs) ∧
      core'.Level (done ++ [v])) ∨
    (core.dispatch v = (.error .popOnEmptyStack, core, []) ∧
      pushes (done ++ [v]) < pops (done ++ [v])) := by
  have depth := h.depth
  rw [pushes_concat, pops_concat]
  rcases dispatch_plain plain h.sized with ⟨core', outputs, hd, sized, step⟩ | ⟨hd, bare, count⟩
  · left
    refine ⟨core', outputs, hd, h.covered.concat ?_, sized, ?_⟩
    · rw [pushes_concat, pops_concat]
      omega
    · rw [pushes_concat, pops_concat]
      omega
  · right
    exact ⟨hd, by omega⟩

theorem Core.Level.finish {core : Core} {done : List Value} (h : core.Level done) :
    core.finish = if pushes done = pops done then .ok ()
      else .error (.unbalancedStack (pushes done - pops done)) := by
  have depth := h.depth
  have bare : core.stack.isEmpty = true ↔ pushes done = pops done := by
    rw [h.sized.isEmpty_iff]
    omega
  rw [Core.finish]
  by_cases even : pushes done = pops done
  · rw [if_pos (bare.2 even), if_pos even]
  · have left : core.stack.depth = pushes done - pops done := by omega
    rw [if_neg (mt bare.1 even), if_neg even, left]

/-! ## How a list of items ends -/

/-- Instructions with nothing against any of them, none of them a pop too many. -/
structure Sound (done : List Value) : Prop where
  plain : ∀ v ∈ done, Plain v
  covered : Covered done

/-- The result of a run over these items. The first of them that fails, does not decode, has an
escape in its text or is a pop too many decides it. Without one the pushes and pops do. -/
inductive Conclusion (items : List Item) : Except EffectError Unit → Prop
  | failed {done e rest} (split : items = done.map .ok ++ .error e :: rest)
      (sound : Sound done) : Conclusion items (.error e)
  | undecoded {done v e rest} (split : items = done.map .ok ++ .ok v :: rest)
      (sound : Sound done) (hd : decode v = .error e) : Conclusion items (.error e)
  | escaped {done v text channel rest} (split : items = done.map .ok ++ .ok v :: rest)
      (sound : Sound done) (hd : decode v = .ok (.write text channel))
      (he : esc ∈ text.toList) : Conclusion items (.error .escapeInWrite)
  | underflow {done v rest} (split : items = done.map .ok ++ .ok v :: rest)
      (sound : Sound done) (plain : Plain v) (excess : pushes (done ++ [v]) < pops (done ++ [v])) :
    Conclusion items (.error .popOnEmptyStack)
  | leftOpen {done} (split : items = done.map .ok) (sound : Sound done)
      (more : pops done < pushes done) :
    Conclusion items (.error (.unbalancedStack (pushes done - pops done)))
  | balanced {done} (split : items = done.map .ok) (sound : Sound done)
      (even : pushes done = pops done) : Conclusion items (.ok ())

theorem Sound.concat {done : List Value} {v : Value} (h : Sound done) (plain : Plain v)
    (covered : Covered (done ++ [v])) : Sound (done ++ [v]) :=
  ⟨List.forall_mem_append.2 ⟨h.plain, List.forall_mem_singleton.2 plain⟩, covered⟩

theorem Core.Level.conclusion {core : Core} {done : List Value} (level : core.Level done)
    (sound : Sound done) {items rest : List Item} (split : items = done.map .ok ++ rest) :
    Conclusion items (Transcript.of core rest).verdict := by
  induction rest generalizing core done with
  | nil =>
    rw [List.append_nil] at split
    rw [Transcript.of, level.finish]
    have enough := sound.covered done List.prefix_rfl
    split
    · exact .balanced split sound ‹_›
    · exact .leftOpen split sound (by omega)
  | cons item rest ih =>
    cases item with
    | error e => exact .failed split sound
    | ok v =>
      cases hd : decode v with
      | error e =>
        simp only [Transcript.of, Core.dispatch, hd]
        exact .undecoded split sound hd
      | ok effect =>
        by_cases plain : Plain v
        · rcases level.dispatch plain with ⟨core', outputs, carried, level'⟩ | ⟨refused, excess⟩
          · simp only [Transcript.of, carried, Transcript.verdict_after]
            exact ih level' (sound.concat plain level'.covered) (by simp [split])
          · simp only [Transcript.of, refused]
            exact .underflow split sound plain excess
        · -- the one thing that is not plain is a text with an escape
          obtain ⟨text, channel, rfl, he⟩ : ∃ text channel, effect = .write text channel ∧
              esc ∈ text.toList := by
            simpa [Plain, hd] using plain
          have refused : core.dispatch v = (.error .escapeInWrite, core, []) := by
            simp [Core.dispatch, hd, Core.perform, Core.hasEscape_eq_true.2 he, Except.map]
          simp only [Transcript.of, refused]
          exact .escaped split sound hd he

/-- A list of items ends as its pushes and pops say, with any style table. -/
theorem Transcript.conclusion (table : Table) (items : List Item) :
    Conclusion items (Transcript.of (.new table) items).verdict :=
  have level : (Core.new table).Level [] := ⟨covered_nil, trivial, rfl⟩
  level.conclusion ⟨List.forall_mem_nil _, covered_nil⟩ rfl

end StyledEffects
