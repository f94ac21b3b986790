import StyledEffects.Proofs.Balance
import StyledEffects.Proofs.Bursts
import StyledEffects.Style.History

/-! Stacks that grow from one another. Each version is a list of frames that nothing changes any
more, and two versions are the same stack exactly if they are both empty or the frames on top of
them come from one push. -/

namespace StyledEffects.Style

open Wire

inductive Change where
  | push (spans : Option (List Span)) (base : Nat)
  | pop (base : Nat)

namespace Change

def base : Change → Nat
  | push _ base | pop base => base

def effect : Change → Effect
  | push spans _ => .push spans
  | pop _ => .pop

end Change

/-! ## What the versions should be -/

/-- The frames of a version, read off the changes that have been made. Change `i` makes version
`i + 1`. -/
inductive Denotes (made : List Change) : Nat → List Frame → Prop
  | start : Denotes made 0 []
  | change {i : Nat} {c : Change} {frames frames' : List Frame} (entry : made[i]? = some c)
      (base : Denotes made c.base frames) (reopens : reopened frames c.effect = some frames') :
    Denotes made (i + 1) frames'

/-- The frame on top of a version comes from the push that has made version `p`. A pop brings
back what was on top of the version pushed on. -/
inductive Stems (made : List Change) : Nat → Nat → Prop
  | push {i : Nat} {spans : Option (List Span)} {base : Nat}
      (entry : made[i]? = some (.push spans base)) : Stems made (i + 1) (i + 1)
  | pop {i p q base below : Nat} {spans : Option (List Span)} (entry : made[i]? = some (.pop base))
      (top : Stems made base (p + 1)) (pushed : made[p]? = some (.push spans below))
      (under : Stems made below q) : Stems made (i + 1) q

theorem Denotes.unique {made : List Change} {i : Nat} {frames frames' : List Frame}
    (h : Denotes made i frames) (h' : Denotes made i frames') : frames = frames' := by
  induction h generalizing frames' with
  | start =>
    cases h'
    rfl
  | change entry _ reopens ih =>
    cases h' with
    | change at₁ base₁ reopens₁ =>
      obtain rfl := Option.some.inj (entry.symm.trans at₁)
      rw [← ih base₁] at reopens₁
      exact Option.some.inj (reopens.symm.trans reopens₁)

theorem Stems.exists_push {made : List Change} {i p : Nat} (h : Stems made i p) :
    ∃ q spans base, p = q + 1 ∧ made[q]? = some (.push spans base) := by
  induction h with
  | push entry => exact ⟨_, _, _, rfl, entry⟩
  | pop _ _ _ _ _ ih => exact ih

namespace Stack

theorem eq_empty_of_frames {s : Stack} (h : s.frames = []) : s = .empty := by
  cases s with
  | empty => rfl
  | on => cases h

theorem Sized.depth_eq {s : Stack} (h : s.Sized) : s.depth = s.frames.length := by
  induction s with
  | empty => rfl
  | on frame below depth ih =>
    obtain ⟨rfl, sized⟩ := h
    exact congrArg (· + 1) (ih sized)

end Stack

namespace History

def make? (table : Table) (h : History) : Change → Option History
  | .push spans base => (h.push table spans base).map Prod.fst
  | .pop base => (h.pop? table base).map Prod.fst

/-- Pops again and again, from version `i` first and then from the version just made. The answer
has the number of the last version. -/
def popTimes (table : Table) : Nat → Nat → History → Option (History × Nat)
  | 0, i, h => some (h, i)
  | n + 1, i, h => (h.pop? table i).bind fun (h', _) => popTimes table n h.count h'

end History

/-- A history with the changes that have made its versions. -/
structure Growth where
  history : History
  made : List Change

namespace Growth

/-- A change that cannot be made leaves everything as it is. -/
def step (table : Table) (g : Growth) (c : Change) : Growth :=
  match g.history.make? table c with
  | none => g
  | some history => ⟨history, g.made ++ [c]⟩

def after (table : Table) (changes : List Change) : Growth :=
  changes.foldl (step table) ⟨.new, []⟩

end Growth

/-! ## One change -/

namespace History

def add (h : History) (v : Version) : History := ⟨v :: h.later⟩

theorem count_add (h : History) (v : Version) : (h.add v).count = h.count + 1 := rfl

theorem version?_add_of_lt (h : History) (v : Version) {i : Nat} (hi : i < h.count) :
    (h.add v).version? i = h.version? i := by
  cases i with
  | zero => rfl
  | succ i =>
    have known : i < h.later.reverse.length := by
      rw [List.length_reverse]
      exact Nat.lt_of_succ_lt_succ hi
    simp [version?, add, List.getElem?_append_left known]

theorem version?_add_count (h : History) (v : Version) :
    (h.add v).version? h.count = some v := by
  simp [version?, add, count]

theorem version?_isSome_iff {h : History} {i : Nat} : (h.version? i).isSome ↔ i < h.count := by
  cases i with
  | zero => simp [version?, count]
  | succ i => simp [version?, count]

/-- A later history: the versions that are there stay as they are. -/
structure Extends (h h' : History) : Prop where
  count : h.count ≤ h'.count
  version? : ∀ i < h.count, h'.version? i = h.version? i

theorem Extends.refl (h : History) : h.Extends h := ⟨Nat.le_refl _, fun _ _ => rfl⟩

theorem Extends.trans {h h' h'' : History} (e : h.Extends h') (e' : h'.Extends h'') :
    h.Extends h'' :=
  ⟨Nat.le_trans e.count e'.count, fun i hi =>
    (e'.version? i (Nat.lt_of_lt_of_le hi e.count)).trans (e.version? i hi)⟩

theorem extends_add (h : History) (v : Version) : h.Extends (h.add v) :=
  ⟨Nat.le_succ _, fun _ => h.version?_add_of_lt v⟩

end History

inductive Follows (table : Table) (h : History) (i : Nat) : Change → Prop
  | push {spans : Option (List Span)} {base : Nat} {v : Version} (base_le : base ≤ i)
      (base_eq : h.version? base = some v)
      (next : h.version? (i + 1) = some ⟨(v.stack.push table spans).1, (i + 1) :: v.pushes⟩) :
    Follows table h i (.push spans base)
  | pop {base : Nat} {frame : Frame} {below : Stack} {depth : Nat} {pushes : List Nat}
      (base_le : base ≤ i) (base_eq : h.version? base = some ⟨.on frame below depth, pushes⟩)
      (next : h.version? (i + 1) = some ⟨below, pushes.tail⟩) : Follows table h i (.pop base)

theorem Follows.add {table : Table} {h : History} {i : Nat} {c : Change}
    (f : Follows table h i c) (hi : i + 1 < h.count) (v : Version) :
    Follows table (h.add v) i c := by
  have same {j : Nat} (hj : j ≤ i + 1) : (h.add v).version? j = h.version? j :=
    (h.extends_add v).version? j (Nat.lt_of_le_of_lt hj hi)
  cases f with
  | push base_le base_eq next =>
    exact .push base_le ((same (by omega)).trans base_eq) ((same (Nat.le_refl _)).trans next)
  | pop base_le base_eq next =>
    exact .pop base_le ((same (by omega)).trans base_eq) ((same (Nat.le_refl _)).trans next)

theorem Follows.of_make? {table : Table} {h h' : History} {i : Nat} {c : Change}
    (hi : h.count = i + 1) (hm : h.make? table c = some h') :
    Follows table h' i c ∧ ∃ v, h' = h.add v := by
  have known {j : Nat} {v : Version} (hj : h.version? j = some v) : j ≤ i := by
    have := History.version?_isSome_iff.1 (Option.isSome_of_eq_some hj)
    omega
  cases c with
  | push spans base =>
    cases hv : h.version? base with
    | none => simp [History.make?, History.push, hv] at hm
    | some v =>
      obtain rfl : h.add ⟨(v.stack.push table spans).1, h.count :: v.pushes⟩ = h' := by
        simpa [History.make?, History.push, History.add, hv] using hm
      have before := h.version?_add_of_lt ⟨(v.stack.push table spans).1, h.count :: v.pushes⟩
        (Nat.lt_of_le_of_lt (known hv) (by omega))
      refine ⟨.push (known hv) (before.trans hv) ?_, _, rfl⟩
      rw [← hi]
      exact h.version?_add_count _
  | pop base =>
    rcases hv : h.version? base with _ | ⟨_ | ⟨frame, below, depth⟩, pushes⟩
    · simp [History.make?, History.pop?, hv] at hm
    · simp [History.make?, History.pop?, hv, Stack.pop?] at hm
    · obtain rfl : h.add ⟨below, pushes.tail⟩ = h' := by
        simpa [History.make?, History.pop?, History.add, hv, Stack.pop?] using hm
      have before := h.version?_add_of_lt ⟨below, pushes.tail⟩
        (Nat.lt_of_le_of_lt (known hv) (by omega))
      refine ⟨.pop (known hv) (before.trans hv) ?_, _, rfl⟩
      rw [← hi]
      exact h.version?_add_count _

namespace Growth

variable {table : Table} {g : Growth}

structure Kept (table : Table) (g : Growth) : Prop where
  count : g.history.count = g.made.length + 1
  follows : ∀ i c, g.made[i]? = some c → Follows table g.history i c

theorem kept_new (table : Table) : Kept table ⟨.new, []⟩ := ⟨rfl, fun _ _ h => nomatch h⟩

theorem Kept.step (kept : g.Kept table) (c : Change) : (g.step table c).Kept table := by
  rw [Growth.step]
  cases hm : g.history.make? table c with
  | none => exact kept
  | some h' =>
    obtain ⟨follows, v, rfl⟩ := Follows.of_make? kept.count hm
    refine ⟨?_, fun i c' hi => ?_⟩
    · rw [History.count_add, kept.count, List.length_append]
      rfl
    · rcases Nat.lt_trichotomy i g.made.length with lt | rfl | gt
      · rw [List.getElem?_append_left lt] at hi
        exact (kept.follows i c' hi).add (by rw [kept.count]; omega) v
      · rw [List.getElem?_concat_length] at hi
        obtain rfl := Option.some.inj hi
        exact follows
      · rw [List.getElem?_eq_none (by simp; omega)] at hi
        cases hi

theorem kept_after (table : Table) (changes : List Change) : (after table changes).Kept table := by
  suffices ∀ g : Growth, g.Kept table → (changes.foldl (step table) g).Kept table from
    this _ (kept_new table)
  induction changes with
  | nil => exact fun _ kept => kept
  | cons c rest ih => exact fun g kept => ih _ (kept.step c)

theorem extends_step (kept : g.Kept table) (c : Change) :
    g.history.Extends (g.step table c).history ∧ g.made <+: (g.step table c).made := by
  rw [Growth.step]
  cases hm : g.history.make? table c with
  | none => exact ⟨.refl _, List.prefix_rfl⟩
  | some h' =>
    obtain ⟨-, v, rfl⟩ := Follows.of_make? kept.count hm
    exact ⟨g.history.extends_add v, List.prefix_append _ _⟩

theorem Kept.extends_foldl (kept : g.Kept table) (more : List Change) :
    g.history.Extends (more.foldl (Growth.step table) g).history ∧
      g.made <+: (more.foldl (Growth.step table) g).made := by
  induction more generalizing g with
  | nil => exact ⟨.refl _, List.prefix_rfl⟩
  | cons c rest ih =>
    obtain ⟨first, made⟩ := extends_step kept c
    obtain ⟨later, made'⟩ := ih (kept.step c)
    exact ⟨first.trans later, made.trans made'⟩

theorem extends_after (table : Table) (changes more : List Change) :
    (after table changes).history.Extends (after table (changes ++ more)).history ∧
      (after table changes).made <+: (after table (changes ++ more)).made := by
  rw [after.eq_1 table (changes ++ more), List.foldl_append]
  exact (kept_after table changes).extends_foldl more

/-! ## What a version is -/

/-- A version denotes its frames, knows how many there are, and is the very version that the push
of its top frame has made. -/
structure Known (made : List Change) (h : History) (i : Nat) (v : Version) : Prop where
  denotes : Denotes made i v.stack.frames
  sized : v.stack.Sized
  length : v.pushes.length = v.stack.frames.length
  top : ∀ p, v.pushes.head? = some p → p ≤ i ∧ Stems made i p ∧ h.version? p = some v

theorem Kept.known (kept : g.Kept table) (i : Nat) :
    ∀ v, g.history.version? i = some v → Known g.made g.history i v := by
  induction i using Nat.strongRecOn with
  | ind i ih =>
  intro v hv
  cases i with
  | zero =>
    obtain rfl : Version.start = v := Option.some.inj hv
    exact ⟨.start, trivial, rfl, fun p hp => nomatch hp⟩
  | succ i =>
    have bound := History.version?_isSome_iff.1 (Option.isSome_of_eq_some hv)
    obtain ⟨c, entry⟩ : ∃ c, g.made[i]? = some c := by
      rw [kept.count] at bound
      exact ⟨_, List.getElem?_eq_getElem (Nat.lt_of_succ_lt_succ bound)⟩
    cases kept.follows i c entry with
    | @push spans base v' base_le base_eq next =>
      obtain rfl := Option.some.inj (next.symm.trans hv)
      have known := ih base (Nat.lt_succ_of_le base_le) v' base_eq
      refine ⟨.change entry known.denotes (reopened_push ..), ?_, ?_, fun p hp => ?_⟩
      · exact ⟨rfl, known.sized⟩
      · exact congrArg (· + 1) known.length
      · obtain rfl := Option.some.inj hp
        exact ⟨Nat.le_refl _, .push entry, hv⟩
    | @pop base frame below depth pushes base_le base_eq next =>
      obtain rfl := Option.some.inj (next.symm.trans hv)
      have known := ih base (Nat.lt_succ_of_le base_le) _ base_eq
      obtain ⟨p, rest, rfl⟩ : ∃ p rest, pushes = p :: rest :=
        List.exists_cons_of_length_pos (by rw [known.length]; exact Nat.succ_pos _)
      obtain ⟨p_le, stems, same⟩ := known.top p rfl
      obtain ⟨q, spans, base', rfl, pushed⟩ := stems.exists_push
      refine ⟨.change entry known.denotes rfl, known.sized.2,
        Nat.succ.inj known.length, fun p' hp' => ?_⟩
      cases kept.follows q _ pushed with
      | @push _ _ v' base_le' base_eq' next' =>
        -- the version pushed on is the one that the pop brings back
        obtain rfl : (⟨below, rest⟩ : Version) = v' := by
          obtain ⟨stack, pushes⟩ := Version.mk.inj (Option.some.inj (next'.symm.trans same))
          obtain ⟨-, rfl, -⟩ := Stack.on.inj stack
          obtain ⟨-, rfl⟩ := List.cons.inj pushes
          rfl
        obtain ⟨le, stems', same'⟩ := (ih base' (by omega) _ base_eq').top p' hp'
        exact ⟨by omega, .pop entry stems pushed stems', same'⟩

/-- The top frame of a version stems from the push that its first number names. -/
theorem Kept.head?_of_stems (kept : g.Kept table) {i p : Nat} (h : Stems g.made i p) :
    ∀ v, g.history.version? i = some v → v.pushes.head? = some p := by
  induction h with
  | @push i spans base entry =>
    intro v hv
    cases kept.follows i _ entry with
    | push _ _ next =>
      obtain rfl := Option.some.inj (next.symm.trans hv)
      rfl
  | @pop i p q base below spans entry _ pushed _ ih ih' =>
    intro v hv
    cases kept.follows i _ entry with
    | @pop _ frame stack depth pushes _ base_eq next =>
      obtain rfl := Option.some.inj (next.symm.trans hv)
      have top := ih _ base_eq
      obtain ⟨-, -, same⟩ := (kept.known base _ base_eq).top _ top
      cases kept.follows p _ pushed with
      | @push _ _ v' _ base_eq' next' =>
        obtain rfl := (Version.mk.inj (Option.some.inj (next'.symm.trans same))).2
        exact ih' v' base_eq'

theorem Kept.exists_known (kept : g.Kept table) {i : Nat} (hi : i < g.history.count) :
    ∃ v, g.history.version? i = some v ∧ Known g.made g.history i v := by
  obtain ⟨v, hv⟩ := Option.isSome_iff_exists.1 (History.version?_isSome_iff.2 hi)
  exact ⟨v, hv, kept.known i v hv⟩

theorem Known.head?_eq_none_iff {made : List Change} {h : History} {i : Nat} {v : Version}
    (known : Known made h i v) : v.pushes.head? = none ↔ Denotes made i [] := by
  rw [List.head?_eq_none_iff, ← List.length_eq_zero_iff, known.length, List.length_eq_zero_iff]
  exact ⟨fun empty => empty ▸ known.denotes, fun empty => known.denotes.unique empty⟩

theorem Known.eq_start {made : List Change} {h : History} {i : Nat} {v : Version}
    (known : Known made h i v) (empty : Denotes made i []) : v = .start := by
  obtain ⟨stack, pushes⟩ := v
  have none : pushes = [] := List.head?_eq_none_iff.1 (known.head?_eq_none_iff.2 empty)
  have frames : stack.frames = [] := known.denotes.unique empty
  rw [none, Stack.eq_empty_of_frames frames, Version.start]

theorem Kept.same_iff (kept : g.Kept table) {i j : Nat} (hi : i < g.history.count)
    (hj : j < g.history.count) :
    g.history.same i j = true ↔ (Denotes g.made i [] ∧ Denotes g.made j []) ∨
      ∃ p, Stems g.made i p ∧ Stems g.made j p := by
  obtain ⟨a, ha, known⟩ := kept.exists_known hi
  obtain ⟨b, hb, known'⟩ := kept.exists_known hj
  have same : g.history.same i j = true ↔ a.pushes.head? = b.pushes.head? := by
    simp [History.same, ha, hb, Version.sameAs]
  rw [same]
  constructor
  · intro heads
    cases hp : a.pushes.head? with
    | none => exact .inl ⟨known.head?_eq_none_iff.1 hp, known'.head?_eq_none_iff.1 (heads ▸ hp)⟩
    | some p => exact .inr ⟨p, (known.top p hp).2.1, (known'.top p (heads ▸ hp)).2.1⟩
  · rintro (⟨empty, empty'⟩ | ⟨p, stems, stems'⟩)
    · exact (known.head?_eq_none_iff.2 empty).trans (known'.head?_eq_none_iff.2 empty').symm
    · exact (kept.head?_of_stems stems a ha).trans (kept.head?_of_stems stems' b hb).symm

theorem Kept.version?_eq_of_same (kept : g.Kept table) {i j : Nat} (hi : i < g.history.count)
    (hj : j < g.history.count) (h : g.history.same i j = true) :
    g.history.version? i = g.history.version? j := by
  obtain ⟨a, ha, known⟩ := kept.exists_known hi
  obtain ⟨b, hb, known'⟩ := kept.exists_known hj
  rw [ha, hb]
  rcases (kept.same_iff hi hj).1 h with ⟨empty, empty'⟩ | ⟨p, stems, stems'⟩
  · rw [known.eq_start empty, known'.eq_start empty']
  · have top := known.top p (kept.head?_of_stems stems a ha)
    have top' := known'.top p (kept.head?_of_stems stems' b hb)
    exact top.2.2.symm.trans top'.2.2

theorem Kept.same_pop_push (kept : g.Kept table) {i j base : Nat} {spans : Option (List Span)}
    (pushed : g.made[i]? = some (.push spans base)) (popped : g.made[j]? = some (.pop (i + 1))) :
    g.history.same (j + 1) base = true := by
  cases kept.follows i _ pushed with
  | @push _ _ v _ base_eq next =>
    cases kept.follows j _ popped with
    | pop _ next_eq last =>
      obtain ⟨-, rfl⟩ := Version.mk.inj (Option.some.inj (next_eq.symm.trans next))
      simp [History.same, last, base_eq, Version.sameAs]

theorem Kept.eq_of_same_pushes (kept : g.Kept table) {i j base base' : Nat}
    {spans spans' : Option (List Span)} (pushed : g.made[i]? = some (.push spans base))
    (pushed' : g.made[j]? = some (.push spans' base'))
    (h : g.history.same (i + 1) (j + 1) = true) : i = j := by
  cases kept.follows i _ pushed with
  | push _ _ next =>
    cases kept.follows j _ pushed' with
    | push _ _ next' => simpa [History.same, next, next', Version.sameAs] using h

end Growth

/-! ## Popping all the way down -/

namespace History

variable {table : Table} {h : History} {i : Nat} {v : Version}

theorem pop?_eq_none_iff (hv : h.version? i = some v) :
    h.pop? table i = none ↔ v.stack.frames = [] := by
  cases hs : v.stack <;> simp [pop?, hv, hs, Stack.pop?, Stack.frames]

/-- As many pops as there are frames leave none of them, one pop after the other. -/
theorem popTimes_of_version? (table : Table) (hv : h.version? i = some v) {n : Nat}
    (hn : n ≤ v.stack.frames.length) : ∃ h' j v', h.popTimes table n i = some (h', j) ∧
      h'.version? j = some v' ∧ v'.stack.frames = v.stack.frames.drop n := by
  induction n generalizing h i v with
  | zero => exact ⟨h, i, v, rfl, hv, rfl⟩
  | succ n ih =>
    obtain ⟨stack, pushes⟩ := v
    cases stack with
    | empty => cases hn
    | on frame below depth =>
      have popped : h.pop? table i =
          some (h.add ⟨below, pushes.tail⟩, .between table frame below.current) := by
        simp [pop?, hv, Stack.pop?, add]
      obtain ⟨h', j, v', more, last, frames⟩ :=
        ih (h.version?_add_count ⟨below, pushes.tail⟩) (Nat.le_of_succ_le_succ hn)
      refine ⟨h', j, v', ?_, last, frames⟩
      rw [popTimes, popped]
      exact more

end History

/-- Along any pushes and pops, each on any earlier version and whatever the table, a version
denotes one list of frames, and it stays as it is. A push puts the frame asked for or a copy of
the front one in front, a pop takes the front one away. The stored length is the number of frames,
so many pops lead to the empty stack, and the next pop fails. Two versions are the same stack if
and only if both are empty or their top frames come from the same push; then they have all
frames in common. So a pop leads back to the version pushed on, and no two pushes make the same
stack. -/
theorem versions_keep_identity (table : Table) (changes : List Change) :
    let g := Growth.after table changes
    let h := g.history
    h.count = g.made.length + 1 ∧
    (∀ i < h.count, ∃ v frames, h.version? i = some v ∧ v.stack.frames = frames ∧
      (∀ frames', Denotes g.made i frames' ↔ frames' = frames) ∧
      v.stack.depth = frames.length ∧
      (∀ spans, (h.push table spans i).isSome) ∧ (h.pop? table i = none ↔ frames = []) ∧
      ∃ h' j v', h.popTimes table v.stack.depth i = some (h', j) ∧ h'.version? j = some v' ∧
        v'.stack = .empty ∧ h'.pop? table j = none) ∧
    (∀ more i, i < h.count →
      (Growth.after table (changes ++ more)).history.version? i = h.version? i) ∧
    (∀ i < h.count, ∀ j < h.count,
      (h.same i j = true ↔ (Denotes g.made i [] ∧ Denotes g.made j []) ∨
        ∃ p, Stems g.made i p ∧ Stems g.made j p) ∧
      (h.same i j = true → h.version? i = h.version? j)) ∧
    (∀ i j spans base, g.made[i]? = some (.push spans base) →
      g.made[j]? = some (.pop (i + 1)) → h.same (j + 1) base = true) ∧
    ∀ i j spans spans' base base', g.made[i]? = some (.push spans base) →
      g.made[j]? = some (.push spans' base') → h.same (i + 1) (j + 1) = true → i = j := by
  intro g h
  have kept : g.Kept table := Growth.kept_after table changes
  refine ⟨kept.count, fun i hi => ?_, fun more i hi =>
    (Growth.extends_after table changes more).1.version? i hi, fun i hi j hj =>
    ⟨kept.same_iff hi hj, kept.version?_eq_of_same hi hj⟩, fun i j spans base =>
    kept.same_pop_push, fun i j spans spans' base base' => kept.eq_of_same_pushes⟩
  obtain ⟨v, hv, known⟩ := kept.exists_known hi
  have depth := known.sized.depth_eq
  refine ⟨v, v.stack.frames, hv, rfl, fun frames => ⟨fun denotes => denotes.unique known.denotes,
    fun same => same ▸ known.denotes⟩, depth, fun spans => by simp [History.push, h, hv],
    History.pop?_eq_none_iff hv, ?_⟩
  obtain ⟨h', j, v', popped, last, frames⟩ :=
    History.popTimes_of_version? table hv (Nat.le_of_eq depth)
  have empty : v'.stack.frames = [] := by rw [frames, depth, List.drop_length]
  exact ⟨h', j, v', popped, last, Stack.eq_empty_of_frames empty,
    (History.pop?_eq_none_iff last).2 empty⟩

/-- The same frame twice on the empty stack, the first copied and popped again, and a pop that
fails. -/
def twoBolds : List Change :=
  [.push (some [.bold]) 0, .push (some [.bold]) 0, .push none 1, .pop 3, .pop 0]

/-- The copy popped again is the first stack; the second is another one that looks the same. -/
theorem twoBolds_told_apart :
    let g := Growth.after .ansi twoBolds
    let h := g.history
    g.made.length = 4 ∧ (h.version? 1).map Version.stack = (h.version? 2).map Version.stack ∧
      h.same 4 1 = true ∧ h.version? 4 = h.version? 1 ∧ h.same 1 2 ≠ true := by
  intro g h
  have known (i : Nat) (hi : i < 5) : i < h.count := hi
  obtain ⟨-, -, -, same, brings_back, apart⟩ := versions_keep_identity .ansi twoBolds
  have back : h.same 4 1 = true := brings_back 2 3 none 1 rfl rfl
  have equal := (same 4 (known 4 (by decide)) 1 (known 1 (by decide))).2 back
  exact ⟨rfl, rfl, back, equal, fun alike =>
    absurd (apart 0 1 _ _ 0 0 rfl rfl alike) (by decide)⟩

end StyledEffects.Style
