import StyledEffects.Proofs.Delivery

/-! Writers in use. Calls on the handle and turns of the task come in any order, up to the call
that shuts the writer down; after that there are turns only. Left to itself the task comes to
a point where it has nothing to do, and the writes so far are always a first part of the lines
that have been sent. -/

namespace StyledEffects

inductive Use where
  | send (text : String)
  | flush
  | shutdown
  | turn
  deriving DecidableEq, Repr

namespace Use

def text? : Use → Option String
  | send text => some text
  | _ => none

def lines (uses : List Use) : List String := (uses.filterMap text?).flatMap Text.lines

@[simp] theorem lines_nil : lines [] = [] := rfl

theorem lines_append (a b : List Use) : lines (a ++ b) = lines a ++ lines b := by
  simp [lines]

theorem lines_append_silent {u : Use} (h : u.text? = none) (uses : List Use) :
    lines (uses ++ [u]) = lines uses := by
  simp [lines, h]

end Use

namespace Writer

variable {σ : Type}

/-! ## The handle and the lines -/

/-- A call on the handle adds to the queue at most; of the rest the task sees no change but that
the queue has been closed. -/
structure Adds (w w' : Writer σ) : Prop where
  stream : w'.stream = w.stream
  phase : w'.phase = w.phase
  answers : w'.answers = w.answers
  queue : w.queue <+: w'.queue

theorem adds_send (text : String) (w : Writer σ) : w.Adds (w.send text).1 := by
  unfold send
  split
  · exact ⟨rfl, rfl, rfl, List.prefix_refl _⟩
  · split
    · exact ⟨rfl, rfl, rfl, List.prefix_refl _⟩
    · exact ⟨rfl, rfl, rfl, List.prefix_append _ _⟩

theorem label_send (text : String) (w : Writer σ) : (w.send text).1.label = w.label := by
  unfold send
  split
  · rfl
  · split <;> rfl

theorem adds_requestFlush (w : Writer σ) : w.Adds w.requestFlush.2 := by
  unfold requestFlush
  split
  · exact ⟨rfl, rfl, rfl, List.prefix_refl _⟩
  · exact ⟨rfl, rfl, rfl, List.prefix_append _ _⟩

theorem adds_close (w : Writer σ) : w.Adds w.close := ⟨rfl, rfl, rfl, List.prefix_refl _⟩

theorem Adds.stopped? {w w' : Writer σ} (h : w.Adds w') : w'.stopped? = w.stopped? := by
  simp only [Writer.stopped?, h.phase]

theorem Tracks.extend {w : Writer (Watched σ)} {more total : List String}
    (h : w.Tracks more total) (extra : List String) :
    w.Tracks (more ++ extra) (total ++ extra) := by
  refine ⟨h.last, ?_⟩
  rcases h.lines with hl | ⟨hf, hl⟩
  · left
    rw [← List.append_assoc, hl]
  · right
    exact ⟨hf, hl.trans (List.prefix_append _ _)⟩

theorem Tracks.requestFlush {w : Writer (Watched σ)} {more total : List String}
    (h : w.Tracks more total) (ho : w.closed = false) : w.requestFlush.2.Tracks more total := by
  unfold Writer.requestFlush
  cases hs : w.stopped? with
  | some outcome => exact ⟨h.last, h.lines⟩
  | none =>
    refine ⟨fun hl => absurd (h.last hl).1 (by simp [ho]), ?_⟩
    rcases h.lines with hl | ⟨⟨e, he⟩, -⟩
    · left
      simpa [owed, Signal.lines] using hl
    · simp [hs] at he

theorem Tracks.running {w : Writer (Watched σ)} {more total : List String}
    (h : w.Tracks more total) (ho : w.closed = false) : w.stopped? = none ∨ w.Failed := by
  cases hs : w.stopped? with
  | none => exact Or.inl rfl
  | some outcome =>
    cases outcome with
    | error e => exact Or.inr ⟨e, hs⟩
    | ok u => simp [(h.last (Or.inr hs)).1] at ho

variable [OutputStream σ]

/-! ## One use -/

/-- The writer after a use and what is logged by it; none if it cannot happen. -/
def use (u : Use) (w : Writer σ) : Option (Writer σ × List Log.Event) :=
  match u with
  | .send text => if w.closed then none else some (w.send text)
  | .flush => if w.closed then none else some (w.requestFlush.2, [])
  | .shutdown => if w.closed then none else some (w.close, [])
  | .turn => w.step

inductive Used (w : Writer σ) : Use → Writer σ → Prop
  | send (text : String) (ho : w.closed = false) : Used w (.send text) (w.send text).1
  | flush (ho : w.closed = false) : Used w .flush w.requestFlush.2
  | shutdown (ho : w.closed = false) : Used w .shutdown w.close
  | turn {w' events} (ht : Turn w w' events) : Used w .turn w'

theorem used_of_use {u : Use} {w w' : Writer σ} {events : List Log.Event}
    (h : w.use u = some (w', events)) : Used w u w' := by
  cases u with
  | turn => exact .turn (turn_of_step h)
  | send text =>
    cases hc : w.closed with
    | true => simp [use, hc] at h
    | false =>
      obtain rfl : (w.send text).1 = w' := by
        rw [use, hc] at h
        exact congrArg Prod.fst (Option.some.inj h)
      exact .send text hc
  | flush =>
    cases hc : w.closed with
    | true => simp [use, hc] at h
    | false =>
      obtain ⟨rfl, -⟩ := by simpa [use, hc] using h
      exact .flush hc
  | shutdown =>
    cases hc : w.closed with
    | true => simp [use, hc] at h
    | false =>
      obtain ⟨rfl, -⟩ := by simpa [use, hc] using h
      exact .shutdown hc

theorem Used.adds_or_turn {u : Use} {w w' : Writer σ} (h : Used w u w') :
    w.Adds w' ∨ ∃ events, Turn w w' events := by
  cases h with
  | send text ho => exact Or.inl (adds_send text w)
  | flush ho => exact Or.inl (adds_requestFlush w)
  | shutdown ho => exact Or.inl (adds_close w)
  | turn ht => exact Or.inr ⟨_, ht⟩

theorem Turn.label {w w' : Writer σ} {events : List Log.Event} (h : Turn w w' events) :
    w'.label = w.label := by
  cases h with
  | @flush purpose hp => cases purpose <;> cases (OutputStream.flush w.stream).1 <;> rfl
  | _ => rfl

theorem Used.label {w w' : Writer σ} {u : Use} (h : Used w u w') : w'.label = w.label := by
  cases h with
  | send text ho => exact label_send text w
  | flush ho =>
    unfold requestFlush
    split <;> rfl
  | shutdown ho => rfl
  | turn ht => exact ht.label

/-! ## Any uses -/

def after : List Use → Writer σ → Option (Writer σ)
  | [], w => some w
  | u :: rest, w => (w.use u).bind fun (w, _) => w.after rest

/-- What every use keeps, of the writer and of the uses up to then, holds after any of them. -/
theorem after_invariant {P : List Use → Writer σ → Prop} {before uses : List Use}
    {w w' : Writer σ} (h : w.after uses = some w') (hw : P before w)
    (hused : ∀ before u w w', P before w → Used w u w' → P (before ++ [u]) w') :
    P (before ++ uses) w' := by
  induction uses generalizing before w with
  | nil =>
    obtain rfl : w = w' := by simpa [after] using h
    simpa using hw
  | cons u rest ih =>
    obtain ⟨⟨next, events⟩, hu, hrest⟩ := Option.bind_eq_some_iff.1 h
    have := ih hrest (hused before u w next hw (used_of_use hu))
    rwa [List.append_assoc] at this

theorem after_keeps {P : Writer σ → Prop} {uses : List Use} {w w' : Writer σ}
    (h : w.after uses = some w') (hw : P w) (hused : ∀ u w w', P w → Used w u w' → P w') : P w' :=
  @after_invariant σ _ (fun _ w => P w) [] uses w w' h hw fun _ u w w' => hused u w w'

theorem closed_after {uses : List Use} {w w' : Writer σ} (h : w.after uses = some w')
    (hc : w.closed = true) : w'.closed = true := by
  refine after_keeps (P := fun w => w.closed = true) h hc ?_
  intro u w w' hc hu
  cases hu with
  | turn ht => exact ht.closed.trans hc
  | shutdown ho => rfl
  | send text ho => simp [hc] at ho
  | flush ho => simp [hc] at ho

/-- The task alone comes to a point where it has nothing to do, within the turns it has work
for. -/
theorem exists_idle (w : Writer σ) :
    ∃ turns w', turns ≤ w.work ∧ w.after (List.replicate turns .turn) = some w' ∧
      w'.step = none := by
  induction hn : w.work using Nat.strongRecOn generalizing w with
  | ind n ih =>
    cases hs : w.step with
    | none => exact ⟨0, w, Nat.zero_le n, rfl, hs⟩
    | some r =>
      have less : r.1.work < n := by
        rw [← hn]
        exact work_lt_of_step hs
      obtain ⟨turns, w', hle, hw, hidle⟩ := ih r.1.work less r.1 rfl
      refine ⟨turns + 1, w', by omega, ?_, hidle⟩
      simpa [List.replicate_succ, after, use, hs] using hw

theorem Tracks.used {w w' : Writer (Watched σ)} {before : List Use} {u : Use}
    (h : w.Tracks [] (Use.lines before)) (hu : Used w u w') :
    w'.Tracks [] (Use.lines (before ++ [u])) := by
  cases hu with
  | send text ho =>
    rw [Use.lines_append]
    refine Tracks.send ?_ ho
    simpa [Use.lines, Use.text?] using h.extend (Text.lines text)
  | flush ho =>
    rw [Use.lines_append_silent rfl]
    exact h.requestFlush ho
  | shutdown ho =>
    rw [Use.lines_append_silent rfl]
    exact h.close
  | turn ht =>
    rw [Use.lines_append_silent rfl]
    exact h.turn ht

end Writer

end StyledEffects
