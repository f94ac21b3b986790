import StyledEffects.Proofs.Usage

/-! Flush signals and their tickets. Flushes are answered in the order in which they are asked
for, each ticket once, and only a flush that fails is answered with an error. -/

namespace StyledEffects

def Signal.ticket? : Signal → Option Nat
  | .text _ => none
  | .flush ticket => some ticket

def Phase.ticket? : Phase → Option Nat
  | .flushing (.answer ticket) => some ticket
  | _ => none

namespace Writer

variable {σ : Type}

def pending (w : Writer σ) : List Nat :=
  w.phase.ticket?.toList ++ w.queue.filterMap Signal.ticket?

def asked (w : Writer σ) : List Nat := (w.answers.map Prod.fst).reverse ++ w.pending

/-- Flush signals are queued under the tickets 0, 1, 2 and so on, until the task fails. -/
def Numbered (w : Writer σ) : Prop :=
  w.asked = List.range w.tickets ∨ (w.Failed ∧ w.asked <+: List.range w.tickets)

theorem numbered_new (label : String) (stream : σ) : (new label stream).Numbered := Or.inl rfl

theorem Numbered.isPrefix {w : Writer σ} (h : w.Numbered) :
    w.asked <+: List.range w.tickets := by
  rcases h with h | ⟨-, h⟩
  · exact h ▸ List.prefix_refl _
  · exact h

theorem Numbered.lt {w : Writer σ} (h : w.Numbered) {ticket : Nat} (ht : ticket ∈ w.asked) :
    ticket < w.tickets :=
  List.mem_range.1 (h.isPrefix.subset ht)

theorem mem_asked_of_answer {w : Writer σ} {ticket : Nat} {outcome : Outcome}
    (h : (ticket, outcome) ∈ w.answers) : ticket ∈ w.asked :=
  List.mem_append_left _ (List.mem_reverse.2 (List.mem_map_of_mem h))

/-- An answer has been given by the task, or the task has stopped without one and the handle gives
its own. -/
theorem answer?_cases {w : Writer σ} {ticket : Nat} {outcome : Outcome}
    (h : w.answer? ticket = some outcome) :
    (ticket, outcome) ∈ w.answers ∨
      (w.answers.lookup ticket = none ∧ (∃ result, w.stopped? = some result) ∧
        outcome = .error (stoppedError w.label)) := by
  cases hl : w.answers.lookup ticket with
  | some given =>
    obtain rfl : given = outcome := by simpa [answer?, hl] using h
    obtain ⟨front, back, hb, -⟩ := List.lookup_eq_some_iff.1 hl
    exact Or.inl (by simp [hb])
  | none =>
    cases hs : w.stopped? with
    | none => simp [answer?, hl, hs] at h
    | some result =>
      have refused : .error (stoppedError w.label) = outcome := by simpa [answer?, hl, hs] using h
      exact Or.inr ⟨rfl, ⟨result, rfl⟩, refused.symm⟩

theorem Numbered.unanswered {w : Writer σ} (h : w.Numbered) {ticket : Nat}
    (ht : ticket ∈ w.pending) (outcome : Outcome) : (ticket, outcome) ∉ w.answers := by
  have distinct : w.asked.Nodup := List.nodup_range.sublist h.isPrefix.sublist
  intro answered
  refine (List.nodup_append.1 distinct).2.2 ticket ?_ ticket ht rfl
  exact List.mem_reverse.2 (List.mem_map_of_mem answered)

theorem Numbered.send {w : Writer σ} (h : w.Numbered) (text : String) :
    (w.send text).1.Numbered := by
  unfold Writer.send
  split
  · exact h
  · cases hs : w.stopped? with
    | some outcome => exact h
    | none =>
      simpa [Numbered, asked, pending, Signal.ticket?, List.filterMap_cons, Failed, stopped?]
        using h

theorem Numbered.requestFlush {w : Writer σ} (h : w.Numbered)
    (hs : w.stopped? = none ∨ w.Failed) : w.requestFlush.2.Numbered := by
  unfold Writer.requestFlush
  rcases hs with hs | hf
  · rw [hs]
    left
    have all : w.asked = List.range w.tickets := h.resolve_right fun hf => by
      obtain ⟨e, he⟩ := hf.1
      simp [hs] at he
    simp only [List.range_succ, ← all]
    simp [asked, pending, Signal.ticket?]
  · obtain ⟨e, he⟩ := hf
    rw [he]
    right
    refine ⟨⟨e, he⟩, h.isPrefix.trans ?_⟩
    simp only [List.range_succ]
    exact List.prefix_append _ _

theorem Numbered.answered {w : Writer σ} {ticket : Nat} (h : w.Numbered) (hf : ¬ w.Failed)
    (hp : w.pending = []) (ht : ticket < w.tickets) :
    ∃ outcome, w.answers.lookup ticket = some outcome := by
  have all : w.asked = List.range w.tickets := h.resolve_right fun hn => hf hn.1
  have answered : ticket ∈ w.asked := by
    rw [all]
    exact List.mem_range.2 ht
  obtain ⟨outcome, hm⟩ : ∃ outcome, (ticket, outcome) ∈ w.answers := by
    simpa [asked, hp] using answered
  exact Option.isSome_iff_exists.1 (List.lookup_isSome_iff.2 ⟨_, hm, beq_self_eq_true ticket⟩)

def Refuses (w : Writer σ) : Prop := ∀ ticket e, (ticket, .error e) ∈ w.answers → w.Failed

/-- A flush that fails stops the task with an error of the same kind, whatever it was for. -/
theorem stopped?_flushed (purpose : Purpose) (e : DeviceError) (w : Writer σ) :
    ∃ e', (w.flushed purpose (.error e)).stopped? = some (.error e') ∧ e'.kind = e.kind := by
  cases purpose <;> exact ⟨_, rfl, rfl⟩

@[simp] theorem answers_flushed_answer (ticket : Nat) (outcome : Outcome) (w : Writer σ) :
    (w.flushed (.answer ticket) outcome).answers = (ticket, outcome) :: w.answers := by
  cases outcome <;> rfl

theorem not_failed_flushed (purpose : Purpose) (w : Writer σ) :
    ¬ (w.flushed purpose (.ok ())).Failed := by
  cases purpose <;> simp [Failed, flushed, stopped?]

variable [OutputStream σ] {w w' : Writer (Watched σ)} {events : List Log.Event} {u : Use}

theorem Turn.asked_eq (h : Turn w w' events) : w'.asked = w.asked := by
  cases h with
  | takeText hp hq =>
    simp [asked, pending, hp, hq, Phase.ticket?, Signal.ticket?, List.filterMap_cons]
  | takeFlush hp hq => simp [asked, pending, hp, hq, Phase.ticket?, Signal.ticket?]
  | takeEnd hp hq hc => simp [asked, pending, hp, Phase.ticket?]
  | endText hp => cases hq : w.queue <;> simp [asked, pending, hp, hq, afterText, Phase.ticket?]
  | line hp hm => simp [asked, pending, hp, Phase.ticket?]
  | fullLine hp hm => simp [asked, pending, hp, Phase.ticket?]
  | drained hp hd => simp [asked, pending, hp, Phase.ticket?]
  | broken hp hd => simp [asked, pending, hp, Phase.ticket?]
  | @flush purpose hp =>
    cases purpose <;> cases (OutputStream.flush w.stream).1 <;>
      simp [asked, pending, hp, flushed, Phase.ticket?]

theorem Turn.answers_cases (h : Turn w w' events) :
    w'.answers = w.answers ∨
      ∃ ticket, w' = { w with stream := (OutputStream.flush w.stream).2 }.flushed
        (.answer ticket) (OutputStream.flush w.stream).1 := by
  cases h with
  | @flush purpose hp =>
    cases purpose with
    | answer ticket => exact Or.inr ⟨ticket, rfl⟩
    | idle => left; cases (OutputStream.flush w.stream).1 <;> rfl
    | last => exact Or.inl rfl
  | _ => exact Or.inl rfl

theorem Turn.tickets_eq (h : Turn w w' events) : w'.tickets = w.tickets := by
  cases h with
  | @flush purpose hp => cases purpose <;> cases (OutputStream.flush w.stream).1 <;> rfl
  | _ => rfl

theorem Numbered.turn (h : w.Numbered) (ht : Turn w w' events) : w'.Numbered := by
  left
  rw [ht.asked_eq, ht.tickets_eq]
  exact h.resolve_right fun hf => ht.not_failed hf.1

theorem Refuses.turn (h : w.Refuses) (ht : Turn w w' events) : w'.Refuses := by
  have none : ∀ ticket e, (ticket, .error e) ∉ w.answers :=
    fun ticket e hm => ht.not_failed (h ticket e hm)
  intro ticket e hm
  rcases ht.answers_cases with same | ⟨asked, rfl⟩
  · rw [same] at hm
    exact absurd hm (none ticket e)
  · rw [answers_flushed_answer] at hm
    rcases List.mem_cons.1 hm with answer | old
    · obtain ⟨-, hf⟩ := Prod.mk.inj answer
      rw [← hf]
      exact ⟨_, rfl⟩
    · exact absurd old (none ticket e)

theorem Used.tickets (h : Used w u w') : w'.tickets = w.tickets + [u].count .flush := by
  cases h with
  | send text ho =>
    unfold Writer.send
    split
    · rfl
    · split <;> rfl
  | flush ho =>
    unfold Writer.requestFlush
    split <;> rfl
  | shutdown ho => rfl
  | turn ht => exact ht.tickets_eq

theorem Numbered.used {more total : List String} (h : w.Numbered) (ht : w.Tracks more total)
    (hu : Used w u w') : w'.Numbered := by
  cases hu with
  | send text ho => exact h.send text
  | flush ho => exact h.requestFlush (ht.running ho)
  | shutdown ho => exact h
  | turn ht => exact h.turn ht

theorem Refuses.used (h : w.Refuses) (hu : Used w u w') : w'.Refuses := by
  rcases hu.adds_or_turn with ha | ⟨events, ht⟩
  · rw [Refuses, ha.answers, Failed, ha.stopped?]
    exact h
  · exact h.turn ht

end Writer

end StyledEffects
