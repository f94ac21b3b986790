import StyledEffects.Proofs.Tickets

/-! The flush of a writer is a barrier. One that is answered with success has met a flush of the
stream that succeeded after every line sent before, and no other line, had been written. The
task stops at the first call of the stream that fails, with an error of the same kind. -/

namespace StyledEffects

namespace Writer

variable {σ : Type}

/-! ## Failures -/

/-- No call on the stream has failed, or the task has stopped at the first one that did, with an
error of the same kind. -/
inductive Heeds (w : Writer (Watched σ)) : Prop
  | well (hf : ¬ w.Failed) (hc : ∀ call ∈ w.stream.calls, call.error? = none)
  | broken {before call cause e} (hs : w.stopped? = some (.error e))
      (hc : w.stream.calls = before ++ [call]) (hb : ∀ call ∈ before, call.error? = none)
      (he : call.error? = some cause) (hk : e.kind = cause.kind)

theorem heeds_new (label : String) (stream : σ) : (new label (Watched.new stream)).Heeds :=
  .well (by simp [Failed, new, stopped?]) (by simp [new])

theorem Heeds.adds {w w' : Writer (Watched σ)} (h : w.Heeds) (ha : w.Adds w') : w'.Heeds := by
  cases h with
  | well hf hc => exact .well (by rwa [Failed, ha.stopped?]) (by rwa [ha.stream])
  | broken hs hc hb he hk =>
    exact .broken (ha.stopped?.trans hs) (by rwa [ha.stream]) hb he hk

theorem Heeds.failed_iff {w : Writer (Watched σ)} (h : w.Heeds) :
    w.Failed ↔ ∃ call ∈ w.stream.calls, call.error? ≠ none := by
  cases h with
  | well hf hc =>
    refine ⟨fun hw => absurd hw hf, fun ⟨call, hm, he⟩ => absurd (hc call hm) he⟩
  | @broken before call cause e hs hc hb he hk =>
    refine ⟨fun _ => ⟨call, ?_, by simp [he]⟩, fun _ => ⟨e, hs⟩⟩
    rw [hc]
    exact List.mem_append_right _ List.mem_cons_self

/-! ## The barrier -/

/-- A flush that was asked for under `ticket` when the lines `total` had been sent. -/
inductive Barrier (ticket : Nat) (total : List String) (w : Writer (Watched σ)) : Prop
  | queued {front back} (hq : w.queue = front ++ .flush ticket :: back)
      (hl : w.stream.writes ++ w.phase.rest ++ front.flatMap Signal.lines = total)
  | inHand (hp : w.phase = .flushing (.answer ticket)) (hl : w.stream.writes = total)
  | served {before after} (hc : w.stream.calls = before ++ .flush (.ok ()) :: after)
      (hl : before.filterMap Call.written? = total)
  | refused (hf : w.Failed) (ha : (ticket, .ok ()) ∉ w.answers)

variable {ticket : Nat} {total : List String} {w w' : Writer (Watched σ)}

theorem Barrier.request (ht : w.Tracks [] total) (hn : w.Numbered)
    (hs : w.stopped? = none ∨ w.Failed) : Barrier w.tickets total w.requestFlush.2 := by
  unfold Writer.requestFlush
  rcases hs with hs | ⟨e, he⟩
  · rw [hs]
    rcases ht.lines with hl | ⟨⟨e, he⟩, -⟩
    · have last : w.queue ++ [.flush w.tickets] = w.queue ++ .flush w.tickets :: [] := rfl
      refine .queued last ?_
      simpa [owed] using hl
    · simp [hs] at he
  · rw [he]
    refine .refused ⟨e, he⟩ fun answered => ?_
    exact Nat.lt_irrefl _ (hn.lt (mem_asked_of_answer answered))

theorem Barrier.adds (h : Barrier ticket total w) (ha : w.Adds w') : Barrier ticket total w' := by
  cases h with
  | queued hq hl =>
    obtain ⟨more, hm⟩ := ha.queue
    refine .queued (hm.symm.trans (by rw [hq, List.append_assoc, List.cons_append])) ?_
    rw [ha.stream, ha.phase]
    exact hl
  | inHand hp hl => exact .inHand (ha.phase.trans hp) (by rwa [ha.stream])
  | served hc hl => exact .served (by rwa [ha.stream]) hl
  | refused hf hn => exact .refused (by rwa [Failed, ha.stopped?]) (by rwa [ha.answers])

/-- An answer with success has come from a flush of the stream behind all of `total`. -/
theorem Barrier.of_answer (h : Barrier ticket total w) (hn : w.Numbered)
    (ha : w.answer? ticket = some (.ok ())) :
    ∃ before after, w.stream.calls = before ++ .flush (.ok ()) :: after ∧
      before.filterMap Call.written? = total := by
  have answered : (ticket, .ok ()) ∈ w.answers :=
    (answer?_cases ha).resolve_right fun refused => nomatch refused.2.2
  cases h with
  | queued hq hl =>
    refine absurd answered (hn.unanswered ?_ _)
    simp [pending, hq, Signal.ticket?]
  | inHand hp hl =>
    refine absurd answered (hn.unanswered ?_ _)
    simp [pending, hp, Phase.ticket?]
  | served hc hl => exact ⟨_, _, hc, hl⟩
  | refused hf hn => exact absurd answered hn

/-! ## Turns of the task -/

variable [OutputStream σ] {events : List Log.Event} {u : Use}

theorem Heeds.turn (h : w.Heeds) (ht : Turn w w' events) : w'.Heeds := by
  have well : ∀ call ∈ w.stream.calls, call.error? = none := by
    cases h with
    | well hf hc => exact hc
    | broken hs => exact absurd ⟨_, hs⟩ ht.not_failed
  have more {call : Call} (hc : call.error? = none) :
      ∀ c ∈ w.stream.calls ++ [call], c.error? = none :=
    List.forall_mem_append.2 ⟨well, by simpa using hc⟩
  cases ht with
  | takeText hp hq => exact .well (by simp [Failed, stopped?]) well
  | takeFlush hp hq => exact .well (by simp [Failed, stopped?]) well
  | takeEnd hp hq hc => exact .well (by simp [Failed, stopped?]) well
  | endText hp =>
    refine .well ?_ well
    cases hq : w.queue <;> simp [Failed, afterText, stopped?]
  | line hp hm =>
    refine .well (by simp [Failed, stopped?]) ?_
    rw [Watched.calls_write]
    exact more rfl
  | fullLine hp hm =>
    refine .well (by simp [Failed, stopped?]) ?_
    rw [Watched.calls_write]
    exact more rfl
  | drained hp hd =>
    refine .well (by simp [Failed, stopped?]) ?_
    rw [Watched.calls_drain, hd]
    exact more rfl
  | @broken rest e hp hd =>
    refine .broken rfl (Watched.calls_drain _) well ?_ (Eq.refl e.kind)
    rw [hd]
    rfl
  | @flush purpose hp =>
    cases hf : (OutputStream.flush w.stream).1 with
    | ok u =>
      refine .well (not_failed_flushed purpose _) ?_
      rw [flushed_stream, Watched.calls_flush, hf]
      exact more rfl
    | error e =>
      obtain ⟨e', hs, hk⟩ :=
        stopped?_flushed purpose e { w with stream := (OutputStream.flush w.stream).2 }
      have failed : (Call.flush (.error e)).error? = some e := rfl
      refine .broken hs ?_ well failed hk
      rw [flushed_stream, Watched.calls_flush, hf]

theorem Turn.calls_prefix (h : Turn w w' events) : w.stream.calls <+: w'.stream.calls := by
  cases h with
  | line hp hm => simp
  | fullLine hp hm => simp
  | drained hp hd => simp
  | broken hp hd => simp
  | flush hp => simp
  | _ => exact List.prefix_refl _

omit [OutputStream σ] in
theorem notMem_answers_flushed (purpose : Purpose) (e : DeviceError) (stream : Watched σ)
    (h : (ticket, .ok ()) ∉ w.answers) :
    (ticket, .ok ()) ∉ ({ w with stream }.flushed purpose (.error e)).answers := by
  cases purpose <;> simpa [flushed] using h

/-- A flush signal in the queue comes closer to the front with the lines ahead of it, or the
task fails before it is answered. -/
theorem Barrier.turn_queued {front back : List Signal} (hn : w.Numbered)
    (hq : w.queue = front ++ .flush ticket :: back)
    (hl : w.stream.writes ++ w.phase.rest ++ front.flatMap Signal.lines = total)
    (ht : Turn w w' events) : Barrier ticket total w' := by
  have unanswered : (ticket, .ok ()) ∉ w.answers :=
    hn.unanswered (by simp [pending, hq, Signal.ticket?]) _
  cases ht with
  | takeText hp hq' =>
    cases front with
    | nil => simp [hq] at hq'
    | cons signal front =>
      obtain ⟨rfl, rfl⟩ := by simpa [hq] using hq'
      exact .queued rfl (by simpa [hp, Phase.rest, Signal.lines] using hl)
  | takeFlush hp hq' =>
    cases front with
    | nil =>
      obtain ⟨rfl, rfl⟩ := by simpa [hq] using hq'
      exact .inHand rfl (by simpa [hp, Phase.rest] using hl)
    | cons signal front =>
      obtain ⟨rfl, rfl⟩ := by simpa [hq] using hq'
      exact .queued rfl (by simpa [hp, Phase.rest, Signal.lines] using hl)
  | takeEnd hp hq' hc => simp [hq] at hq'
  | endText hp =>
    refine .queued hq ?_
    rw [rest_afterText]
    simpa [hp, Phase.rest] using hl
  | line hp hm => exact .queued hq (by simpa [hp, Phase.rest] using hl)
  | fullLine hp hm => exact .queued hq (by simpa [hp, Phase.rest] using hl)
  | drained hp hd => exact .queued hq (by simpa [hp, Phase.rest] using hl)
  | broken hp hd => exact .refused ⟨_, rfl⟩ unanswered
  | @flush purpose hp =>
    cases hf : (OutputStream.flush w.stream).1 with
    | ok u =>
      refine .queued ((flushed_queue _ _ _).trans hq) ?_
      rw [flushed_rest]
      simpa [hp, Phase.rest] using hl
    | error e =>
      obtain ⟨e', hs, -⟩ :=
        stopped?_flushed purpose e { w with stream := (OutputStream.flush w.stream).2 }
      exact .refused ⟨e', hs⟩ (notMem_answers_flushed purpose e _ unanswered)

theorem Barrier.turn (h : Barrier ticket total w) (hn : w.Numbered)
    (ht : Turn w w' events) : Barrier ticket total w' := by
  cases h with
  | queued hq hl => exact turn_queued hn hq hl ht
  | inHand hp hl =>
    cases ht with
    | @flush purpose hp' =>
      obtain rfl : purpose = .answer ticket := by simpa [hp] using hp'.symm
      cases hf : (OutputStream.flush w.stream).1 with
      | ok u =>
        have last : ({ w with stream := (OutputStream.flush w.stream).2 }.flushed
            (.answer ticket) (.ok u)).stream.calls = w.stream.calls ++ .flush (.ok ()) :: [] := by
          rw [flushed_stream, Watched.calls_flush, hf]
        exact .served last hl
      | error e =>
        refine .refused ⟨_, rfl⟩ (notMem_answers_flushed _ e _ (hn.unanswered ?_ _))
        simp [pending, hp, Phase.ticket?]
    | _ => simp_all
  | @served before after hc hl =>
    obtain ⟨later, hlater⟩ := ht.calls_prefix
    have calls : w'.stream.calls = before ++ .flush (.ok ()) :: (after ++ later) := by
      rw [← hlater, hc, List.append_assoc, List.cons_append]
    exact .served calls hl
  | refused hf ha => exact absurd hf ht.not_failed

/-! ## Any uses -/

theorem Heeds.used (h : w.Heeds) (hu : Used w u w') : w'.Heeds := by
  rcases hu.adds_or_turn with ha | ⟨events, ht⟩
  · exact h.adds ha
  · exact h.turn ht

theorem Barrier.used (h : Barrier ticket total w) (hn : w.Numbered) (hu : Used w u w') :
    Barrier ticket total w' := by
  rcases hu.adds_or_turn with ha | ⟨events, ht⟩
  · exact h.adds ha
  · exact h.turn hn ht

/-- What holds of a writer after some uses, whatever its stream does. -/
structure Serves (uses : List Use) (w : Writer (Watched σ)) : Prop where
  tracks : w.Tracks [] (Use.lines uses)
  numbered : w.Numbered
  tickets : w.tickets = uses.count .flush
  heeds : w.Heeds
  refuses : w.Refuses
  barrier : ∀ earlier later, uses = earlier ++ .flush :: later →
    Barrier (earlier.count .flush) (Use.lines earlier) w

omit [OutputStream σ] in
theorem serves_new (label : String) (stream : σ) :
    Serves [] (new label (Watched.new stream)) :=
  ⟨tracks_new label stream _, numbered_new _ _, rfl, heeds_new label stream,
    by simp [Refuses, new], by simp⟩

theorem eq_append_flush {uses earlier later : List Use}
    (h : uses ++ [u] = earlier ++ .flush :: later) :
    (u = .flush ∧ earlier = uses) ∨ ∃ rest, uses = earlier ++ .flush :: rest := by
  rcases eq_append_cons_of_concat h with ⟨he, hu, -⟩ | ⟨rest, hr, -⟩
  · exact Or.inl ⟨hu.symm, he⟩
  · exact Or.inr ⟨rest, hr⟩

theorem Serves.used {uses : List Use} (h : Serves uses w) (hu : Used w u w') :
    Serves (uses ++ [u]) w' where
  tracks := h.tracks.used hu
  numbered := h.numbered.used h.tracks hu
  tickets := by rw [hu.tickets, h.tickets, List.count_append]
  heeds := h.heeds.used hu
  refuses := h.refuses.used hu
  barrier earlier later he := by
    rcases eq_append_flush he with ⟨rfl, rfl⟩ | ⟨rest, hr⟩
    · cases hu with
      | flush ho =>
        rw [← h.tickets]
        exact .request h.tracks h.numbered (h.tracks.running ho)
    · exact (h.barrier earlier rest hr).used h.numbered hu

theorem Serves.after {before uses : List Use} (h : Serves before w)
    (hw : w.after uses = some w') : Serves (before ++ uses) w' :=
  after_invariant hw h fun _ _ _ _ hs hu => hs.used hu

theorem Serves.isSome_answer? {uses : List Use} (h : Serves uses w) (hs : w.step = none)
    (ht : ticket < w.tickets) : (w.answer? ticket).isSome := by
  cases hw : w.stopped? with
  | some outcome => cases hl : w.answers.lookup ticket <;> simp [answer?, hw, hl]
  | none =>
    obtain ⟨hp, hq, -⟩ := waiting_of_step_eq_none hs hw
    obtain ⟨outcome, hl⟩ := h.numbered.answered (by simp [Failed, hw])
      (by simp [pending, hp, hq, Phase.ticket?]) ht
    simp [answer?, hl]

omit [OutputStream σ] in
/-- A flush is answered with an error only if the task has failed. -/
theorem Serves.failed_of_answer? {uses : List Use} (h : Serves uses w) (ht : ticket < w.tickets)
    {e : DeviceError} (ha : w.answer? ticket = some (.error e)) : w.Failed := by
  rcases answer?_cases ha with answered | ⟨hl, ⟨result, hw⟩, -⟩
  · exact h.refuses ticket e answered
  · cases result with
    | error e' => exact ⟨e', hw⟩
    | ok u =>
      -- a task that has ended in success has no flush signal left
      have hq := (h.tracks.last (Or.inr hw)).2
      have hp : w.phase.ticket? = none := by
        cases hph : w.phase <;> simp_all [Writer.stopped?, Phase.ticket?]
      obtain ⟨outcome, hsome⟩ := h.numbered.answered (by simp [Failed, hw])
        (by simp [pending, hp, hq]) ht
      simp [hl] at hsome

/-- Whatever is called on the handle and whatever the stream does: the writes so far are the
first of the lines that have been sent. A flush is answered with success only behind a flush of
the stream that succeeded when all lines sent before the call had been written, and with an
error only if a call on the stream has failed. The task stops with success exactly if no call
has failed, and then has written all lines; else it stops with an error of the kind of the
first call that failed, which is the last call. Left alone it answers every flush and, once the
writer has been shut down, stops. -/
theorem delivers_in_order_with_barrier (label : String) (stream : σ) :
    ∀ uses w, (new label (Watched.new stream)).after uses = some w →
      w.stream.writes <+: Use.lines uses ∧
      (∀ earlier later, uses = earlier ++ .flush :: later →
        (w.answer? (earlier.count .flush) = some (.ok ()) →
          ∃ before after, w.stream.calls = before ++ .flush (.ok ()) :: after ∧
            before.filterMap Call.written? = Use.lines earlier) ∧
        ∀ e, w.answer? (earlier.count .flush) = some (.error e) →
          ∃ call ∈ w.stream.calls, call.error? ≠ none) ∧
      (∀ outcome, w.stopped? = some outcome →
        (outcome = .ok () ↔ ∀ call ∈ w.stream.calls, call.error? = none) ∧
        (outcome = .ok () → w.closed = true ∧ w.stream.writes = Use.lines uses) ∧
        ∀ e, outcome = .error e → ∃ before call cause, w.stream.calls = before ++ [call] ∧
          (∀ c ∈ before, c.error? = none) ∧ call.error? = some cause ∧ e.kind = cause.kind) ∧
      ∃ turns w', turns ≤ w.work ∧ w.after (List.replicate turns .turn) = some w' ∧
        (∀ ticket < uses.count .flush, (w'.answer? ticket).isSome) ∧
        (w.closed = true → w'.stopped?.isSome) := by
  intro uses w hw
  have h : Serves uses w := (serves_new label stream).after hw
  refine ⟨h.tracks.isPrefix, fun earlier later he => ⟨fun ha => ?_, fun e ha => ?_⟩,
    fun outcome ho => ⟨?_, ?_, ?_⟩, ?_⟩
  · exact (h.barrier earlier later he).of_answer h.numbered ha
  · have asked : earlier.count .flush < w.tickets := by
      rw [h.tickets, he]
      simp
    exact h.heeds.failed_iff.1 (h.failed_of_answer? asked ha)
  · have unfailed : (∀ call ∈ w.stream.calls, call.error? = none) ↔ ¬ w.Failed := by
      rw [h.heeds.failed_iff]
      simp
    rw [unfailed]
    constructor
    · rintro rfl ⟨e, he⟩
      simp [ho] at he
    · intro hf
      cases outcome with
      | ok u => rfl
      | error e => exact absurd ⟨e, ho⟩ hf
  · rintro rfl
    exact ⟨(h.tracks.last (Or.inr ho)).1, by simpa using h.tracks.writes_eq ho⟩
  · rintro e rfl
    cases h.heeds with
    | well hf => exact absurd ⟨e, ho⟩ hf
    | broken hs hc hb he hk =>
      obtain rfl : _ = e := by simpa [ho] using hs.symm
      exact ⟨_, _, _, hc, hb, he, hk⟩
  · obtain ⟨turns, w', hle, hw', hidle⟩ := w.exists_idle
    have h' : Serves (uses ++ List.replicate turns .turn) w' := h.after hw'
    refine ⟨turns, w', hle, hw', fun ticket ht => h'.isSome_answer? hidle ?_, fun hc => ?_⟩
    · rw [h'.tickets]
      simpa [List.count_append, List.count_replicate] using ht
    · exact stopped_of_step_eq_none (closed_after hw' hc) hidle

/-- A writer onto a device with room for three bytes, drained after every line. -/
def threeBytes : Writer (Watched (Buffered BoundedDevice)) :=
  new "primary" (.new (.new (.new none (some 3) false) 1))

def flushAndOverflow : List Use :=
  [.send "a\nb", .flush] ++ List.replicate 8 .turn ++ [.send "c", .flush, .shutdown] ++
    List.replicate 3 .turn

/-- The first flush is answered behind the first text. The second text breaks the task off. -/
theorem threeBytes_overflow :
    ∃ w, threeBytes.after flushAndOverflow = some w ∧ w.answer? 0 = some (.ok ()) ∧
      w.stopped? = some (.error ⟨.storageFull, "device full"⟩) ∧
      w.stream.writes <+: ["a\n", "b", "c"] ∧
      (∃ before after, w.stream.calls = before ++ .flush (.ok ()) :: after ∧
        before.filterMap Call.written? = ["a\n", "b"]) ∧
      ∃ before call cause, w.stream.calls = before ++ [call] ∧
        (∀ c ∈ before, c.error? = none) ∧ call.error? = some cause ∧
        cause.kind = .storageFull := by
  obtain ⟨w, hw, ha, hs⟩ : ∃ w, threeBytes.after flushAndOverflow = some w ∧
    w.answer? 0 = some (.ok ()) ∧
      w.stopped? = some (.error ⟨.storageFull, "device full"⟩) := ⟨_, rfl, rfl, rfl⟩
  obtain ⟨part, flushes, stops, -⟩ := delivers_in_order_with_barrier _ _ flushAndOverflow w hw
  obtain ⟨before, call, cause, hc, hb, he, hk⟩ := (stops _ hs).2.2 _ rfl
  exact ⟨w, hw, ha, hs, part, (flushes [.send "a\nb"] _ rfl).1 ha,
    before, call, cause, hc, hb, he, hk.symm⟩

end Writer

end StyledEffects
