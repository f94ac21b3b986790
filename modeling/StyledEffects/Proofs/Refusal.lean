import StyledEffects.Proofs.Barrier

/-! Refused flushes. A task that meets a failure while it serves a flush answers that flush with the
error of its stream. Every other flush it leaves without an answer is refused by the handle, with an
error that says no more than that the task has stopped. -/

namespace StyledEffects

namespace Writer

variable {σ : Type}

def Forwards (w : Writer σ) (ticket : Nat) (e : DeviceError) : Prop :=
  (ticket, .error e) ∈ w.answers

/-- An error in an answer is that of the last call on the stream, a flush, and no other answer has
one. -/
def Relays (w : Writer (Watched σ)) : Prop :=
  ∀ ticket e, w.Forwards ticket e →
    (∃ before, w.stream.calls = before ++ [.flush (.error e)]) ∧
      ∀ ticket' e', w.Forwards ticket' e' → ticket' = ticket

variable {ticket : Nat} {w w' : Writer (Watched σ)}

theorem Relays.adds (h : w.Relays) (ha : w.Adds w') : w'.Relays := by
  simp only [Relays, Forwards, ha.stream, ha.answers]
  exact h

variable [OutputStream σ] {events : List Log.Event} {u : Use}

theorem Relays.turn (h : w.Refuses) (ht : Turn w w' events) : w'.Relays := by
  have none : ∀ ticket e, ¬ w.Forwards ticket e :=
    fun ticket e hm => ht.not_failed (h ticket e hm)
  rcases ht.answers_cases with same | ⟨asked, rfl⟩
  · intro ticket e hm
    rw [Forwards, same] at hm
    exact absurd hm (none ticket e)
  · have answer {ticket e} (hm : ({ w with stream := (OutputStream.flush w.stream).2 }.flushed
        (.answer asked) (OutputStream.flush w.stream).1).Forwards ticket e) :
        ticket = asked ∧ .error e = (OutputStream.flush w.stream).1 := by
      rw [Forwards, answers_flushed_answer] at hm
      exact Prod.mk.inj ((List.mem_cons.1 hm).resolve_right (none ticket e))
    intro ticket e hm
    obtain ⟨rfl, hf⟩ := answer hm
    refine ⟨⟨w.stream.calls, ?_⟩, fun ticket' e' hm' => (answer hm').1⟩
    rw [flushed_stream, Watched.calls_flush, hf]

theorem label_after {uses : List Use} (h : w.after uses = some w') : w'.label = w.label :=
  after_keeps (P := fun v => v.label = w.label) h rfl fun _ _ _ hv hu => hu.label.trans hv

theorem relays_after {label : String} {stream : σ} {uses : List Use}
    (h : (new label (Watched.new stream)).after uses = some w) : w.Relays := by
  have start : (new label (Watched.new stream)).Refuses ∧ (new label (Watched.new stream)).Relays :=
    ⟨by simp [Refuses, new], by simp [Relays, Forwards, new]⟩
  refine (after_keeps (P := fun w => w.Refuses ∧ w.Relays) h start ?_).2
  rintro u w w' ⟨refuses, relays⟩ hu
  refine ⟨refuses.used hu, ?_⟩
  rcases hu.adds_or_turn with ha | ⟨events, ht⟩
  · exact relays.adds ha
  · exact .turn refuses ht

/-- Whatever is called on the handle and whatever the stream does: a flush that is answered with an
error has met a failed call on the stream, the last one, and the task has stopped with an error of
its kind. The answer is of that kind as well if the task itself has given it, which it does for one
flush at most, when the call that failed was made for that flush. Else the answer is a broken pipe
that says that the task has stopped, whatever the kind of the failure. -/
theorem kind_kept_iff_forwarded (label : String) (stream : σ) :
    ∀ uses w, (new label (Watched.new stream)).after uses = some w →
      ∀ earlier later, uses = earlier ++ .flush :: later →
        ∀ e, w.answer? (earlier.count .flush) = some (.error e) →
          ∃ before call cause stop, w.stream.calls = before ++ [call] ∧
            (∀ c ∈ before, c.error? = none) ∧ call.error? = some cause ∧
            w.stopped? = some (.error stop) ∧ stop.kind = cause.kind ∧
            (e.kind = cause.kind ↔
              w.Forwards (earlier.count .flush) e ∨ cause.kind = .brokenPipe) ∧
            (w.Forwards (earlier.count .flush) e → e = cause ∧ call = .flush (.error cause) ∧
              ∀ ticket e', w.Forwards ticket e' → ticket = earlier.count .flush) ∧
            (¬ w.Forwards (earlier.count .flush) e → e = stoppedError label) := by
  intro uses w hw earlier later he e ha
  have serves : Serves uses w := (serves_new label stream).after hw
  have asked : earlier.count .flush < w.tickets := by
    rw [serves.tickets, he]
    simp
  cases serves.heeds with
  | well hf => exact absurd (serves.failed_of_answer? asked ha) hf
  | @broken before call cause stop hs hc hb hcause hk =>
    have forwarded (hr : w.Forwards (earlier.count .flush) e) :
        e = cause ∧ call = .flush (.error cause) ∧
          ∀ ticket e', w.Forwards ticket e' → ticket = earlier.count .flush := by
      obtain ⟨⟨front, last⟩, only⟩ := relays_after hw _ e hr
      obtain ⟨-, same⟩ := List.append_inj' (hc.symm.trans last) rfl
      obtain rfl := List.singleton_inj.1 same
      obtain rfl : e = cause := by simpa [Call.error?] using hcause
      exact ⟨rfl, rfl, only⟩
    have refused (hr : ¬ w.Forwards (earlier.count .flush) e) : e = stoppedError label := by
      obtain ⟨-, -, own⟩ := (answer?_cases ha).resolve_left hr
      rw [Except.error.inj own, label_after hw]
      rfl
    refine ⟨before, call, cause, stop, hc, hb, hcause, hs, hk, ?_, forwarded, refused⟩
    by_cases hr : w.Forwards (earlier.count .flush) e
    · exact iff_of_true (congrArg DeviceError.kind (forwarded hr).1) (Or.inl hr)
    · have kind : e.kind = .brokenPipe := congrArg DeviceError.kind (refused hr)
      rw [kind]
      exact ⟨fun same => Or.inr same.symm, fun same => (same.resolve_left hr).symm⟩

def smallDevice : Writer (Watched (Buffered BoundedDevice)) :=
  new "primary" (.new (.new (.new none (some 3) false) 8))

/-- A text of four bytes with a flush behind it in the queue, and time for both. -/
def textAndFlush : List Use := [.send "abcd", .flush] ++ List.replicate 5 .turn

/-- This flush is answered with the error of the device, the next one is not. -/
theorem textAndFlush_refused :
    ∃ w, smallDevice.after (textAndFlush ++ [.flush]) = some w ∧
      w.stopped? = some (.error ⟨.storageFull, "primary flush failed"⟩) ∧
      (∃ e, w.answer? 0 = some (.error e) ∧ e.kind = .storageFull) ∧
      ∃ e, w.answer? 1 = some (.error e) ∧ ¬ w.Forwards 1 e ∧ e = stoppedError "primary" ∧
        e.kind ≠ .storageFull := by
  obtain ⟨w, hw, hs, h0, h1⟩ : ∃ w, smallDevice.after (textAndFlush ++ [.flush]) = some w ∧
      w.stopped? = some (.error ⟨.storageFull, "primary flush failed"⟩) ∧
      w.answer? 0 = some (.error ⟨.storageFull, "device full"⟩) ∧
      w.answer? 1 = some (.error (stoppedError "primary")) := ⟨_, rfl, rfl, rfl, rfl⟩
  have kept := kind_kept_iff_forwarded "primary" _ _ w hw
  obtain ⟨before, call, cause, stop, -, -, -, hs', hk, iff, -, -⟩ :=
    kept textAndFlush [] rfl _ h1
  obtain rfl : _ = stop := Except.error.inj (Option.some.inj (hs.symm.trans hs'))
  have lost : (stoppedError "primary").kind ≠ cause.kind := by
    rw [← hk]
    decide
  exact ⟨w, hw, hs, ⟨_, h0, rfl⟩, _, h1, fun forwarded => lost (iff.2 (Or.inl forwarded)), rfl,
    by decide⟩

end Writer

end StyledEffects
