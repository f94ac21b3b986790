import StyledEffects.Proofs.Usage

/-! Writers at rest. The task goes back to an empty queue only through a flush of its stream that
has succeeded, and so does a task that ends with success. Whatever came from the handle meanwhile,
nothing then is left in a buffer. -/

namespace StyledEffects

namespace Writer

variable {σ : Type}

/-- The task waits on an empty queue, or it has ended with success. -/
def AtRest (w : Writer σ) : Prop :=
  (w.phase = .waiting ∧ w.queue = []) ∨ w.stopped? = some (.ok ())

theorem AtRest.of_adds {w w' : Writer σ} (h : w'.AtRest) (ha : w.Adds w') : w.AtRest := by
  rcases h with ⟨hp, hq⟩ | hs
  · refine Or.inl ⟨ha.phase.symm.trans hp, ?_⟩
    exact List.prefix_nil.1 (hq ▸ ha.queue)
  · exact Or.inr (ha.stopped?.symm.trans hs)

theorem not_atRest_afterText (w : Writer σ) : ¬ { w with phase := afterText w.queue }.AtRest := by
  cases hq : w.queue <;> simp [AtRest, afterText, stopped?]

theorem not_atRest_flushed (purpose : Purpose) (e : DeviceError) (w : Writer σ) :
    ¬ (w.flushed purpose (.error e)).AtRest := by
  cases purpose <;> simp [AtRest, flushed, stopped?]

variable [OutputStream σ]

/-- Of the turns of the task only a flush that succeeds brings it to rest. -/
theorem Turn.flush_of_atRest {w w' : Writer σ} {events : List Log.Event} (h : Turn w w' events)
    (hr : w'.AtRest) : (OutputStream.flush w.stream).1 = .ok () ∧
      w'.stream = (OutputStream.flush w.stream).2 := by
  cases h with
  | endText hp => exact absurd hr (not_atRest_afterText w)
  | @flush purpose hp =>
    refine ⟨?_, flushed_stream _ _ _⟩
    cases hf : (OutputStream.flush w.stream).1 with
    | ok u => rfl
    | error e =>
      rw [hf] at hr
      exact absurd hr (not_atRest_flushed purpose e _)
  | _ => simp [AtRest, stopped?] at hr

/-- What holds of the stream at the start and after every flush that succeeds holds of it whenever
the task is at rest. -/
theorem stream_of_atRest {P : σ → Prop} {label : String} {stream : σ} {uses : List Use}
    {w : Writer σ} (hw : (new label stream).after uses = some w) (start : P stream)
    (flush : ∀ s, (OutputStream.flush s).1 = .ok () → P (OutputStream.flush s).2)
    (hr : w.AtRest) : P w.stream := by
  refine after_keeps (P := fun w => w.AtRest → P w.stream) hw (fun _ => start) ?_ hr
  intro u w w' hw hu hr
  rcases hu.adds_or_turn with ha | ⟨events, ht⟩
  · rw [ha.stream]
    exact hw (hr.of_adds ha)
  · obtain ⟨ok, stream⟩ := ht.flush_of_atRest hr
    rw [stream]
    exact flush w.stream ok

theorem atRest_or_failed_of_step_eq_none {w : Writer σ} (h : w.step = none) :
    w.AtRest ∨ w.Failed := by
  cases hs : w.stopped? with
  | none =>
    obtain ⟨hp, hq, -⟩ := waiting_of_step_eq_none h hs
    exact Or.inl (Or.inl ⟨hp, hq⟩)
  | some outcome =>
    cases outcome with
    | ok u => exact Or.inl (Or.inr hs)
    | error e => exact Or.inr ⟨e, hs⟩

/-- At rest the calls on the stream end with a flush that has succeeded, unless there are none. -/
theorem calls_of_atRest {label : String} {stream : σ} {uses : List Use} {w : Writer (Watched σ)}
    (hw : (new label (Watched.new stream)).after uses = some w) (hr : w.AtRest) :
    w.stream.calls = [] ∨ ∃ before, w.stream.calls = before ++ [.flush (.ok ())] := by
  refine stream_of_atRest (P := fun s : Watched σ =>
    s.calls = [] ∨ ∃ before, s.calls = before ++ [.flush (.ok ())]) hw (Or.inl rfl) ?_ hr
  intro s ok
  right
  refine ⟨s.calls, ?_⟩
  rw [Watched.calls_flush, ok]

omit [OutputStream σ] in
theorem buffer_of_atRest {δ : Type} [Device δ] {label : String} {s : Buffered δ} {uses : List Use}
    {w : Writer (Watched (Buffered δ))} (hw : (new label (Watched.new s)).after uses = some w)
    (hr : w.AtRest) : w.stream = Watched.new s ∨ w.stream.stream.buffer = [] := by
  refine stream_of_atRest (P := fun t : Watched (Buffered δ) =>
    t = Watched.new s ∨ t.stream.buffer = []) hw (Or.inl rfl) ?_ hr
  intro t ok
  right
  rcases t.stream.writeOut_cases with ⟨-, out⟩ | ⟨e, -, out⟩
  · exact congrArg (fun r => r.2.buffer) out
  · exact absurd ((congrArg Prod.fst out).symm.trans ok) (by simp)

/-- Whatever is called on the handle, and whenever the task gets to its turns: at rest there has
been no write since the last flush that succeeded. That flush is the last call, and the buffer of a
stream that has one is empty, unless it held something before it came to the writer and there has
been no call. Left alone the task comes to rest, unless the stream fails. -/
theorem nothing_unflushed_at_rest (label : String) :
    (∀ (σ : Type) [OutputStream σ] (stream : σ) uses w,
      (new label (Watched.new stream)).after uses = some w →
        (w.AtRest → ∀ before text more after,
          w.stream.calls = before ++ .write text more :: after →
            ∃ rest, after = rest ++ [.flush (.ok ())]) ∧
        ∃ turns w', turns ≤ w.work ∧ w.after (List.replicate turns .turn) = some w' ∧
          (w'.AtRest ∨ w'.Failed)) ∧
    ∀ (δ : Type) [Device δ] (s : Buffered δ) uses w,
      (new label (Watched.new s)).after uses = some w → w.AtRest →
        w.stream.calls ≠ [] ∨ s.buffer = [] → w.stream.stream.buffer = [] := by
  refine ⟨fun σ _ stream uses w hw => ⟨fun hr before text more after hc => ?_, ?_⟩, ?_⟩
  · rcases calls_of_atRest hw hr with none | ⟨front, last⟩
    · simp [none] at hc
    · rcases eq_append_cons_of_concat (last.symm.trans hc) with ⟨-, he, -⟩ | ⟨rest, -, he⟩
      · cases he
      · exact ⟨rest, he⟩
  · obtain ⟨turns, w', hle, hw', hidle⟩ := w.exists_idle
    exact ⟨turns, w', hle, hw', atRest_or_failed_of_step_eq_none hidle⟩
  · intro δ _ s uses w hw hr hs
    rcases buffer_of_atRest hw hr with same | empty
    · rw [same] at hs ⊢
      exact hs.resolve_left fun called => called rfl
    · exact empty

def roomyDevice : Writer (Watched (Buffered BoundedDevice)) :=
  new "primary" (.new (.new (.new none none false) 8))

def textAndTime : List Use := [.send "ab"] ++ List.replicate 4 .turn

/-- The two bytes of the text do not fill the buffer, but at rest they are not in it. -/
theorem textAndTime_flushed :
    ∃ w, roomyDevice.after textAndTime = some w ∧ w.AtRest ∧ w.stream.stream.buffer = [] ∧
      ∃ before more rest, w.stream.calls =
        before ++ .write "ab" more :: (rest ++ [.flush (.ok ())]) := by
  obtain ⟨w, hw, hr, hc⟩ : ∃ w, roomyDevice.after textAndTime = some w ∧ w.AtRest ∧
      w.stream.calls = [] ++ .write "ab" true :: [.flush (.ok ())] :=
    ⟨_, rfl, Or.inl ⟨rfl, rfl⟩, rfl⟩
  obtain ⟨streams, buffers⟩ := nothing_unflushed_at_rest "primary"
  obtain ⟨rest, hrest⟩ := (streams _ _ _ w hw).1 hr [] "ab" true _ hc
  refine ⟨w, hw, hr, buffers _ _ _ w hw hr (Or.inr rfl), [], true, rest, ?_⟩
  rw [← hrest]
  exact hc

end Writer

end StyledEffects
