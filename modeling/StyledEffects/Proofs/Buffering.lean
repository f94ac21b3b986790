import StyledEffects.Proofs.Chunks
import StyledEffects.Stream.Buffered
import StyledEffects.Stream.Trace
import StyledEffects.Wire.Instruction

/-! What a buffering stream keeps back. Over a device that never fails each byte written is
either at the device or still in the buffer, and only a flush empties the buffer for sure. A
rendering that fails ends without a flush. -/

namespace StyledEffects

namespace Tapped

variable {δ : Type} [Device δ]

theorem offer_device (bytes : List UInt8) (t : Tapped δ) :
    (Device.offer bytes t).1 = (Device.offer bytes t.device).1 ∧
      (Device.offer bytes t).2.device = (Device.offer bytes t.device).2 := by
  rcases h : Device.offer bytes t.device with ⟨_ | _, d⟩ <;> simp [Device.offer, h]

theorem flush_device (t : Tapped δ) :
    (Device.flush t).1 = (Device.flush t.device).1 ∧
      (Device.flush t).2.device = (Device.flush t.device).2 := by
  rcases h : Device.flush t.device with ⟨_ | _, d⟩ <;> simp [Device.flush, h]

theorem offer_received {bytes : List UInt8} {t : Tapped δ} {count : Nat}
    (h : (Device.offer bytes t).1 = .ok count) :
    (Device.offer bytes t).2.received = t.received ++ bytes.take count := by
  rw [(offer_device bytes t).1] at h
  rcases ho : Device.offer bytes t.device with ⟨e | n, d⟩
  · simp [ho] at h
  · obtain rfl : n = count := by simpa [ho] using h
    simp [Device.offer, ho]

theorem neverFails {t : Tapped δ} (h : Device.NeverFails t.device) : Device.NeverFails t := by
  apply Device.neverFails_of_invariant (P := fun t : Tapped δ => Device.NeverFails t.device) h
  · intro t t' ht step
    cases step with
    | offer bytes =>
      rw [(offer_device bytes t).2]
      exact ht.step (.offer bytes _)
    | flush =>
      rw [(flush_device t).2]
      exact ht.step (.flush _)
  · intro t ht
    refine ⟨fun bytes hb => ?_, by rw [(flush_device t).1, ht.flush]⟩
    rw [(offer_device bytes t).1]
    exact ht.offer hb

theorem writeWithin_received {t : Tapped δ} {bytes : List UInt8} {rounds : Nat}
    (h : (Device.writeWithin rounds bytes t).1 = .ok ()) (hr : bytes.length ≤ rounds) :
    (Device.writeWithin rounds bytes t).2.received = t.received ++ bytes := by
  induction rounds generalizing bytes t with
  | zero => simp [Device.writeWithin, List.length_eq_zero_iff.1 (Nat.le_zero.1 hr)]
  | succ rounds ih =>
    cases bytes with
    | nil => simp [Device.writeWithin]
    | cons b bytes =>
      have taken {n : Nat} (hn : (Device.offer (b :: bytes) t).1 = .ok n) := offer_received hn
      rcases ho : Device.offer (b :: bytes) t with ⟨e | _ | n, t'⟩
      · simp [Device.writeWithin, ho] at h
      · simp [Device.writeWithin, ho] at h
      · have e : Device.writeWithin (rounds + 1) (b :: bytes) t =
            Device.writeWithin rounds ((b :: bytes).drop (n + 1)) t' := by
          simp [Device.writeWithin, ho]
        rw [e] at h ⊢
        rw [ih h (by rw [List.length_drop]; simp only [List.length_cons] at hr ⊢; omega)]
        rw [ho] at taken
        rw [taken rfl, List.append_assoc, List.take_append_drop]

theorem flush_received (t : Tapped δ) : (Device.flush t).2.received = t.received := by
  rcases h : Device.flush t.device with ⟨_ | _, d⟩ <;> simp [Device.flush, h]

end Tapped

namespace Buffered

variable {δ : Type}

/-- What is in the buffer after a write, the drain that it may lead to included. -/
def keptAfter (mark : Nat) (kept : List UInt8) (text : String) : List UInt8 :=
  if (kept ++ Text.utf8 text).length < mark then kept ++ Text.utf8 text else []

/-- What is in the buffer after some writes: what has come since it last reached the mark. -/
def kept (mark : Nat) (texts : List String) : List UInt8 := texts.foldl (keptAfter mark) []

variable [Device δ]

/-- A stream over a device that never fails, after the writes of some texts. -/
structure Took (mark : Nat) (texts : List String) (s : Buffered (Tapped δ)) : Prop where
  device : Device.NeverFails s.device
  mark_eq : s.mark = mark
  buffer : s.buffer = kept mark texts
  received : s.device.received ++ s.buffer = Text.utf8 (String.join texts)

theorem took_new {device : δ} (h : Device.NeverFails device) (mark : Nat) :
    (new (Tapped.new device) mark).Took (max mark 1) [] :=
  ⟨Tapped.neverFails h, rfl, rfl, rfl⟩

theorem received_writeOut {s : Buffered (Tapped δ)} (h : Device.NeverFails s.device) :
    s.writeOut.2.device.received = s.device.received ++ s.buffer := by
  have hw := (h.writeWithin (Nat.le_refl s.buffer.length)).1
  rw [(writeOut_of_neverFails h).1, Tapped.flush_received, Device.writeAll,
    Tapped.writeWithin_received hw (Nat.le_refl _)]

theorem Took.afterPiece {mark : Nat} {texts : List String} {s : Buffered (Tapped δ)}
    (h : s.Took mark texts) (text : String) :
    (Stream.afterPiece s text).Took mark (texts ++ [text]) := by
  obtain ⟨hd, hm, hb, hr⟩ := h
  have all : s.device.received ++ (s.buffer ++ Text.utf8 text) =
      Text.utf8 (String.join (texts ++ [text])) := by
    rw [← List.append_assoc, hr]
    simp
  by_cases hlt : (s.buffer ++ Text.utf8 text).length < s.mark
  · have e : Stream.afterPiece s text = { s with buffer := s.buffer ++ Text.utf8 text } := by
      simp only [Stream.afterPiece, Stream.writePiece, OutputStream.write, decide_eq_true hlt]
      rfl
    rw [e]
    refine ⟨hd, hm, ?_, all⟩
    rw [kept, List.foldl_append, ← kept, ← hb, List.foldl_cons, List.foldl_nil, keptAfter, ← hm,
      if_pos hlt]
  · have e : Stream.afterPiece s text =
        ({ s with buffer := s.buffer ++ Text.utf8 text } : Buffered (Tapped δ)).writeOut.2 := by
      simp only [Stream.afterPiece, Stream.writePiece, OutputStream.write, decide_eq_false hlt]
      rfl
    have out := writeOut_of_neverFails
      (s := { s with buffer := s.buffer ++ Text.utf8 text }) hd
    rw [e]
    refine ⟨out.2, by rw [out.1]; exact hm, ?_, ?_⟩
    · rw [out.1, kept, List.foldl_append, ← kept, ← hb, List.foldl_cons, List.foldl_nil,
        keptAfter, ← hm, if_neg hlt]
    · rw [received_writeOut (s := { s with buffer := s.buffer ++ Text.utf8 text }) hd, out.1, all,
        List.append_nil]

theorem Took.foldl {mark : Nat} {texts : List String} {s : Buffered (Tapped δ)}
    (h : s.Took mark texts) (more : List String) :
    (more.foldl Stream.afterPiece s).Took mark (texts ++ more) := by
  induction more generalizing s texts with
  | nil => simpa using h
  | cons text rest ih =>
    have := ih (h.afterPiece text)
    rwa [List.append_assoc] at this

end Buffered

namespace PureRun

variable {S δ : Type} [Device δ]

/-- A rendering that fails leaves in the buffer what has come since it last reached the mark:
the device has received everything only if that is nothing. -/
theorem failing_render_keeps_back (source : Source S) (state : S) (table : Style.Table)
    (t : Transcript) (e : EffectError) (limit mark : Nat) (device : δ)
    (h : source.Plays none state (.new table) t) (he : t.verdict = .error e)
    (hl : t.stages.length ≤ limit) (hd : Device.NeverFails device) :
    let emitted := Feed.emitted (evaluate source limit table state)
    let kept := Buffered.kept (max mark 1) (Text.lines emitted)
    let p := render source limit table state (Buffered.new (Tapped.new device) mark)
    p.result = some (.error e) ∧
      p.stream.device.received ++ kept = Text.utf8 emitted ∧ p.stream.buffer = kept ∧
      (p.stream.device.received = Text.utf8 emitted ↔ kept = []) := by
  intro emitted kept p
  obtain ⟨n, hn, gives⟩ := gives_of_plays h 0
  have start := Buffered.took_new hd mark
  have ready : (Pipe.new (new table state) (Buffered.new (Tapped.new device) mark)).Ready :=
    ⟨Buffered.neverFails start.device, List.not_mem_nil⟩
  obtain ⟨hr, hs⟩ := Pipe.run_of_gives gives rfl rfl ready
    (by unfold stepsFor; omega : n < stepsFor limit + 1)
  rw [verdict_items, he] at hr
  -- with an error as its result the pipe is left as it is, without a flush
  have hp : p = (Pipe.new (new table state) (Buffered.new (Tapped.new device) mark)).run
      (feed source) (stepsFor limit + 1) := by
    simp only [p, render, hr]
  have took : p.stream.Took (max mark 1) (Text.lines emitted) := by
    have := start.foldl (Text.lines emitted)
    rw [hp, hs, Pipe.due, ← evaluate_of_plays h hl]
    simpa [Pipe.new] using this
  have buffer : p.stream.buffer = kept := took.buffer
  have all : p.stream.device.received ++ kept = Text.utf8 emitted := by
    rw [← buffer, took.received, Text.join_lines]
  refine ⟨by rw [hp, hr], all, buffer, ?_⟩
  rw [← all, List.self_eq_append_right]

def lineAndPop : List Item := [.ok (Wire.Instruction.write "kept\n" 1), .ok Wire.Instruction.pop]

/-- The line does not reach the mark and never gets to the device. -/
theorem render_lineAndPop :
    let p := render Source.items 2 .plain lineAndPop
      (Buffered.new (Tapped.new (BoundedDevice.new none none false)) Buffered.defaultMark)
    p.result = some (.error .popOnEmptyStack) ∧ p.stream.buffer = Text.utf8 "kept\n" ∧
      p.stream.device.received = [] := by
  obtain ⟨hr, all, buffer, -⟩ := failing_render_keeps_back Source.items lineAndPop .plain
    (Transcript.of (.new .plain) lineAndPop) .popOnEmptyStack 2 Buffered.defaultMark
    (BoundedDevice.new none none false) ((Source.yields_items lineAndPop).plays _) rfl (by decide)
    (Device.neverFails_bounded rfl (by decide) rfl)
  have emitted : Feed.emitted (evaluate Source.items 2 .plain lineAndPop) = "kept\n" := rfl
  have kept : Buffered.kept (max Buffered.defaultMark 1) (Text.lines "kept\n") =
      Text.utf8 "kept\n" := rfl
  rw [emitted, kept] at all buffer
  exact ⟨hr, buffer, List.append_left_eq_self.1 all⟩

end PureRun

end StyledEffects
