import Mathlib.Logic.Relation
import StyledEffects.Stream.Buffered
import StyledEffects.Stream.Recorder
import StyledEffects.Stream.Trace

/-! Streams and devices that never fail. Such a stream may ask for a drain after any write,
but whatever is called on it, in any order, its drains and flushes succeed. One that buffers
for a device that never fails is of this kind. -/

namespace StyledEffects

open Relation

@[simp] theorem mapError_ok {ε ε' α : Type} (f : ε → ε') (a : α) :
    (.ok a : Except ε α).mapError f = .ok a := rfl

namespace Stream

variable {σ : Type} [OutputStream σ]

inductive Step : σ → σ → Prop
  | write (text : String) (s : σ) : Step s (OutputStream.write text s).2
  | drain (s : σ) : Step s (OutputStream.drain s).2
  | flush (s : σ) : Step s (OutputStream.flush s).2

def NeverFails (s : σ) : Prop :=
  ∀ s', ReflTransGen Step s s' →
    (OutputStream.drain s').1 = .ok () ∧ (OutputStream.flush s').1 = .ok ()

theorem NeverFails.step {s s' : σ} (h : NeverFails s) (hs : Step s s') : NeverFails s' :=
  fun s'' hr => h s'' (.head hs hr)

theorem NeverFails.drain {s : σ} (h : NeverFails s) : (OutputStream.drain s).1 = .ok () :=
  (h s .refl).1

theorem NeverFails.flush {s : σ} (h : NeverFails s) : (OutputStream.flush s).1 = .ok () :=
  (h s .refl).2

/-- A stream never fails if it is in a state of a kind that no call leads out of and in which
drains and flushes succeed. -/
theorem neverFails_of_invariant {P : σ → Prop} {s : σ} (h : P s)
    (hstep : ∀ s s', P s → Step s s' → P s')
    (hok : ∀ s, P s → (OutputStream.drain s).1 = .ok () ∧ (OutputStream.flush s).1 = .ok ()) :
    NeverFails s := by
  intro s' hr
  apply hok
  induction hr with
  | refl => exact h
  | tail _ hs ih => exact hstep _ _ ih hs

theorem NeverFails.watched {w : Watched σ} (h : NeverFails w.stream) : NeverFails w := by
  apply neverFails_of_invariant (P := fun w : Watched σ => NeverFails w.stream) h
  · intro w w' hw hs
    cases hs with
    | write text => exact hw.step (.write text w.stream)
    | drain => exact hw.step (.drain w.stream)
    | flush => exact hw.step (.flush w.stream)
  · intro w hw
    exact ⟨hw.drain, hw.flush⟩

theorem neverFails_recorder {r : Recorder} (h : r.failDrain = false) : NeverFails r := by
  apply neverFails_of_invariant (P := fun r : Recorder => r.failDrain = false) h
  · intro r r' hr hs
    cases hs <;> exact hr
  · intro r hr
    exact ⟨by simp [OutputStream.drain, hr], rfl⟩

end Stream

namespace Device

variable {δ : Type} [Device δ]

inductive Step : δ → δ → Prop
  | offer (bytes : List UInt8) (d : δ) : Step d (Device.offer bytes d).2
  | flush (d : δ) : Step d (Device.flush d).2

/-- Whatever is called on it, the device takes some of any bytes, and its flushes succeed. -/
def NeverFails (d : δ) : Prop :=
  ∀ d', ReflTransGen Step d d' →
    (∀ bytes ≠ [], ∃ n, (Device.offer bytes d').1 = .ok (n + 1)) ∧
      (Device.flush d').1 = .ok ()

theorem NeverFails.step {d d' : δ} (h : NeverFails d) (hs : Step d d') : NeverFails d' :=
  fun d'' hr => h d'' (.head hs hr)

theorem NeverFails.flush {d : δ} (h : NeverFails d) : (Device.flush d).1 = .ok () :=
  (h d .refl).2

theorem NeverFails.offer {d : δ} (h : NeverFails d) {bytes : List UInt8} (hb : bytes ≠ []) :
    ∃ n, (Device.offer bytes d).1 = .ok (n + 1) :=
  (h d .refl).1 bytes hb

theorem neverFails_of_invariant {P : δ → Prop} {d : δ} (h : P d)
    (hstep : ∀ d d', P d → Step d d' → P d')
    (hok : ∀ d, P d → (∀ bytes ≠ [], ∃ n, (Device.offer bytes d).1 = .ok (n + 1)) ∧
      (Device.flush d).1 = .ok ()) : NeverFails d := by
  intro d' hr
  apply hok
  induction hr with
  | refl => exact h
  | tail _ hs ih => exact hstep _ _ ih hs

theorem NeverFails.writeWithin {d : δ} (h : NeverFails d) {rounds : Nat} {bytes : List UInt8}
    (hr : bytes.length ≤ rounds) :
    (Device.writeWithin rounds bytes d).1 = .ok () ∧
      NeverFails (Device.writeWithin rounds bytes d).2 := by
  induction rounds generalizing bytes d with
  | zero => exact ⟨rfl, h⟩
  | succ rounds ih =>
    cases bytes with
    | nil => exact ⟨rfl, h⟩
    | cons b bytes =>
      obtain ⟨n, ho⟩ := h.offer (List.cons_ne_nil b bytes)
      have e : Device.writeWithin (rounds + 1) (b :: bytes) d =
          Device.writeWithin rounds ((b :: bytes).drop (n + 1))
            (Device.offer (b :: bytes) d).2 := by
        rcases hd : Device.offer (b :: bytes) d with ⟨result, d'⟩
        obtain rfl : result = .ok (n + 1) := by simpa [hd] using ho
        simp [Device.writeWithin, hd]
      rw [e]
      apply ih (h.step (.offer _ d))
      rw [List.length_drop]
      omega

theorem neverFails_bounded {d : BoundedDevice} (hl : d.limit = none) (hc : d.chunk ≠ some 0)
    (hf : d.failFlush = false) : NeverFails d := by
  apply neverFails_of_invariant
    (P := fun d : BoundedDevice => d.limit = none ∧ d.chunk ≠ some 0 ∧ d.failFlush = false)
    ⟨hl, hc, hf⟩
  · intro d d' h hs
    cases hs with
    | offer bytes =>
      by_cases hr : d.room = some 0
      · simpa [Device.offer, hr] using h
      · simpa [Device.offer, hr] using h
    | flush => exact h
  · rintro d ⟨hl, hc, hf⟩
    refine ⟨fun bytes hb => ?_, by simp [Device.flush, hf]⟩
    have hlen : bytes.length ≠ 0 := by simpa using hb
    cases hn : d.chunk with
    | none =>
      refine ⟨bytes.length - 1, ?_⟩
      simp [Device.offer, BoundedDevice.room, hl, hn, BoundedDevice.takeUpTo]
      omega
    | some n =>
      have hn0 : n ≠ 0 := by
        rintro rfl
        exact hc hn
      refine ⟨min n bytes.length - 1, ?_⟩
      simp [Device.offer, BoundedDevice.room, hl, hn, BoundedDevice.takeUpTo]
      omega

end Device

namespace Buffered

variable {δ : Type} [Device δ]

theorem writeOut_of_neverFails {s : Buffered δ} (h : Device.NeverFails s.device) :
    s.writeOut = (.ok (), ⟨(Device.flush (Device.writeAll s.buffer s.device).2).2, [], s.mark⟩) ∧
      Device.NeverFails s.writeOut.2.device := by
  obtain ⟨hw, hn⟩ := h.writeWithin (Nat.le_refl s.buffer.length)
  rcases hd : Device.writeAll s.buffer s.device with ⟨result, device⟩
  rw [Device.writeAll] at hd
  rw [hd] at hw hn
  obtain rfl : result = .ok () := hw
  have e : s.writeOut = (.ok (), ⟨(Device.flush device).2, [], s.mark⟩) := by
    simp [writeOut, Device.writeAll, hd, hn.flush]
  exact ⟨e, by rw [e]; exact hn.step (.flush device)⟩

theorem neverFails {s : Buffered δ} (h : Device.NeverFails s.device) : Stream.NeverFails s := by
  apply Stream.neverFails_of_invariant (P := fun s : Buffered δ => Device.NeverFails s.device) h
  · intro s s' hs step
    cases step with
    | write text => exact hs
    | drain => exact (writeOut_of_neverFails hs).2
    | flush => exact (writeOut_of_neverFails hs).2
  · intro s hs
    have := congrArg Prod.fst (writeOut_of_neverFails hs).1
    exact ⟨this, this⟩

end Buffered

end StyledEffects
