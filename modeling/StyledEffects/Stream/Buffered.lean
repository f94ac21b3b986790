import StyledEffects.Stream.Device
import StyledEffects.Text.Utf8

/-! A stream that collects text before it hands it to a device. When the buffer has reached
its mark the stream asks to be drained, which hands the whole buffer over. If the device
fails in the middle of that, the buffer stays as it was. -/

namespace StyledEffects

structure Buffered (δ : Type) where
  device : δ
  buffer : List UInt8
  /-- The number of bytes from which on the stream asks to be drained; 0 counts as 1. -/
  mark : Nat
  deriving DecidableEq, Repr

namespace Buffered

variable {δ : Type} [Device δ]

def defaultMark : Nat := 16 * 1024

def new (device : δ) (mark : Nat) : Buffered δ := ⟨device, [], max mark 1⟩

def writeOut (s : Buffered δ) : Outcome × Buffered δ :=
  match Device.writeAll s.buffer s.device with
  | (.error e, device) => (.error e, { s with device })
  | (.ok (), device) =>
    let (result, device) := Device.flush device
    (result, { s with device, buffer := [] })

theorem writeOut_cases (s : Buffered δ) :
    ((Device.writeAll s.buffer s.device).1 = .ok () ∧
      s.writeOut = ((Device.flush (Device.writeAll s.buffer s.device).2).1,
        ⟨(Device.flush (Device.writeAll s.buffer s.device).2).2, [], s.mark⟩)) ∨
    ∃ e, (Device.writeAll s.buffer s.device).1 = .error e ∧
      s.writeOut = (.error e, ⟨(Device.writeAll s.buffer s.device).2, s.buffer, s.mark⟩) := by
  rcases hw : Device.writeAll s.buffer s.device with ⟨e | u, d⟩
  · exact Or.inr ⟨e, rfl, by simp [writeOut, hw]⟩
  · exact Or.inl ⟨rfl, by simp [writeOut, hw]⟩

instance : OutputStream (Buffered δ) where
  write text s :=
    let buffer := s.buffer ++ Text.utf8 text
    (buffer.length < s.mark, { s with buffer })
  drain := writeOut
  flush := writeOut

end Buffered

end StyledEffects
