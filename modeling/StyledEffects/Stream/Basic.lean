import StyledEffects.Error

/-! Output streams. A stream takes every text it is given. By its answer to a write it may
ask for a pause until it has been drained. -/

namespace StyledEffects

abbrev Outcome := Except DeviceError Unit

class OutputStream (σ : Type) where
  /-- Takes a text. The answer is whether another one may follow at once. -/
  write : String → σ → Bool × σ
  /-- Waits until the stream can take more. -/
  drain : σ → Outcome × σ
  /-- Hands everything taken so far to the device. -/
  flush : σ → Outcome × σ

instance {σ τ : Type} [OutputStream σ] [OutputStream τ] : OutputStream (σ ⊕ τ) where
  write text
    | .inl s => (OutputStream.write text s).map id .inl
    | .inr s => (OutputStream.write text s).map id .inr
  drain
    | .inl s => (OutputStream.drain s).map id .inl
    | .inr s => (OutputStream.drain s).map id .inr
  flush
    | .inl s => (OutputStream.flush s).map id .inl
    | .inr s => (OutputStream.flush s).map id .inr

end StyledEffects
