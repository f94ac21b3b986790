import StyledEffects.Stream.Device

/-! Streams and devices that are being watched. A watched stream does what the stream does
and keeps every call with its answer; a watched device keeps the bytes that it has taken
and how many of them there were at its last successful flush. -/

namespace StyledEffects

inductive Call where
  | write (text : String) (more : Bool)
  | drain (outcome : Outcome)
  | flush (outcome : Outcome)

def Call.written? : Call → Option String
  | write text _ => some text
  | _ => none

def Call.error? : Call → Option DeviceError
  | drain (.error e) | flush (.error e) => some e
  | _ => none

structure Watched (σ : Type) where
  stream : σ
  /-- The calls so far, the last one first. -/
  recent : List Call

namespace Watched

variable {σ : Type}

def new (stream : σ) : Watched σ := ⟨stream, []⟩

def calls (w : Watched σ) : List Call := w.recent.reverse

def writes (w : Watched σ) : List String := w.calls.filterMap Call.written?

instance [OutputStream σ] : OutputStream (Watched σ) where
  write text w :=
    let (more, stream) := OutputStream.write text w.stream
    (more, ⟨stream, .write text more :: w.recent⟩)
  drain w :=
    let (outcome, stream) := OutputStream.drain w.stream
    (outcome, ⟨stream, .drain outcome :: w.recent⟩)
  flush w :=
    let (outcome, stream) := OutputStream.flush w.stream
    (outcome, ⟨stream, .flush outcome :: w.recent⟩)

end Watched

structure Tapped (δ : Type) where
  device : δ
  /-- All bytes taken so far. -/
  received : List UInt8
  /-- How many bytes had been taken at the last flush that succeeded. -/
  flushed : Nat

namespace Tapped

variable {δ : Type}

def new (device : δ) : Tapped δ := ⟨device, [], 0⟩

instance [Device δ] : Device (Tapped δ) where
  offer bytes t :=
    match Device.offer bytes t.device with
    | (.ok count, device) =>
      (.ok count, { t with device, received := t.received ++ bytes.take count })
    | (.error e, device) => (.error e, { t with device })
  flush t :=
    match Device.flush t.device with
    | (.ok (), device) => (.ok (), { t with device, flushed := t.received.length })
    | (.error e, device) => (.error e, { t with device })

end Tapped

end StyledEffects
