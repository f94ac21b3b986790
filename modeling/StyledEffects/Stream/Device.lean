import StyledEffects.Stream.Basic

/-! Devices that bytes are written to. A device may take only the first part of what it is
offered. -/

namespace StyledEffects

class Device (δ : Type) where
  /-- Offers bytes; the answer is how many of them, from the first on, have been taken. -/
  offer : List UInt8 → δ → Except DeviceError Nat × δ
  flush : δ → Outcome × δ

namespace Device

/-- Offers the bytes until all are taken, in at most `rounds` rounds. A device that takes none
has failed. -/
def writeWithin {δ : Type} [Device δ] : Nat → List UInt8 → δ → Outcome × δ
  | 0, _, device => (.ok (), device)
  | _ + 1, [], device => (.ok (), device)
  | rounds + 1, bytes, device =>
    match Device.offer bytes device with
    | (.error e, device) => (.error e, device)
    | (.ok 0, device) => (.error ⟨.writeZero, "write zero"⟩, device)
    | (.ok taken, device) => writeWithin rounds (bytes.drop taken) device

/-- Writes all of the bytes. Each round takes one byte at least, so there is a round for each. -/
def writeAll {δ : Type} [Device δ] (bytes : List UInt8) (device : δ) : Outcome × δ :=
  writeWithin bytes.length bytes device

end Device

/-- A device in memory that takes at most `chunk` bytes at a time and `limit` bytes in all,
and can be made to fail each flush. -/
structure BoundedDevice where
  chunk : Option Nat
  limit : Option Nat
  failFlush : Bool
  /-- What has been taken with each write, the last one first. -/
  recent : List (List UInt8)
  flushes : Nat
  deriving DecidableEq, Repr

namespace BoundedDevice

def new (chunk limit : Option Nat) (failFlush : Bool) : BoundedDevice :=
  ⟨chunk, limit, failFlush, [], 0⟩

def taken (d : BoundedDevice) : List (List UInt8) := d.recent.reverse

def bytes (d : BoundedDevice) : List UInt8 := d.taken.flatten

def room (d : BoundedDevice) : Option Nat := d.limit.map (· - d.recent.flatten.length)

def takeUpTo (bound : Option Nat) (bytes : List UInt8) : List UInt8 :=
  match bound with
  | none => bytes
  | some n => bytes.take n

instance : Device BoundedDevice where
  offer bytes d :=
    if d.room = some 0 then (.error ⟨.storageFull, "device full"⟩, d)
    else
      let part := takeUpTo d.room (takeUpTo d.chunk bytes)
      (.ok part.length, { d with recent := part :: d.recent })
  flush d :=
    (if d.failFlush then .error ⟨.connectionReset, "device flush failed"⟩ else .ok (),
     { d with flushes := d.flushes + 1 })

end BoundedDevice

end StyledEffects
