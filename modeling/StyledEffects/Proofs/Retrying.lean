import StyledEffects.Proofs.Accounting
import StyledEffects.Proofs.Watching

/-! Handing over a buffer once more. A device may fail in the middle of a buffer and work again
later. The whole buffer is kept then, so that nothing gets lost, but what the device had taken up
to the failure comes to it again with the next attempt. -/

namespace StyledEffects

structure Handover where
  /-- The whole buffer has been taken. -/
  whole : Bool
  /-- The bytes that have been taken. -/
  bytes : List UInt8
  deriving DecidableEq, Repr

namespace Handover

def brought (parts : List Handover) : List UInt8 := parts.flatMap bytes

/-- What came with a whole buffer. -/
def settled (parts : List Handover) : List UInt8 := brought (parts.filter whole)

/-- What came before a failure. -/
def wasted (parts : List Handover) : List UInt8 := brought (parts.filter (!·.whole))

variable {parts : List Handover} {buffer : List UInt8}

@[simp] theorem brought_append (a b : List Handover) : brought (a ++ b) = brought a ++ brought b :=
  List.flatMap_append

@[simp] theorem settled_append (a b : List Handover) :
    settled (a ++ b) = settled a ++ settled b := by
  simp [settled]

@[simp] theorem wasted_append (a b : List Handover) :
    wasted (a ++ b) = wasted a ++ wasted b := by
  simp [wasted]

@[simp] theorem brought_cons (part : Handover) (rest : List Handover) :
    brought (part :: rest) = part.bytes ++ brought rest := rfl

@[simp] theorem settled_cons_of_whole {part : Handover} (h : part.whole = true)
    (rest : List Handover) : settled (part :: rest) = part.bytes ++ settled rest := by
  simp [settled, h]

@[simp] theorem settled_cons_of_failed {part : Handover} (h : part.whole = false)
    (rest : List Handover) : settled (part :: rest) = settled rest := by
  simp [settled, h]

@[simp] theorem wasted_cons_of_whole {part : Handover} (h : part.whole = true)
    (rest : List Handover) : wasted (part :: rest) = wasted rest := by
  simp [wasted, h]

@[simp] theorem wasted_cons_of_failed {part : Handover} (h : part.whole = false)
    (rest : List Handover) : wasted (part :: rest) = part.bytes ++ wasted rest := by
  simp [wasted, h]

theorem length_brought (parts : List Handover) :
    (brought parts).length = (settled parts).length + (wasted parts).length := by
  induction parts with
  | nil => rfl
  | cons part rest ih =>
    rw [brought_cons, List.length_append, ih]
    cases h : part.whole with
    | true =>
      rw [settled_cons_of_whole h, wasted_cons_of_whole h, List.length_append]
      omega
    | false =>
      rw [settled_cons_of_failed h, wasted_cons_of_failed h, List.length_append]
      omega

theorem brought_eq_settled_iff : brought parts = settled parts ↔ wasted parts = [] := by
  constructor
  · intro h
    have both := length_brought parts
    rw [h] at both
    apply List.eq_nil_of_length_eq_zero
    omega
  · intro h
    induction parts with
    | nil => rfl
    | cons part rest ih =>
      cases hw : part.whole with
      | true =>
        rw [wasted_cons_of_whole hw] at h
        rw [brought_cons, settled_cons_of_whole hw, ih h]
      | false =>
        rw [wasted_cons_of_failed hw, List.append_eq_nil_iff] at h
        rw [brought_cons, settled_cons_of_failed hw, h.1, List.nil_append, ih h.2]

/-- This holds of what came before each failure and of the attempts after it. -/
def AtFailures (P : List UInt8 → List Handover → Prop) (parts : List Handover) : Prop :=
  ∀ before part after, parts = before ++ part :: after → part.whole = false → P part.bytes after

theorem AtFailures.of_cons {P : List UInt8 → List Handover → Prop} {part : Handover}
    {rest : List Handover} (h : AtFailures P (part :: rest)) : AtFailures P rest := by
  intro before part' after hs
  apply h (part :: before)
  rw [hs, List.cons_append]

/-- What has come before a failure comes again after it, or is still in the buffer. -/
def Repeated (parts : List Handover) (buffer : List UInt8) : Prop :=
  AtFailures (fun bytes after => bytes <+: settled after ++ buffer) parts

/-- Nothing comes any more once something has come before a failure. -/
def Ceasing (parts : List Handover) : Prop :=
  AtFailures (fun bytes after => bytes = [] ∨ brought after = []) parts

/-- Then a first part has come of what has been given. -/
theorem Ceasing.isPrefix (h : Ceasing parts) (again : Repeated parts buffer) :
    brought parts <+: settled parts ++ buffer := by
  induction parts with
  | nil => exact List.nil_prefix
  | cons part rest ih =>
    have later := ih (AtFailures.of_cons h) (AtFailures.of_cons again)
    rw [brought_cons]
    cases hw : part.whole with
    | true =>
      rw [settled_cons_of_whole hw, List.append_assoc]
      exact (List.prefix_append_right_inj _).2 later
    | false =>
      rw [settled_cons_of_failed hw]
      rcases h [] part rest rfl hw with none | none
      · rwa [none]
      · rw [none, List.append_nil]
        exact again [] part rest rfl hw

end Handover

namespace Buffered

open Handover

variable {δ : Type} {s s' : Buffered (Tapped δ)} {total : List UInt8} {parts : List Handover}
  {attempt : Handover}

/-- What an attempt does: it empties the buffer, or it brings a first part and leaves the buffer
as it was. -/
inductive HandsOver (s : Buffered (Tapped δ)) : Handover → Buffered (Tapped δ) → Prop
  | whole {next : Buffered (Tapped δ)} (buffer : next.buffer = [])
      (received : next.device.received = s.device.received ++ s.buffer) :
    HandsOver s ⟨true, s.buffer⟩ next
  | part {bytes} {next : Buffered (Tapped δ)} (first : bytes <+: s.buffer)
      (buffer : next.buffer = s.buffer)
      (received : next.device.received = s.device.received ++ bytes) :
    HandsOver s ⟨false, bytes⟩ next

theorem HandsOver.received (h : HandsOver s attempt s') :
    s'.device.received = s.device.received ++ attempt.bytes := by
  cases h with
  | whole _ received => exact received
  | part _ _ received => exact received

theorem HandsOver.settled_append_buffer (h : HandsOver s attempt s') :
    settled [attempt] ++ s'.buffer = s.buffer := by
  cases h with
  | whole buffer => simp [buffer, settled, brought]
  | part first buffer => simp [buffer, settled, brought]

structure Retried (total : List UInt8) (parts : List Handover) (s : Buffered (Tapped δ)) :
    Prop where
  received : s.device.received = brought parts
  given : settled parts ++ s.buffer = total
  again : Repeated parts s.buffer

theorem retried_new (device : δ) (mark : Nat) : (new (Tapped.new device) mark).Retried [] [] :=
  ⟨rfl, rfl, fun before part after hs => by simp at hs⟩

theorem Retried.handsOver (h : s.Retried total parts) (ho : HandsOver s attempt s') :
    s'.Retried total (parts ++ [attempt]) := by
  have kept := ho.settled_append_buffer
  refine ⟨?_, ?_, ?_⟩
  · rw [ho.received, h.received]
    simp [brought]
  · rw [settled_append, List.append_assoc, kept, h.given]
  · intro before part after hs hw
    rcases eq_append_cons_of_concat hs with ⟨-, rfl, rfl⟩ | ⟨rest, hp, rfl⟩
    · cases ho with
      | whole => cases hw
      | part first buffer =>
        rw [buffer]
        exact first
    · rw [settled_append, List.append_assoc, kept]
      exact h.again before part rest hp hw

variable [Device δ]

def handover (s : Buffered (Tapped δ)) : Handover :=
  let (result, device) := Device.writeAll s.buffer s.device
  ⟨result.isOk, device.received.drop s.device.received.length⟩

def attempts (s : Buffered (Tapped δ)) : Request → List Handover
  | .write _ => []
  | .drain | .flush => [s.handover]

def handovers : List Request → Buffered (Tapped δ) → List Handover
  | [], _ => []
  | r :: rest, s => s.attempts r ++ handovers rest (Stream.request s r)

theorem handsOver (s : Buffered (Tapped δ)) : HandsOver s s.handover s.writeOut.2 := by
  obtain ⟨part, first, received⟩ := Tapped.received_writeWithin s.buffer.length s.buffer s.device
  rw [← Device.writeAll] at received
  have handover_eq : s.handover =
      ⟨(Device.writeAll s.buffer s.device).1.isOk, part⟩ := by
    have dropped : (s.device.received ++ part).drop s.device.received.length = part :=
      List.drop_left
    rw [← received] at dropped
    exact congrArg (Handover.mk (Device.writeAll s.buffer s.device).1.isOk) dropped
  rcases s.writeOut_cases with ⟨ok, out⟩ | ⟨e, error, out⟩
  · have all : part = s.buffer := by
      have written := Tapped.writeWithin_received ok (Nat.le_refl _)
      rw [← Device.writeAll, received] at written
      exact List.append_cancel_left written
    rw [handover_eq, ok, out, all]
    refine .whole rfl ?_
    rw [Tapped.flush_received, received, all]
  · rw [handover_eq, error, out]
    exact .part first rfl received

theorem Retried.write (h : s.Retried total parts) (text : String) :
    (OutputStream.write text s).2.Retried (total ++ Text.utf8 text) parts := by
  refine ⟨h.received, ?_, ?_⟩
  · rw [← h.given, List.append_assoc]
    rfl
  · intro before part after hs hw
    have kept := (h.again before part after hs hw).trans (List.prefix_append _ (Text.utf8 text))
    rwa [List.append_assoc] at kept

theorem Retried.request (h : s.Retried total parts) (r : Request) :
    (Stream.request s r).Retried (total ++ Text.utf8 r.text) (parts ++ s.attempts r) := by
  cases r with
  | write text =>
    rw [attempts, List.append_nil]
    exact h.write text
  | drain =>
    rw [Request.text, Text.utf8_empty, List.append_nil]
    exact h.handsOver s.handsOver
  | flush =>
    rw [Request.text, Text.utf8_empty, List.append_nil]
    exact h.handsOver s.handsOver

theorem retried_after (h : s.Retried total parts) (requests : List Request) :
    (Stream.after requests s).Retried (total ++ Text.utf8 (Request.written requests))
      (parts ++ handovers requests s) := by
  induction requests generalizing s total parts with
  | nil => simpa [Stream.after, handovers] using h
  | cons r rest ih =>
    rw [Request.written_cons, Text.utf8_append, ← List.append_assoc, handovers, ← List.append_assoc]
    exact ih (h.request r)

/-- Any requests on a stream over any device, which may fail at any moment and work again later.
What has come with a whole buffer, with the buffer after it, is what has been written, so nothing
is dropped. What has come before a failure comes again. As long as nothing comes after that, the
device has a first part of what has been written. If the device fails in a drain or a flush, the
buffer is left as it was. If a drain or a flush succeeds, the device has as many bytes more than
have been written as came before failures: it has what has been written exactly if there are
none. -/
theorem taken_before_failure_comes_again (device : δ) (mark : Nat) (requests : List Request) :
    let start := new (Tapped.new device) mark
    let s := Stream.after requests start
    let parts := handovers requests start
    let total := Text.utf8 (Request.written requests)
    s.device.received = brought parts ∧ settled parts ++ s.buffer = total ∧
      Repeated parts s.buffer ∧ (Ceasing parts → s.device.received <+: total) ∧
      ∀ out, out = OutputStream.drain s ∨ out = OutputStream.flush s →
        (∀ e, (Device.writeAll s.buffer s.device).1 = .error e →
          out.1 = .error e ∧ out.2.buffer = s.buffer) ∧
        (out.1 = .ok () → out.2.buffer = [] ∧
          out.2.device.received.length = total.length + (wasted parts).length ∧
          (out.2.device.received = total ↔ wasted parts = [])) := by
  intro start s parts total
  have retried : s.Retried total parts := retried_after (retried_new device mark) requests
  refine ⟨retried.received, retried.given, retried.again, fun ceasing => ?_, fun out hout => ?_⟩
  · rw [retried.received, ← retried.given]
    exact ceasing.isPrefix retried.again
  · obtain rfl : out = s.writeOut := hout.elim id id
    have next := retried.handsOver s.handsOver
    rcases s.writeOut_cases with ⟨ok, out⟩ | ⟨e, error, out⟩
    · have whole : s.handover.whole = true := congrArg Except.isOk ok
      have buffer : s.writeOut.2.buffer = [] := by rw [out]
      have wasted_eq : wasted (parts ++ [s.handover]) = wasted parts := by
        rw [wasted_append, wasted_cons_of_whole whole]
        exact List.append_nil _
      have given : settled (parts ++ [s.handover]) = total := by
        rw [← next.given, buffer, List.append_nil]
      refine ⟨fun e he => (nomatch ok.symm.trans he), fun _ => ⟨buffer, ?_, ?_⟩⟩
      · rw [next.received, length_brought, given, wasted_eq]
      · rw [next.received, ← given, brought_eq_settled_iff, wasted_eq]
    · rw [out]
      exact ⟨fun e' he => ⟨error.symm.trans he, rfl⟩, fun ok => (nomatch ok)⟩

/-- A device that answers the first offers as it has been told to, and takes everything after. -/
structure Stumbling where
  answers : List (Except DeviceError Nat)

instance : Device Stumbling where
  offer bytes d :=
    match d.answers with
    | [] => (.ok bytes.length, d)
    | answer :: rest => (answer.map (min bytes.length), ⟨rest⟩)
  flush d := (.ok (), d)

def textAndDrain : List Request := [.write "abc", .drain]

/-- The device takes two bytes and fails. With the next flush it takes all three. -/
theorem textAndDrain_repeated :
    let s := Stream.after textAndDrain
      (new (Tapped.new (⟨[.ok 2, .error ⟨.connectionReset, "device reset"⟩]⟩ : Stumbling)) 4)
    let out := OutputStream.flush s
    s.buffer = Text.utf8 "abc" ∧ out.1 = .ok () ∧ out.2.device.received = Text.utf8 "ababc" ∧
      out.2.device.received.length = 3 + 2 ∧ out.2.device.received ≠ Text.utf8 "abc" := by
  intro s out
  obtain ⟨-, -, -, -, outs⟩ := taken_before_failure_comes_again
    (⟨[.ok 2, .error ⟨.connectionReset, "device reset"⟩]⟩ : Stumbling) 4 textAndDrain
  obtain ⟨-, flushed⟩ := outs out (Or.inr rfl)
  obtain ⟨-, length, all⟩ := flushed rfl
  have repeated : out.2.device.received = Text.utf8 "ababc" := by decide +kernel
  refine ⟨by decide +kernel, rfl, repeated, length, ?_⟩
  rw [repeated]
  decide +kernel

/-- So a drain that failed cannot be repeated on every device without bytes that come twice. -/
theorem not_received_once :
    ¬ ∀ (device : Stumbling) (mark : Nat) (requests : List Request),
      let s := Stream.after requests (new (Tapped.new device) mark)
      s.device.received <+: Text.utf8 (Request.written requests) ∧
        ∀ out, out = OutputStream.drain s ∨ out = OutputStream.flush s → out.1 = .ok () →
          out.2.device.received = Text.utf8 (Request.written requests) := by
  intro once
  obtain ⟨-, all⟩ := once ⟨[.ok 2, .error ⟨.connectionReset, "device reset"⟩]⟩ 4 textAndDrain
  have twice := all _ (Or.inr rfl) rfl
  revert twice
  decide +kernel

end Buffered

end StyledEffects
