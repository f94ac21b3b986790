import StyledEffects.Proofs.Arrival

/-! Where the bytes of a buffering stream are. Its device takes so many bytes with one write and
so many in all, and fails every write after that. Whatever is called on the stream, in any order
and after any failure, each byte is at the device or in the buffer until the device is full, and
then the device has a first part of all bytes and the buffer never gets empty again. -/

namespace StyledEffects

open Relation

theorem Device.writeWithin_cons {δ : Type} [Device δ] (rounds : Nat) (b : UInt8)
    (bytes : List UInt8) (d : δ) : writeWithin (rounds + 1) (b :: bytes) d =
      match offer (b :: bytes) d with
      | (.error e, d) => (.error e, d)
      | (.ok 0, d) => (.error ⟨.writeZero, "write zero"⟩, d)
      | (.ok taken, d) => writeWithin rounds ((b :: bytes).drop taken) d := rfl

/-! ## Devices with bounds -/

namespace Tapped

variable {δ : Type} [Device δ]

/-- The device has taken all that it takes in all. -/
def Full (limit : Option Nat) (t : Tapped δ) : Prop := ∃ l ∈ limit, l ≤ t.received.length

/-- What a device answers that takes at most `chunk` bytes with one write and at most `limit` bytes
in all, if there are such bounds, and of which every flush succeeds or none. -/
structure Answers (chunk limit : Option Nat) (flushes : Bool) (t : Tapped δ) : Prop where
  full : t.Full limit → ∀ bytes ≠ [], ∃ e, (Device.offer bytes t).1 = .error e
  stuck : ¬ t.Full limit → chunk = some 0 → ∀ bytes ≠ [], (Device.offer bytes t).1 = .ok 0
  takes : ¬ t.Full limit → chunk ≠ some 0 → ∀ bytes ≠ [], ∃ n,
    (Device.offer bytes t).1 = .ok (n + 1) ∧ n + 1 ≤ bytes.length ∧ (∀ c ∈ chunk, n + 1 ≤ c) ∧
      ∀ l ∈ limit, t.received.length + (n + 1) ≤ l
  flush : (Device.flush t).1 = .ok () ↔ flushes = true

/-- It does so whatever is called on it. -/
def Bounded (chunk limit : Option Nat) (flushes : Bool) (t : Tapped δ) : Prop :=
  ∀ t', ReflTransGen Device.Step t t' → t'.Answers chunk limit flushes

variable {chunk limit : Option Nat} {flushes : Bool} {t : Tapped δ}

theorem Bounded.step (h : t.Bounded chunk limit flushes) {t' : Tapped δ}
    (hs : Device.Step t t') : t'.Bounded chunk limit flushes :=
  fun t'' hr => h t'' (.head hs hr)

theorem Bounded.answers (h : t.Bounded chunk limit flushes) : t.Answers chunk limit flushes :=
  h t .refl

theorem bounded_of_invariant {P : Tapped δ → Prop} (h : P t)
    (hstep : ∀ t t', P t → Device.Step t t' → P t')
    (answers : ∀ t, P t → t.Answers chunk limit flushes) : t.Bounded chunk limit flushes := by
  intro t' hr
  apply answers
  induction hr with
  | refl => exact h
  | tail _ hs ih => exact hstep _ _ ih hs

def Done (chunk limit : Option Nat) (t : Tapped δ) : Prop := chunk = some 0 ∨ t.Full limit

theorem offer_received_of_error {bytes : List UInt8} {e : DeviceError}
    (h : (Device.offer bytes t).1 = .error e) :
    (Device.offer bytes t).2.received = t.received := by
  rw [(offer_device bytes t).1] at h
  rcases ho : Device.offer bytes t.device with ⟨e' | n, d⟩
  · simp [Device.offer, ho]
  · simp [ho] at h

/-- What may come of offering some bytes. -/
inductive Offered (chunk limit : Option Nat) (t : Tapped δ) :
    Except DeviceError Nat × Tapped δ → Prop
  | refused {e t'} (full : t.Full limit) (received : t'.received = t.received) :
    Offered chunk limit t (.error e, t')
  | nothing {t'} (stuck : chunk = some 0) (received : t'.received = t.received) :
    Offered chunk limit t (.ok 0, t')
  | some {n t'} (goes : ¬ t.Done chunk limit) : Offered chunk limit t (.ok (n + 1), t')

theorem Bounded.offered (h : t.Bounded chunk limit flushes) {bytes : List UInt8}
    (hb : bytes ≠ []) : Offered chunk limit t (Device.offer bytes t) := by
  by_cases full : t.Full limit
  · obtain ⟨e, he⟩ := h.answers.full full bytes hb
    have received := offer_received_of_error he
    rcases ho : Device.offer bytes t with ⟨e' | n, t'⟩
    · exact .refused full (by rwa [ho] at received)
    · simp [ho] at he
  · by_cases stuck : chunk = Option.some 0
    · have h0 := h.answers.stuck full stuck bytes hb
      have received := offer_received h0
      rcases ho : Device.offer bytes t with ⟨e | n, t'⟩
      · simp [ho] at h0
      · obtain rfl : n = 0 := by simpa [ho] using h0
        exact .nothing stuck (by simpa [ho] using received)
    · obtain ⟨n, hn, -⟩ := h.answers.takes full stuck bytes hb
      rcases ho : Device.offer bytes t with ⟨e | m, t'⟩
      · simp [ho] at hn
      · obtain rfl : m = n + 1 := by simpa [ho] using hn
        exact .some fun hd => hd.elim stuck full

theorem Bounded.writeWithin (h : t.Bounded chunk limit flushes) (rounds : Nat)
    (bytes : List UInt8) :
    (Device.writeWithin rounds bytes t).2.Bounded chunk limit flushes ∧
      ∀ e, (Device.writeWithin rounds bytes t).1 = .error e →
        bytes ≠ [] ∧ (Device.writeWithin rounds bytes t).2.Done chunk limit := by
  induction rounds generalizing bytes t with
  | zero => exact ⟨h, fun e he => by simp [Device.writeWithin] at he⟩
  | succ rounds ih =>
    cases bytes with
    | nil => exact ⟨h, fun e he => by simp [Device.writeWithin] at he⟩
    | cons b bytes =>
      have hb : b :: bytes ≠ [] := List.cons_ne_nil b bytes
      have next := h.step (.offer (b :: bytes) t)
      have offered := h.offered hb
      rw [Device.writeWithin_cons]
      generalize Device.offer (b :: bytes) t = answer at next offered
      cases offered with
      | refused full received =>
        refine ⟨next, fun e he => ⟨hb, Or.inr ?_⟩⟩
        simpa only [Full, received] using full
      | nothing stuck received => exact ⟨next, fun e he => ⟨hb, Or.inl stuck⟩⟩
      | @some n t' goes =>
        obtain ⟨bounded, fails⟩ := ih next ((b :: bytes).drop (n + 1))
        exact ⟨bounded, fun e he => ⟨hb, (fails e he).2⟩⟩

theorem Bounded.writeAll_of_done (h : t.Bounded chunk limit flushes) (hd : t.Done chunk limit)
    {bytes : List UInt8} (hb : bytes ≠ []) : (∃ e, (Device.writeAll bytes t).1 = .error e) ∧
      (Device.writeAll bytes t).2.received = t.received := by
  obtain ⟨b, rest, rfl⟩ := List.exists_cons_of_ne_nil hb
  have offered := h.offered hb
  rw [Device.writeAll, List.length_cons, Device.writeWithin_cons]
  generalize Device.offer (b :: rest) t = answer at offered
  cases offered with
  | refused full received => exact ⟨⟨_, rfl⟩, received⟩
  | nothing stuck received => exact ⟨⟨_, rfl⟩, received⟩
  | some goes => exact absurd hd goes

end Tapped

namespace BoundedDevice

theorem length_takeUpTo (bound : Option Nat) (bytes : List UInt8) :
    (takeUpTo bound bytes).length = bound.elim bytes.length (min · bytes.length) := by
  cases bound <;> simp [takeUpTo]

/-- The part of some bytes that is taken. -/
def part (d : BoundedDevice) (bytes : List UInt8) : List UInt8 :=
  takeUpTo d.room (takeUpTo d.chunk bytes)

theorem length_part (d : BoundedDevice) (bytes : List UInt8) : (d.part bytes).length =
    d.room.elim (d.chunk.elim bytes.length (min · bytes.length))
      (min · (d.chunk.elim bytes.length (min · bytes.length))) := by
  rw [part, length_takeUpTo, length_takeUpTo]

theorem length_part_le (d : BoundedDevice) (bytes : List UInt8) :
    (d.part bytes).length ≤ bytes.length ∧ (∀ c ∈ d.chunk, (d.part bytes).length ≤ c) ∧
      ∀ r ∈ d.room, (d.part bytes).length ≤ r := by
  rw [length_part]
  refine ⟨?_, fun c hc => ?_, fun r hr => ?_⟩
  · cases d.room <;> cases d.chunk <;> simp only [Option.elim_none, Option.elim_some] <;> omega
  · rw [Option.mem_def.1 hc]
    cases d.room <;> simp only [Option.elim_none, Option.elim_some] <;> omega
  · rw [Option.mem_def.1 hr]
    exact Nat.min_le_left r _

theorem length_part_pos {d : BoundedDevice} (hr : d.room ≠ some 0) (hc : d.chunk ≠ some 0)
    {bytes : List UInt8} (hb : bytes ≠ []) : 0 < (d.part bytes).length := by
  have := List.length_pos_iff.2 hb
  rw [length_part]
  cases h : d.room <;> cases h' : d.chunk <;>
    simp only [h, h', ne_eq, Option.some.injEq] at hr hc <;>
    simp only [Option.elim_none, Option.elim_some] <;> omega

theorem offer_of_room {d : BoundedDevice} (h : d.room ≠ some 0) (bytes : List UInt8) :
    Device.offer bytes d =
      (.ok (d.part bytes).length, { d with recent := d.part bytes :: d.recent }) :=
  if_neg h

theorem offer_of_no_room {d : BoundedDevice} (h : d.room = some 0) (bytes : List UInt8) :
    Device.offer bytes d = (.error ⟨.storageFull, "device full"⟩, d) :=
  if_pos h

end BoundedDevice

namespace Tapped

variable {chunk limit : Option Nat} {failFlush : Bool} {t t' : Tapped BoundedDevice}

/-- A device in memory with the same bounds, and with as many bytes as have been received. -/
structure Mirrors (chunk limit : Option Nat) (failFlush : Bool) (t : Tapped BoundedDevice) :
    Prop where
  chunk : t.device.chunk = chunk
  limit : t.device.limit = limit
  failFlush : t.device.failFlush = failFlush
  length : t.device.recent.flatten.length = t.received.length

theorem Mirrors.room_eq_zero (h : t.Mirrors chunk limit failFlush) :
    t.device.room = some 0 ↔ t.Full limit := by
  rw [BoundedDevice.room, h.limit, h.length, Full]
  cases limit with
  | none => simp
  | some l => simp [Nat.sub_eq_zero_iff_le]

theorem Mirrors.step (h : t.Mirrors chunk limit failFlush) (hs : Device.Step t t') :
    t'.Mirrors chunk limit failFlush := by
  obtain ⟨hc, hl, hf, hn⟩ := h
  cases hs with
  | offer bytes =>
    by_cases hr : t.device.room = some 0
    · have answer := BoundedDevice.offer_of_no_room hr bytes
      have received := offer_received_of_error
        ((offer_device bytes t).1.trans (congrArg Prod.fst answer))
      have device := (offer_device bytes t).2.trans (congrArg Prod.snd answer)
      exact ⟨by rw [device, hc], by rw [device, hl], by rw [device, hf],
        by rw [device, received, hn]⟩
    · have answer := BoundedDevice.offer_of_room hr bytes
      have received := offer_received ((offer_device bytes t).1.trans (congrArg Prod.fst answer))
      have device := (offer_device bytes t).2.trans (congrArg Prod.snd answer)
      refine ⟨by rw [device]; exact hc, by rw [device]; exact hl, by rw [device]; exact hf, ?_⟩
      rw [device, received, List.flatten_cons, List.length_append, List.length_append, hn,
        List.length_take, Nat.min_eq_left (t.device.length_part_le bytes).1, Nat.add_comm]
  | flush =>
    have device : (Device.flush t).2.device = { t.device with flushes := t.device.flushes + 1 } :=
      (flush_device t).2
    refine ⟨by rw [device]; exact hc, by rw [device]; exact hl, by rw [device]; exact hf, ?_⟩
    rw [device, flush_received]
    exact hn

theorem bounded_new (chunk limit : Option Nat) (failFlush : Bool) :
    (new (BoundedDevice.new chunk limit failFlush)).Bounded chunk limit !failFlush := by
  refine bounded_of_invariant (P := Mirrors chunk limit failFlush) ⟨rfl, rfl, rfl, rfl⟩
    (fun t t' h hs => h.step hs) fun t ht => ?_
  refine ⟨fun full bytes hb => ?_, fun full stuck bytes hb => ?_, fun full goes bytes hb => ?_, ?_⟩
  · rw [(offer_device bytes t).1, BoundedDevice.offer_of_no_room (ht.room_eq_zero.2 full)]
    exact ⟨_, rfl⟩
  · rw [(offer_device bytes t).1, BoundedDevice.offer_of_room (mt ht.room_eq_zero.1 full)]
    have none := (t.device.length_part_le bytes).2.1 0 (ht.chunk.trans stuck)
    exact congrArg _ (Nat.le_zero.1 none)
  · have room := mt ht.room_eq_zero.1 full
    have some := BoundedDevice.length_part_pos room (ht.chunk ▸ goes) hb
    obtain ⟨all, most, left⟩ := t.device.length_part_le bytes
    rw [(offer_device bytes t).1, BoundedDevice.offer_of_room room]
    refine ⟨_, congrArg _ (Nat.sub_add_cancel some).symm, ?_, fun c hc => ?_, fun l hl => ?_⟩
    · omega
    · have := most c (ht.chunk.trans hc)
      omega
    · have fits : t.device.room = Option.some (l - t.received.length) := by
        rw [BoundedDevice.room, ht.limit, ht.length, hl]
        rfl
      have := left _ fits
      omega
  · rw [(flush_device t).1, ← ht.failFlush]
    cases h : t.device.failFlush <;> simp [Device.flush, h]

end Tapped

/-! ## Streams -/

/-- What can be asked of a stream. -/
inductive Request where
  | write (text : String)
  | drain
  | flush
  deriving DecidableEq, Repr

def Request.text : Request → String
  | write text => text
  | drain | flush => ""

def Request.written (requests : List Request) : String := String.join (requests.map text)

@[simp] theorem Request.written_nil : written [] = "" := rfl

@[simp] theorem Request.written_cons (r : Request) (rest : List Request) :
    written (r :: rest) = r.text ++ written rest := by
  simp [written]

namespace Stream

variable {σ : Type} [OutputStream σ]

def request (s : σ) : Request → σ
  | .write text => (OutputStream.write text s).2
  | .drain => (OutputStream.drain s).2
  | .flush => (OutputStream.flush s).2

def after (requests : List Request) (s : σ) : σ := requests.foldl request s

end Stream

namespace Buffered

variable {δ : Type} [Device δ] {chunk limit : Option Nat} {flushes : Bool} {mark : Nat}
  {total : List UInt8} {s : Buffered (Tapped δ)}

/-- A stream that has been given these bytes. Either no write to the device has failed and each byte
is at the device or in the buffer, or the device takes nothing more and has a first part. -/
structure Accounted (chunk limit : Option Nat) (flushes : Bool) (mark : Nat)
    (total : List UInt8) (s : Buffered (Tapped δ)) : Prop where
  device : s.device.Bounded chunk limit flushes
  mark_eq : s.mark = max mark 1
  bytes : s.given = total ∨
    s.device.Done chunk limit ∧ s.buffer ≠ [] ∧ s.device.received <+: total

theorem accounted_new {device : δ} (h : (Tapped.new device).Bounded chunk limit flushes) :
    (new (Tapped.new device) mark).Accounted chunk limit flushes mark [] :=
  ⟨h, rfl, Or.inl rfl⟩

theorem Accounted.isPrefix (h : s.Accounted chunk limit flushes mark total) :
    s.device.received <+: total := by
  rcases h.bytes with hb | ⟨-, -, hb⟩
  · rw [← hb]
    exact List.prefix_append _ _
  · exact hb

theorem Accounted.write (h : s.Accounted chunk limit flushes mark total) (text : String) :
    (OutputStream.write text s).2.Accounted chunk limit flushes mark (total ++ Text.utf8 text) := by
  refine ⟨h.device, h.mark_eq, ?_⟩
  rcases h.bytes with hb | ⟨hd, hb, hp⟩
  · exact Or.inl (by rw [given_write, hb])
  · exact Or.inr ⟨hd, List.append_ne_nil_of_left_ne_nil hb _, hp.trans (List.prefix_append _ _)⟩

theorem Accounted.received_writeAll (h : s.Accounted chunk limit flushes mark total)
    (hw : (Device.writeAll s.buffer s.device).1 = .ok ()) :
    (Device.writeAll s.buffer s.device).2.received = total := by
  rcases h.bytes with hb | ⟨hd, hb, -⟩
  · rw [← hb]
    exact Tapped.writeWithin_received hw (Nat.le_refl _)
  · obtain ⟨⟨e, he⟩, -⟩ := h.device.writeAll_of_done hd hb
    rw [hw] at he
    cases he

theorem Accounted.writeOut (h : s.Accounted chunk limit flushes mark total) :
    s.writeOut.2.Accounted chunk limit flushes mark total := by
  obtain ⟨bounded, fails⟩ := h.device.writeWithin s.buffer.length s.buffer
  rcases s.writeOut_cases with ⟨hw, out⟩ | ⟨e, hw, out⟩
  · rw [out]
    refine ⟨bounded.step (.flush _), h.mark_eq, Or.inl ?_⟩
    rw [given, Tapped.flush_received, h.received_writeAll hw, List.append_nil]
  · obtain ⟨hb, hd⟩ := fails e hw
    have first : s.writeOut.2.device.received <+: total := by
      rcases h.bytes with hg | ⟨done, -, hp⟩
      · rw [← hg]
        exact s.received_writeOut_isPrefix
      · rw [out, (h.device.writeAll_of_done done hb).2]
        exact hp
    rw [out] at first ⊢
    exact ⟨bounded, h.mark_eq, Or.inr ⟨hd, hb, first⟩⟩

theorem Accounted.request (h : s.Accounted chunk limit flushes mark total) (r : Request) :
    (Stream.request s r).Accounted chunk limit flushes mark
      (total ++ Text.utf8 r.text) := by
  cases r with
  | write text => exact h.write text
  | drain =>
    rw [Request.text, Text.utf8_empty, List.append_nil]
    exact h.writeOut
  | flush =>
    rw [Request.text, Text.utf8_empty, List.append_nil]
    exact h.writeOut

theorem accounted_after (h : s.Accounted chunk limit flushes mark total)
    (requests : List Request) : (Stream.after requests s).Accounted chunk limit flushes mark
      (total ++ Text.utf8 (Request.written requests)) := by
  induction requests generalizing s total with
  | nil => simpa [Stream.after] using h
  | cons r rest ih =>
    rw [Request.written_cons, Text.utf8_append, ← List.append_assoc]
    exact ih (h.request r)

/-- After a write and the drain it may lead to there is less than the mark in the buffer. -/
theorem length_kept_lt {mark : Nat} (hm : 0 < mark) (texts : List String) :
    (kept mark texts).length < mark := by
  rcases texts.eq_nil_or_concat with rfl | ⟨texts, text, rfl⟩
  · exact hm
  · rw [kept, List.concat_eq_append, List.foldl_append, List.foldl_cons, List.foldl_nil, keptAfter]
    split
    · assumption
    · exact hm

theorem length_buffer_write (text : String) (s : Buffered (Tapped δ)) :
    (OutputStream.write text s).2.buffer.length = s.buffer.length + (Text.utf8 text).length := by
  simp [OutputStream.write]

/-- Any requests on a stream over a device that takes at most `chunk` bytes at a time and `limit`
bytes in all. The device has a first part of what has been written. If it takes the whole buffer
with a drain or a flush then only its own flush can still fail: the buffer is empty, and the device
has everything. Otherwise the buffer is as it was. A write answers whether less than the mark, which
is 1 at least, is in the buffer after it. Over a device that never fails, with a drain after each
write that asks for one, less than that is in the buffer after any of them, and less than that and
the next text together after the next write. -/
theorem every_byte_accounted (device : δ) (mark : Nat)
    (h : (Tapped.new device).Bounded chunk limit flushes) :
    let start := new (Tapped.new device) mark
    (∀ requests,
      let s := Stream.after requests start
      let total := Text.utf8 (Request.written requests)
      let written := Device.writeAll s.buffer s.device
      s.device.received <+: total ∧
      (∀ out, out = OutputStream.drain s ∨ out = OutputStream.flush s →
        (written.1 = .ok () → (out.1 = .ok () ↔ flushes = true) ∧
          out.2.buffer = [] ∧ out.2.device.received = total) ∧
        (out.1 = .ok () → written.1 = .ok ()) ∧
        ∀ e, written.1 = .error e → out.1 = .error e ∧ out.2.buffer = s.buffer) ∧
      ∀ text, (OutputStream.write text s).1 = true ↔
        (OutputStream.write text s).2.buffer.length < max mark 1) ∧
    (Device.NeverFails device → ∀ texts : List String,
      let s := texts.foldl Stream.afterPiece start
      s.buffer.length < max mark 1 ∧ ∀ text,
        (OutputStream.write text s).2.buffer.length < max mark 1 + (Text.utf8 text).length) := by
  intro start
  refine ⟨?_, ?_⟩
  · intro requests s total written
    have accounted : s.Accounted chunk limit flushes mark total :=
      accounted_after (accounted_new h) requests
    refine ⟨accounted.isPrefix, ?_, fun text => ?_⟩
    · intro out hout
      obtain rfl : out = s.writeOut := hout.elim id id
      rcases s.writeOut_cases with ⟨hw, ho⟩ | ⟨e, hw, ho⟩
      · have bounded := (accounted.device.writeWithin s.buffer.length s.buffer).1
        refine ⟨fun _ => ?_, fun _ => hw, fun e he => nomatch hw.symm.trans he⟩
        rw [ho, Tapped.flush_received]
        exact ⟨bounded.answers.flush, rfl, accounted.received_writeAll hw⟩
      · rw [ho]
        refine ⟨fun hok => (nomatch hw.symm.trans hok), fun hok => (nomatch hok), fun e' he => ?_⟩
        exact ⟨hw.symm.trans he, rfl⟩
    · rw [← accounted.mark_eq]
      exact decide_eq_true_iff
  · intro never texts s
    have took : s.Took (max mark 1) texts := (took_new never mark).foldl texts
    have less : s.buffer.length < max mark 1 := by
      rw [took.buffer]
      exact length_kept_lt (Nat.lt_of_lt_of_le Nat.one_pos (Nat.le_max_right mark 1)) texts
    refine ⟨less, fun text => ?_⟩
    rw [length_buffer_write]
    omega

def textsAndDrains : List Request := [.write "ab", .drain, .write "cd", .drain]

/-- The device is full in the middle of the second text, which stays in the buffer. A device that
never fails takes all, one byte at a time. -/
theorem textsAndDrains_accounted :
    let full := Stream.after textsAndDrains
      (new (Tapped.new (BoundedDevice.new (some 2) (some 3) true)) 2)
    let healthy := ["ab", "c"].foldl Stream.afterPiece
      (new (Tapped.new (BoundedDevice.new (some 1) none false)) 2)
    full.device.received = Text.utf8 "abc" ∧ full.device.received <+: Text.utf8 "abcd" ∧
      full.buffer = Text.utf8 "cd" ∧ (OutputStream.flush full).2.buffer = full.buffer ∧
      (OutputStream.write "" full).1 = false ∧ healthy.buffer.length < 2 ∧
      (OutputStream.write "xyz" healthy).2.buffer.length < 2 + 3 := by
  intro full healthy
  obtain ⟨accounted, -⟩ := every_byte_accounted (BoundedDevice.new (some 2) (some 3) true) 2
    (Tapped.bounded_new (some 2) (some 3) true)
  obtain ⟨first, outs, writes⟩ := accounted textsAndDrains
  obtain ⟨-, -, fails⟩ := outs _ (Or.inr rfl)
  obtain ⟨-, room⟩ := every_byte_accounted (BoundedDevice.new (some 1) none false) 2
    (Tapped.bounded_new (some 1) none false)
  obtain ⟨less, next⟩ := room (Device.neverFails_bounded rfl (by decide) rfl) ["ab", "c"]
  have stopped : (Device.writeAll full.buffer full.device).1 =
      .error ⟨.storageFull, "device full"⟩ := rfl
  have answer : (OutputStream.write "" full).1 ≠ true :=
    fun h => absurd ((writes "").1 h) (by decide +kernel)
  exact ⟨by decide +kernel, first, by decide +kernel, (fails _ stopped).2,
    Bool.eq_false_iff.2 answer, less, next "xyz"⟩

end Buffered

end StyledEffects
