import StyledEffects.Proofs.Buffering
import StyledEffects.Proofs.Colour
import StyledEffects.Proofs.Sent

/-! What arrives at devices that may fail. A device may take a part of what it is offered, and
any write or flush may fail. What has arrived is a first part of what has been sent at all
times, since a task never goes on after a failure. A run without an error has all of it at
the devices, which have been flushed after that. -/

namespace StyledEffects

open Json Style Wire Output

namespace Tapped

variable {δ : Type} [Device δ]

theorem received_writeWithin (rounds : Nat) (bytes : List UInt8) (t : Tapped δ) :
    ∃ part, part <+: bytes ∧
      (Device.writeWithin rounds bytes t).2.received = t.received ++ part := by
  induction rounds generalizing bytes t with
  | zero => exact ⟨[], List.nil_prefix, by simp [Device.writeWithin]⟩
  | succ rounds ih =>
    cases bytes with
    | nil => exact ⟨[], List.nil_prefix, by simp [Device.writeWithin]⟩
    | cons b bytes =>
      have taken {n : Nat} (hn : (Device.offer (b :: bytes) t).1 = .ok n) := offer_received hn
      rcases ho : Device.offer (b :: bytes) t with ⟨e | _ | n, t'⟩
      · refine ⟨[], List.nil_prefix, ?_⟩
        have : t'.received = t.received := by
          rcases hd : Device.offer (b :: bytes) t.device with ⟨_ | _, d⟩
          · obtain ⟨-, rfl⟩ := by simpa [Device.offer, hd] using ho
            rfl
          · simp [Device.offer, hd] at ho
        simp [Device.writeWithin, ho, this]
      · rw [ho] at taken
        have : t'.received = t.received := by simpa using taken rfl
        exact ⟨[], List.nil_prefix, by simp [Device.writeWithin, ho, this]⟩
      · rw [ho] at taken
        obtain ⟨part, hpart, hr⟩ := ih ((b :: bytes).drop (n + 1)) t'
        refine ⟨(b :: bytes).take (n + 1) ++ part, ?_, ?_⟩
        · have := (List.prefix_append_right_inj ((b :: bytes).take (n + 1))).2 hpart
          rwa [List.take_append_drop] at this
        · have e : Device.writeWithin (rounds + 1) (b :: bytes) t =
              Device.writeWithin rounds ((b :: bytes).drop (n + 1)) t' := by
            simp [Device.writeWithin, ho]
          rw [e, hr, taken rfl, List.append_assoc]

theorem flushed_flush {t : Tapped δ} (h : (Device.flush t).1 = .ok ()) :
    (Device.flush t).2.flushed = t.received.length := by
  rw [(flush_device t).1] at h
  rcases hd : Device.flush t.device with ⟨e | u, d⟩
  · simp [hd] at h
  · simp [Device.flush, hd]

end Tapped

namespace Buffered

variable {δ : Type} [Device δ]

/-- All bytes that the stream has been given, while none of its calls has failed. -/
def given (s : Buffered (Tapped δ)) : List UInt8 := s.device.received ++ s.buffer

@[simp] theorem given_write (text : String) (s : Buffered (Tapped δ)) :
    (OutputStream.write text s).2.given = s.given ++ Text.utf8 text := by
  simp [given, OutputStream.write]

theorem received_writeOut_isPrefix (s : Buffered (Tapped δ)) :
    s.writeOut.2.device.received <+: s.given := by
  obtain ⟨part, hpart, hr⟩ := Tapped.received_writeWithin s.buffer.length s.buffer s.device
  have arrived : s.writeOut.2.device.received = s.device.received ++ part := by
    rw [← hr]
    unfold writeOut Device.writeAll
    rcases Device.writeWithin s.buffer.length s.buffer s.device with ⟨_ | _, d⟩
    · rfl
    · exact Tapped.flush_received d
  rw [arrived]
  exact (List.prefix_append_right_inj _).2 hpart

theorem writeOut_ok {s : Buffered (Tapped δ)} (h : s.writeOut.1 = .ok ()) :
    s.writeOut.2.buffer = [] ∧ s.writeOut.2.device.received = s.given ∧
      s.writeOut.2.device.flushed = s.given.length := by
  rcases hw : Device.writeAll s.buffer s.device with ⟨e | u, d⟩
  · simp [writeOut, hw] at h
  · have received : d.received = s.given := by
      have written := Tapped.writeWithin_received (congrArg Prod.fst hw) (Nat.le_refl _)
      rwa [← Device.writeAll, hw] at written
    have e : s.writeOut = ((Device.flush d).1, ⟨(Device.flush d).2, [], s.mark⟩) := by
      simp [writeOut, hw]
    rw [e] at h ⊢
    refine ⟨rfl, ?_, ?_⟩
    · rw [Tapped.flush_received, received]
    · rw [Tapped.flushed_flush h, received]

end Buffered

namespace Writer

variable {δ : Type} {w w' : Writer (Buffered (Tapped δ))} {total : List UInt8}

/-- A writer that has been sent `total` so far. Each byte of it is at the device, in the
buffer or still to be written; once its stream has failed, the device has a first part. -/
structure Accounts (w : Writer (Buffered (Tapped δ))) (total : List UInt8) : Prop where
  last : w.phase = .flushing .last ∨ w.stopped? = some (.ok ()) →
    w.closed = true ∧ w.queue = []
  bytes : w.stream.given ++ Text.utf8 (String.join w.owed) = total ∨
    (w.Failed ∧ w.stream.device.received <+: total)
  flushed : w.stopped? = some (.ok ()) → w.stream.device.received = w.stream.given ∧
    w.stream.device.flushed = w.stream.given.length

theorem Accounts.isPrefix (h : w.Accounts total) : w.stream.device.received <+: total := by
  rcases h.bytes with hb | ⟨-, hb⟩
  · rw [← hb, Buffered.given, List.append_assoc]
    exact List.prefix_append _ _
  · exact hb

/-- A task that has ended in success has brought everything to the device, flushed. -/
theorem Accounts.delivered (h : w.Accounts total) (hs : w.stopped? = some (.ok ())) :
    w.stream.device.received = total ∧ w.stream.device.flushed = total.length := by
  have ho := owed_of_stopped hs (h.last (Or.inr hs)).2
  obtain ⟨hr, hf⟩ := h.flushed hs
  rcases h.bytes with hb | ⟨⟨e, he⟩, -⟩
  · have : w.stream.given = total := by simpa [ho] using hb
    rw [hr, hf, this]
    exact ⟨rfl, rfl⟩
  · simp [hs] at he

theorem accounts_new (label : String) (device : δ) (mark : Nat) :
    (new label (Buffered.new (Tapped.new device) mark)).Accounts [] :=
  ⟨by simp [new, stopped?], Or.inl rfl, by simp [new, stopped?]⟩

theorem Accounts.send {text : String} (h : w.Accounts total) (ho : w.closed = false) :
    (w.send text).1.Accounts (total ++ Text.utf8 text) := by
  unfold Writer.send
  split
  · rename_i he
    subst he
    simpa using h
  · cases hs : w.stopped? with
    | none =>
      have running : w.stopped? ≠ some (.ok ()) := by simp [hs]
      refine ⟨fun hl => absurd (h.last hl).1 (by simp [ho]), ?_, fun hl => absurd hl running⟩
      rcases h.bytes with hb | ⟨⟨e, he⟩, -⟩
      · left
        rw [← hb]
        simp [owed, Signal.lines, Text.join_lines, Buffered.given]
      · simp [hs] at he
    | some outcome =>
      cases outcome with
      | ok u => simp [(h.last (Or.inr hs)).1] at ho
      | error e =>
        exact ⟨h.last, Or.inr ⟨⟨e, hs⟩, h.isPrefix.trans (List.prefix_append _ _)⟩, h.flushed⟩

theorem Accounts.close (h : w.Accounts total) : w.close.Accounts total :=
  ⟨fun hl => ⟨rfl, (h.last hl).2⟩, h.bytes, h.flushed⟩

variable [Device δ]

theorem given_writeOut {s : Buffered (Tapped δ)} (h : s.writeOut.1 = .ok ()) :
    s.writeOut.2.given = s.given := by
  obtain ⟨hb, hr, -⟩ := Buffered.writeOut_ok h
  rw [Buffered.given, hb, hr, List.append_nil]

theorem failed_flushed {σ : Type} (purpose : Purpose) (e : DeviceError) (w : Writer σ) :
    (w.flushed purpose (.error e)).Failed := by
  cases purpose <;> exact ⟨_, rfl⟩

/-- A turn of the task neither loses nor adds a byte, unless the device fails. Then the task
has stopped and the device has a first part of what it should have. -/
theorem Turn.given_append_owed {events : List Log.Event} (h : Turn w w' events) :
    w'.stream.given ++ Text.utf8 (String.join w'.owed) =
        w.stream.given ++ Text.utf8 (String.join w.owed) ∨
      (w'.Failed ∧ w'.stream.device.received <+: w.stream.given) := by
  cases h with
  | takeText hp hq => left; simp [owed, hp, hq, Phase.rest, Signal.lines]
  | takeFlush hp hq => left; simp [owed, hp, hq, Phase.rest, Signal.lines]
  | takeEnd hp hq hc => left; simp [owed, hp, hq, Phase.rest]
  | endText hp => left; rw [owed, owed, rest_afterText, hp]; rfl
  | line hp hm => left; simp [owed, hp, Phase.rest]
  | fullLine hp hm => left; simp [owed, hp, Phase.rest]
  | drained hp hd =>
    left
    have given : (OutputStream.drain w.stream).2.given = w.stream.given := given_writeOut hd
    simp [owed, hp, Phase.rest, given]
  | broken hp hd => right; exact ⟨⟨_, rfl⟩, w.stream.received_writeOut_isPrefix⟩
  | @flush purpose hp =>
    cases hf : (OutputStream.flush w.stream).1 with
    | ok u =>
      left
      have given : (OutputStream.flush w.stream).2.given = w.stream.given := given_writeOut hf
      rw [owed, owed, flushed_rest, hp]
      simp [Phase.rest, given]
    | error e =>
      right
      exact ⟨failed_flushed purpose e _,
        by rw [flushed_stream]; exact w.stream.received_writeOut_isPrefix⟩

/-- A task ends in success with a flush only, and that has handed over all of the buffer. -/
theorem Turn.flushed_of_stopped {events : List Log.Event} (h : Turn w w' events)
    (hs : w'.stopped? = some (.ok ())) :
    w'.stream.device.received = w'.stream.given ∧
      w'.stream.device.flushed = w'.stream.given.length := by
  cases h with
  | takeText hp hq => simp [stopped?] at hs
  | takeFlush hp hq => simp [stopped?] at hs
  | takeEnd hp hq hc => simp [stopped?] at hs
  | endText hp => cases hq : w.queue <;> simp [hq, stopped?, afterText] at hs
  | line hp hm => simp [stopped?] at hs
  | fullLine hp hm => simp [stopped?] at hs
  | drained hp hd => simp [stopped?] at hs
  | broken hp hd => simp [stopped?] at hs
  | @flush purpose hp =>
    cases hf : (OutputStream.flush w.stream).1 with
    | error e =>
      obtain ⟨e', he'⟩ :=
        failed_flushed purpose e { w with stream := (OutputStream.flush w.stream).2 }
      rw [hf, he'] at hs
      cases hs
    | ok u =>
      obtain ⟨hb, hr, hd⟩ := Buffered.writeOut_ok hf
      rw [flushed_stream]
      change w.stream.writeOut.2.device.received = w.stream.writeOut.2.given ∧
        w.stream.writeOut.2.device.flushed = w.stream.writeOut.2.given.length
      rw [given_writeOut hf]
      exact ⟨hr, hd⟩

theorem Accounts.turn {events : List Log.Event} (h : w.Accounts total) (ht : Turn w w' events) :
    w'.Accounts total := by
  have all := h.bytes.resolve_right fun hf => ht.not_failed hf.1
  refine ⟨last_of_turn ht h.last, ?_, ht.flushed_of_stopped⟩
  rcases ht.given_append_owed with kept | ⟨failed, part⟩
  · left
    rw [kept, all]
  · right
    refine ⟨failed, part.trans ?_⟩
    rw [← all]
    exact List.prefix_append _ _

end Writer

namespace IoRun

theorem upheld_accounts {δ : Type} [Device δ] :
    Upheld fun outputs (w : Writer (Buffered (Tapped δ))) => w.Accounts (Output.bytes outputs) where
  send outputs w output h ho := by
    rw [show Output.bytes (outputs ++ [output]) = Output.bytes outputs ++ Text.utf8 output.content
      by simp [Output.bytes]]
    exact h.send ho
  close _ _ h := h.close
  turn _ _ _ _ h ht := h.turn ht

variable {S : Type} {source : Source S}

theorem stopped_of_ok {σ τ : Type} {r : IoRun S σ τ} (h : r.result? = some (.ok ())) :
    r.verdict = some (.ok ()) ∧ r.sink.primary.stopped? = some (.ok ()) ∧
      r.sink.secondary.stopped? = some (.ok ()) := by
  obtain ⟨v, o₁, o₂, hv, h₁, h₂, he⟩ := ended_of_result h
  obtain _ | _ := v
  · cases he
  · obtain _ | _ := o₁
    · cases he
    · obtain _ | _ := o₂
      · cases he
      · exact ⟨hv, h₁, h₂⟩

/-- What has been sent to a channel is a first part of what the transcript sends there. -/
theorem on_sent_isPrefix {σ τ : Type} [OutputStream σ] [OutputStream τ] {state : S}
    {table : Table} {t : Transcript} {primary : σ} {secondary : τ} {moves : List Move}
    {r : IoRun S σ τ} (plays : source.Plays none state (.new table) t)
    (hr : (new table state primary secondary).after source moves = some r)
    (channel : Channel) :
    Sent.on channel ((new table state primary secondary).sent source moves) <+:
      sentTo channel none t.outputs := by
  obtain ⟨n, outputs, -, all⟩ := sent_append plays hr
  rw [sentTo_eq_filter, ← all]
  change _ <+: Sent.on channel _
  rw [Sent.on_append]
  exact List.prefix_append _ _

theorem bytes_isPrefix {a b : List Output} (h : a <+: b) : Output.bytes a <+: Output.bytes b := by
  obtain ⟨rest, rfl⟩ := h
  rw [show Output.bytes (a ++ rest) = Output.bytes a ++ Output.bytes rest by simp [Output.bytes]]
  exact List.prefix_append _ _

variable {δ ε : Type} [Device δ] [Device ε]

/-- Whatever the devices do and when, each has received a first part of what has been sent to
its channel, which is a first part of what the source has for it. If a run ends without an
error each has received all of that, and has been flushed since. -/
theorem arrives_in_order_and_in_full (source : Source S) (state : S) (table : Table)
    (primary : δ) (secondary : ε) (mark mark' : Nat) :
    let start := new table state (Buffered.new (Tapped.new primary) mark)
      (Buffered.new (Tapped.new secondary) mark')
    ∀ moves r, start.after source moves = some r →
      let sent := start.sent source moves
      let first := r.sink.primary.stream.device
      let second := r.sink.secondary.stream.device
      first.received <+: bytes (Sent.on .primary sent) ∧
      second.received <+: bytes (Sent.on .secondary sent) ∧
      (∀ t, source.Plays none state (.new table) t →
        first.received <+: bytes (sentTo .primary none t.outputs) ∧
        second.received <+: bytes (sentTo .secondary none t.outputs)) ∧
      ∀ result, r.result? = some result → ∃ t, source.Plays none state (.new table) t ∧
        Sent.on .primary sent = sentTo .primary none t.outputs ∧
        Sent.on .secondary sent = sentTo .secondary none t.outputs ∧
        (result = .ok () →
          t.verdict = .ok () ∧
          first.received = bytes (sentTo .primary none t.outputs) ∧
          first.flushed = first.received.length ∧
          second.received = bytes (sentTo .secondary none t.outputs) ∧
          second.flushed = second.received.length) := by
  intro start moves r hr sent first second
  have hp : r.sink.primary.Accounts (bytes (Sent.on .primary sent)) :=
    upheld .primary upheld_accounts (by exact Writer.accounts_new _ _ _) hr
  have hs : r.sink.secondary.Accounts (bytes (Sent.on .secondary sent)) :=
    upheld .secondary upheld_accounts (by exact Writer.accounts_new _ _ _) hr
  refine ⟨hp.isPrefix, hs.isPrefix, fun t plays => ⟨?_, ?_⟩, fun result hres => ?_⟩
  · exact hp.isPrefix.trans (bytes_isPrefix (on_sent_isPrefix plays hr .primary))
  · exact hs.isPrefix.trans (bytes_isPrefix (on_sent_isPrefix plays hr .secondary))
  obtain ⟨t, plays⟩ := plays_of_result hr (by rw [hres]; rfl)
  have all : sent = sendings none t.outputs := sent_of_plays plays hr (by rw [hres]; rfl)
  have on (channel : Channel) : Sent.on channel sent = sentTo channel none t.outputs := by
    rw [all, sentTo_eq_filter, Sent.on]
  refine ⟨t, plays, on .primary, on .secondary, ?_⟩
  rintro rfl
  obtain ⟨hv, h₁, h₂⟩ := stopped_of_ok hres
  obtain ⟨primary, flushed⟩ := hp.delivered h₁
  obtain ⟨secondary, flushed'⟩ := hs.delivered h₂
  rw [on] at primary flushed secondary flushed'
  refine ⟨?_, primary, by rw [primary]; exact flushed, secondary, by rw [secondary]; exact flushed'⟩
  obtain ⟨n, outputs, ahead, -⟩ := sent_append plays hr
  exact (ahead.eq_of_verdict hv).1.symm

def twoTexts : List Item :=
  [.ok (Instruction.write "ab" 1), .ok (Instruction.write "c" 2)]

/-- A run of these, onto devices that take one byte at a time. The first stream asks to be
drained after each line. -/
def twoTextsRun :
    IoRun (List Item) (Buffered (Tapped BoundedDevice)) (Buffered (Tapped BoundedDevice)) :=
  .new .plain twoTexts (.new (.new (.new (some 1) none false)) 1)
    (.new (.new (.new (some 1) none false)) Buffered.defaultMark)

def afterEachText : List Move :=
  [.loop, .loop] ++ List.replicate 5 (.writer .primary) ++ List.replicate 4 .loop ++
    List.replicate 7 (.writer .secondary) ++ List.replicate 2 (.writer .primary)

/-- Both devices have their text byte for byte, and have been flushed after it. -/
theorem twoTexts_arrive :
    ∃ r, twoTextsRun.after Source.items afterEachText = some r ∧ r.result? = some (.ok ()) ∧
      r.sink.primary.stream.device.received = Text.utf8 "ab" ∧
      r.sink.primary.stream.device.flushed = 2 ∧
      r.sink.secondary.stream.device.received = Text.utf8 "\nc" ∧
      r.sink.secondary.stream.device.flushed = 2 := by
  obtain ⟨r, hr, hres⟩ : ∃ r, twoTextsRun.after Source.items afterEachText = some r ∧
    r.result? = some (.ok ()) := ⟨_, rfl, rfl⟩
  obtain ⟨-, -, -, ended⟩ :=
    arrives_in_order_and_in_full Source.items twoTexts .plain _ _ _ _ afterEachText r hr
  obtain ⟨t, plays, -, -, delivered⟩ := ended _ hres
  obtain rfl := plays.unique ((Source.yields_items twoTexts).plays (.new .plain))
  obtain ⟨-, primary, flushed, secondary, flushed'⟩ := delivered rfl
  have first : bytes (sentTo .primary none (Transcript.of (.new .plain) twoTexts).outputs) =
      Text.utf8 "ab" := by decide
  have second : bytes (sentTo .secondary none (Transcript.of (.new .plain) twoTexts).outputs) =
      Text.utf8 "\nc" := by decide
  rw [first] at primary
  rw [second] at secondary
  refine ⟨r, hr, hres, primary, ?_, secondary, ?_⟩
  · rw [flushed, primary]
    decide
  · rw [flushed', secondary]
    decide

end IoRun

end StyledEffects
