import StyledEffects.Proofs.Lines
import StyledEffects.Proofs.Transcript
import StyledEffects.Run.Sink

/-! Where outputs go. A text goes to its channel, on a new line if the text before it went to
the other one; escapes go to the primary channel and do not count as a text. -/

namespace StyledEffects

open Wire

namespace Output

/-- What is put before a text: a line feed if the last text went to the other channel and
this one does not start with a line feed itself. -/
def lead (last : Option Channel) (channel : Channel) (text : String) : String :=
  if last ≠ none ∧ last ≠ some channel ∧ text.toList.head? ≠ some '\n' then "\n" else ""

theorem esc_notMem_lead {text : String} (h : Style.esc ∉ text.toList) (last : Option Channel)
    (channel : Channel) : Style.esc ∉ (lead last channel text ++ text).toList := by
  unfold lead
  split
  · simpa [Style.esc] using h
  · simpa using h

/-- The channel that an output goes to and what is sent there. `last` is the channel of the
last text. -/
def route (last : Option Channel) : Output → Channel × String
  | .text channel t => (channel, lead last channel t ++ t)
  | .control escapes => (.primary, escapes)

def lastAfter (last : Option Channel) : Output → Option Channel
  | .text channel _ => some channel
  | .control _ => last

def routes : Option Channel → List Output → List (Channel × String)
  | _, [] => []
  | last, output :: rest => output.route last :: routes (output.lastAfter last) rest

def linesOn (channel : Channel) (routes : List (Channel × String)) : List String :=
  (routes.filter (·.1 = channel)).flatMap (Text.lines ·.2)

@[simp] theorem linesOn_nil (channel : Channel) : linesOn channel [] = [] := rfl

theorem linesOn_cons (channel : Channel) (r : Channel × String)
    (rest : List (Channel × String)) :
    linesOn channel (r :: rest) =
      (if r.1 = channel then Text.lines r.2 else []) ++ linesOn channel rest := by
  by_cases h : r.1 = channel <;> simp [linesOn, h]

theorem join_linesOn (channel : Channel) (routes : List (Channel × String)) :
    String.join (linesOn channel routes) =
      String.join ((routes.filter (·.1 = channel)).map (·.2)) := by
  unfold linesOn
  induction routes.filter (·.1 = channel) with
  | nil => rfl
  | cons r rest ih =>
    rw [List.flatMap_cons, String.join_append, ih, List.map_cons, String.join_cons,
      Text.join_lines]

def sentTo (channel : Channel) : Option Channel → List Output → List Output
  | _, [] => []
  | last, .control escapes :: rest =>
    (if channel = .primary then [.control escapes] else []) ++ sentTo channel last rest
  | last, .text c t :: rest =>
    (if c = channel then [.text c (lead last c t ++ t)] else []) ++ sentTo channel (some c) rest

def lastOf (last : Option Channel) (outputs : List Output) : Option Channel :=
  outputs.foldl (fun last output => output.lastAfter last) last

theorem sentTo_append (channel : Channel) (last : Option Channel) (a b : List Output) :
    sentTo channel last (a ++ b) = sentTo channel last a ++ sentTo channel (lastOf last a) b := by
  induction a generalizing last with
  | nil => rfl
  | cons output rest ih =>
    cases output <;> simp [sentTo, ih, lastOf, lastAfter]

theorem content_sentTo (channel : Channel) (last : Option Channel) (outputs : List Output) :
    (sentTo channel last outputs).map content =
      ((routes last outputs).filter (·.1 = channel)).map (·.2) := by
  induction outputs generalizing last with
  | nil => rfl
  | cons output rest ih =>
    cases output with
    | text c t =>
      by_cases h : c = channel <;> simp [sentTo, routes, route, lastAfter, content, ih, h]
    | control escapes => cases channel <;> simp [sentTo, routes, route, lastAfter, content, ih]

theorem join_linesOn_routes (channel : Channel) (last : Option Channel) (outputs : List Output) :
    String.join (linesOn channel (routes last outputs)) =
      String.join ((sentTo channel last outputs).map content) := by
  rw [join_linesOn, content_sentTo]

def load (routes : List (Channel × String)) : Nat :=
  Signal.workOfAll (routes.map fun r => .text r.2)

end Output

namespace Sink

open Output

variable {σ τ : Type}

theorem forcesNewline_iff (last : Option Channel) (channel : Channel) (text : String) :
    forcesNewline last channel text = true ↔
      last ≠ none ∧ last ≠ some channel ∧ text.toList.head? ≠ some '\n' := by
  cases last <;> simp [forcesNewline, startsLine]

@[simp] theorem wake_active (channel : Channel) (s : Sink σ τ) :
    (s.wake channel).active = s.active := by
  unfold wake
  split <;> rfl

@[simp] theorem wake_primary (channel : Channel) (s : Sink σ τ) :
    (s.wake channel).primary = s.primary := by
  unfold wake
  split <;> rfl

@[simp] theorem wake_secondary (channel : Channel) (s : Sink σ τ) :
    (s.wake channel).secondary = s.secondary := by
  unfold wake
  split <;> rfl

theorem send_active (channel : Channel) (text : String) (s : Sink σ τ) :
    (s.send channel text).1.active = s.active := by
  unfold send
  by_cases h : text = "" <;> cases channel <;> simp [h]

theorem send_primary (channel : Channel) (text : String) (s : Sink σ τ) :
    (s.send channel text).1.primary =
      if channel = .primary then (s.primary.send text).1 else s.primary := by
  unfold send
  by_cases h : text = "" <;> cases channel <;> simp [h]

theorem send_secondary (channel : Channel) (text : String) (s : Sink σ τ) :
    (s.send channel text).1.secondary =
      if channel = .secondary then (s.secondary.send text).1 else s.secondary := by
  unfold send
  by_cases h : text = "" <;> cases channel <;> simp [h]

theorem put_eq_send (output : Output) (s : Sink σ τ) :
    (s.put output).1 = (({ s with active := output.lastAfter s.active } : Sink σ τ).send
      (output.route s.active).1 (output.route s.active).2).1 := by
  cases output with
  | control escapes => rfl
  | text channel text =>
    by_cases h : forcesNewline s.active channel text = true
    · have hl := (forcesNewline_iff _ _ _).1 h
      simp only [put, writeText, h, if_true, route, lead, lastAfter]
      rw [if_pos hl]
    · have hl := mt (forcesNewline_iff _ _ _).2 h
      simp only [put, writeText, h, Bool.false_eq_true, if_false, route, lead, lastAfter]
      rw [if_neg hl, String.empty_append]

theorem put_active (output : Output) (s : Sink σ τ) :
    (s.put output).1.active = output.lastAfter s.active := by
  rw [put_eq_send, send_active]

theorem put_primary (output : Output) (s : Sink σ τ) :
    (s.put output).1.primary =
      if (output.route s.active).1 = .primary
        then (s.primary.send (output.route s.active).2).1 else s.primary := by
  rw [put_eq_send, send_primary]

theorem put_secondary (output : Output) (s : Sink σ τ) :
    (s.put output).1.secondary =
      if (output.route s.active).1 = .secondary
        then (s.secondary.send (output.route s.active).2).1 else s.secondary := by
  rw [put_eq_send, send_secondary]

@[simp] theorem close_primary (s : Sink σ τ) : s.close.primary = s.primary.close := by
  simp [close]

@[simp] theorem close_secondary (s : Sink σ τ) : s.close.secondary = s.secondary.close := by
  simp [close]

end Sink

theorem Writer.work_send_le {σ : Type} (text : String) (w : Writer σ) :
    (w.send text).1.work ≤ w.work + (Signal.text text).work := by
  unfold Writer.send
  split
  · simp
  · split
    · simp
    · simp [Writer.work]
      omega

theorem Sink.work_put_le {σ τ : Type} (output : Output) (s : Sink σ τ) :
    (s.put output).1.work ≤ s.work + (Signal.text (output.route s.active).2).work := by
  unfold work
  rw [put_primary, put_secondary]
  have hp := s.primary.work_send_le (output.route s.active).2
  have hs := s.secondary.work_send_le (output.route s.active).2
  cases (output.route s.active).1 <;> simp <;> omega

theorem Sink.work_close {σ τ : Type} (s : Sink σ τ) : s.close.work = s.work := by
  simp [work, Writer.work, Writer.close]

end StyledEffects
