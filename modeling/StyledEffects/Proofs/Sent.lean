import StyledEffects.Proofs.Rendering

/-! What a run sends to its two writers, in the order of the loop. The record is kept along
the moves of a run. The streams have no say in it: at the end of any run of a source it is
what is read off the source's transcript. -/

namespace StyledEffects

open Json Style Wire Output

/-- An output as it is sent: a text may have a line feed put before it. -/
structure Sent where
  output : Output
  /-- A line feed has been put before the text. -/
  forced : Bool
  deriving DecidableEq, Repr

namespace Output

def channel : Output → Channel
  | .text channel _ => channel
  | .control _ => .primary

def sending (last : Option Channel) : Output → Sent
  | .text channel t =>
    ⟨.text channel (lead last channel t ++ t), Sink.forcesNewline last channel t⟩
  | .control escapes => ⟨.control escapes, false⟩

def sendings : Option Channel → List Output → List Sent
  | _, [] => []
  | last, output :: rest => output.sending last :: sendings (output.lastAfter last) rest

theorem route_eq (last : Option Channel) (output : Output) :
    output.route last =
      ((output.sending last).output.channel, (output.sending last).output.content) := by
  cases output <;> rfl

theorem sentTo_eq_filter (channel : Channel) (last : Option Channel) (outputs : List Output) :
    sentTo channel last outputs =
      ((sendings last outputs).map Sent.output).filter (·.channel = channel) := by
  induction outputs generalizing last with
  | nil => rfl
  | cons output rest ih =>
    cases output with
    | text c t =>
      by_cases h : c = channel <;>
        simp [sentTo, sendings, sending, lastAfter, Output.channel, ih, h]
    | control escapes =>
      cases channel <;> simp [sentTo, sendings, sending, lastAfter, Output.channel, ih]

end Output

namespace Sent

/-- What has been sent, without the line feed that has been put before it. -/
def own (s : Sent) : String :=
  if s.forced then String.ofList s.output.content.toList.tail else s.output.content

theorem own_sending (last : Option Channel) (output : Output) :
    (output.sending last).own = output.content := by
  cases output with
  | control escapes => rfl
  | text channel t =>
    by_cases h : Sink.forcesNewline last channel t = true
    · have hl := (Sink.forcesNewline_iff last channel t).1 h
      simp [own, sending, content, h, lead, hl]
    · have hl := mt (Sink.forcesNewline_iff last channel t).2 h
      simp [own, sending, content, h, lead, hl]

theorem map_own_sendings (last : Option Channel) (outputs : List Output) :
    (sendings last outputs).map own = outputs.map content := by
  induction outputs generalizing last with
  | nil => rfl
  | cons output rest ih => rw [sendings, List.map_cons, own_sending, ih, List.map_cons]

def on (channel : Channel) (sent : List Sent) : List Output :=
  (sent.map Sent.output).filter (·.channel = channel)

@[simp] theorem on_nil (channel : Channel) : on channel [] = [] := rfl

theorem on_singleton (channel : Channel) (s : Sent) :
    on channel [s] = if s.output.channel = channel then [s.output] else [] := by
  by_cases h : s.output.channel = channel <;> simp [on, h]

theorem on_append (channel : Channel) (a b : List Sent) :
    on channel (a ++ b) = on channel a ++ on channel b := by
  simp [on]

end Sent

namespace IoRun

variable {S σ τ : Type} {source : Source S}

section Gather

variable [OutputStream σ] [OutputStream τ] {α : Type}

def gather (source : Source S) (seen : IoRun S σ τ → Move → List α) :
    List Move → IoRun S σ τ → List α
  | [], _ => []
  | m :: rest, r =>
    match r.move source m with
    | none => []
    | some (next, _) => seen r m ++ gather source seen rest next

/-- What every move keeps, of the state and of what has been seen so far, holds after any of
them. -/
theorem gather_invariant (seen : IoRun S σ τ → Move → List α)
    {P : List α → IoRun S σ τ → Prop} {moves : List Move} {r r' : IoRun S σ τ}
    (h : r.after source moves = some r') (before : List α) (hr : P before r)
    (hmove : ∀ before r m r' events, P before r → r.move source m = some (r', events) →
      P (before ++ seen r m) r') :
    P (before ++ gather source seen moves r) r' := by
  induction moves generalizing r before with
  | nil =>
    obtain rfl : r = r' := by simpa [after] using h
    simpa [gather] using hr
  | cons m rest ih =>
    obtain ⟨⟨next, events⟩, hm, hrest⟩ := Option.bind_eq_some_iff.1 h
    have := ih hrest _ (hmove before r m next events hr hm)
    rw [List.append_assoc] at this
    simpa [gather, hm] using this

theorem gather_append {seen : IoRun S σ τ → Move → List α} {a : List Move} {r r' : IoRun S σ τ}
    (h : r.after source a = some r') (b : List Move) :
    gather source seen (a ++ b) r = gather source seen a r ++ gather source seen b r' := by
  induction a generalizing r with
  | nil =>
    obtain rfl : r = r' := by simpa [after] using h
    rfl
  | cons m rest ih =>
    obtain ⟨⟨next, events⟩, hm, hrest⟩ := Option.bind_eq_some_iff.1 h
    simp [gather, hm, ih hrest]

end Gather

def sending (r : IoRun S σ τ) : Move → List Sent
  | .loop => (r.pending.head?.map (Output.sending r.sink.active)).toList
  | .writer _ => []

inductive Hands (source : Source S) (r : IoRun S σ τ) : List Sent → Prop
  | put (s active) (hv : (r.turn source).verdict = none)
      (hs : (r.turn source).sink =
        (({ r.sink with active } : Sink σ τ).send s.output.channel s.output.content).1) :
    Hands source r [s]
  | pull (hv : (r.turn source).verdict = none) (hs : (r.turn source).sink = r.sink) :
    Hands source r []
  | close (hv : (r.turn source).verdict.isSome) (hs : (r.turn source).sink = r.sink.close) :
    Hands source r []

theorem hands_turn (source : Source S) {r : IoRun S σ τ} (hv : r.verdict = none) :
    Hands source r (r.sending .loop) := by
  cases hp : r.pending with
  | cons output rest =>
    have e := turn_pending source hp
    rw [show r.sending .loop = [output.sending r.sink.active] by rw [sending, hp]; rfl]
    refine .put _ (output.lastAfter r.sink.active) (by rw [e]; exact hv) ?_
    rw [e]
    change (r.sink.put output).1 = _
    rw [Sink.put_eq_send, route_eq]
  | nil =>
    rw [show r.sending .loop = [] by rw [sending, hp]; rfl]
    cases hd : r.drive.result with
    | none =>
      have e := turn_pull source hp hd
      exact .pull (by rw [e]; exact hv) (by rw [e]; exact sink_drive_turn source r.drive)
    | some result =>
      have e := turn_close source hp hd hv
      exact .close (by rw [e]; rfl) (by rw [e]; rfl)

/-- With every turn of the loop what it sends is taken off what is ahead. -/
theorem Ahead.sendings_turn {verdict : Except EffectError Unit} {r : IoRun S σ τ} {n : Nat}
    {outputs : List Output} (h : Ahead source verdict r n outputs) (hv : r.verdict = none) :
    ∃ m rest, Ahead source verdict (r.turn source) m rest ∧
      sendings r.sink.active outputs =
        r.sending .loop ++ sendings (r.turn source).sink.active rest := by
  cases hp : r.pending with
  | cons output pending =>
    have e := turn_pending source hp
    have active : (r.turn source).sink.active = output.lastAfter r.sink.active := by
      rw [e]
      exact Sink.put_active output r.sink
    rw [active]
    cases h with
    | @looping t _ _ _ hd hf ht ho hl hn =>
      refine ⟨_, pending ++ t.outputs, by rw [e]; exact .looping hv hd hf ht ho rfl rfl, ?_⟩
      rw [hl, hp, sending, hp]
      rfl
    | closing _ hd ho hn =>
      refine ⟨_, pending, by rw [e]; exact .closing hv hd ho rfl, ?_⟩
      rw [hp, sending, hp]
      rfl
    | done hv' => simp [hv] at hv'
  | nil =>
    have quiet : r.sending .loop = [] := by rw [sending, hp]; rfl
    simp only [quiet, List.nil_append]
    cases h with
    | looping _ hd hf ht ho hl hn =>
      subst ho hl
      obtain ⟨ha, hs, -⟩ := ahead_pull hp hv hd hf ht
      exact ⟨_, _, ha, by rw [hs, hp]; rfl⟩
    | closing _ hd ho hn =>
      have e := turn_close source hp hd hv
      refine ⟨0, [], by rw [e]; exact .done (congrArg some ho), ?_⟩
      rw [hp]
      rfl
    | done hv' => simp [hv] at hv'

variable [OutputStream σ] [OutputStream τ]

def sent (source : Source S) (moves : List Move) (r : IoRun S σ τ) : List Sent :=
  gather source sending moves r

/-- What a writer keeps to while it is handed outputs, works them off and is closed. -/
structure Upheld {ρ : Type} [OutputStream ρ] (Q : List Output → Writer ρ → Prop) : Prop where
  send : ∀ outputs (w : Writer ρ) output, Q outputs w → w.closed = false →
    Q (outputs ++ [output]) (w.send output.content).1
  close : ∀ outputs (w : Writer ρ), Q outputs w → Q outputs w.close
  turn : ∀ outputs (w w' : Writer ρ) events, Q outputs w → w.Turn w' events → Q outputs w'

theorem upheld {ρ : Type} [OutputStream ρ] (side : Side σ τ ρ)
    {Q : List Output → Writer ρ → Prop} (h : Upheld Q) {table : Table} {state : S}
    {primary : σ} {secondary : τ} (hnew : Q [] (side.writer (.new primary secondary)))
    {moves : List Move} {r : IoRun S σ τ}
    (hr : (new table state primary secondary).after source moves = some r) :
    Q (Sent.on side.channel ((new table state primary secondary).sent source moves))
      (side.writer r.sink) := by
  suffices H : Q (Sent.on side.channel ((new table state primary secondary).sent source moves))
      (side.writer r.sink) ∧ (side.writer r.sink).closed = r.verdict.isSome from H.1
  apply gather_invariant sending (P := fun before r =>
    Q (Sent.on side.channel before) (side.writer r.sink) ∧
      (side.writer r.sink).closed = r.verdict.isSome) hr []
  · exact ⟨hnew, by cases side <;> rfl⟩
  rintro before r m r' events ⟨hq, hc⟩ hm
  cases m with
  | loop =>
    obtain ⟨hv, rfl⟩ := move_loop hm
    rw [hv] at hc
    rw [Sent.on_append]
    have hands := hands_turn source hv
    generalize r.sending .loop = new at hands ⊢
    cases hands with
    | put s active hv' hs =>
      rw [hs, hv', side.writer_send, Sent.on_singleton]
      by_cases hch : s.output.channel = side.channel
      · rw [if_pos hch, if_pos hch, Writer.send_closed]
        exact ⟨h.send _ _ _ hq hc, hc⟩
      · rw [if_neg hch, if_neg hch, List.append_nil]
        exact ⟨hq, hc⟩
    | pull hv' hs =>
      rw [hs, hv', Sent.on_nil, List.append_nil]
      exact ⟨hq, hc⟩
    | close hv' hs =>
      rw [hs, hv', side.writer_close, Sent.on_nil, List.append_nil]
      exact ⟨h.close _ _ hq, rfl⟩
  | writer target =>
    rw [sending, List.append_nil]
    by_cases hch : target = side.channel
    · subst hch
      rw [side.move_writer] at hm
      obtain ⟨⟨w, _⟩, hw, he⟩ := Option.map_eq_some_iff.1 hm
      obtain ⟨rfl, rfl⟩ := Prod.mk.inj he
      have turn := Writer.turn_of_step hw
      rw [side.writer_withSink]
      exact ⟨h.turn _ _ _ _ hq turn, turn.closed.trans hc⟩
    · obtain ⟨same, hv⟩ := side.writer_of_other_move hch hm
      rw [same, hv]
      exact ⟨hq, hc⟩

/-- What has been sent and what is ahead make up what the transcript sends. -/
theorem sent_append {state : S} {table : Table} {t : Transcript} {primary : σ} {secondary : τ}
    {moves : List Move} {r : IoRun S σ τ} (plays : source.Plays none state (.new table) t)
    (hr : (new table state primary secondary).after source moves = some r) :
    ∃ n outputs, Ahead source t.verdict r n outputs ∧
      (new table state primary secondary).sent source moves ++
        sendings r.sink.active outputs = sendings none t.outputs := by
  apply gather_invariant sending (P := fun before r =>
    ∃ n outputs, Ahead source t.verdict r n outputs ∧
      before ++ sendings r.sink.active outputs = sendings none t.outputs) hr []
  · exact ⟨_, _, ahead_new plays primary secondary, rfl⟩
  · rintro before r m r' events ⟨n, outputs, ahead, all⟩ hm
    cases m with
    | loop =>
      obtain ⟨hv, rfl⟩ := move_loop hm
      obtain ⟨m, rest, ahead', hs⟩ := ahead.sendings_turn hv
      exact ⟨m, rest, ahead', by rw [List.append_assoc, ← hs, all]⟩
    | writer channel =>
      obtain ⟨sink, hactive, rfl⟩ := move_writer_cases hm
      refine ⟨n, outputs, ahead.withSink sink, ?_⟩
      rw [sending, List.append_nil, ← all, ← hactive]
      rfl

/-- A run that has come to its end has sent what its transcript sends. -/
theorem sent_of_plays {state : S} {table : Table} {t : Transcript} {primary : σ}
    {secondary : τ} {moves : List Move} {r : IoRun S σ τ}
    (plays : source.Plays none state (.new table) t)
    (hr : (new table state primary secondary).after source moves = some r)
    (h : r.result?.isSome) :
    (new table state primary secondary).sent source moves = sendings none t.outputs := by
  obtain ⟨n, outputs, ahead, all⟩ := sent_append plays hr
  obtain ⟨v, hv⟩ := Option.isSome_iff_exists.1 (isSome_verdict h)
  obtain ⟨-, -, rfl⟩ := ahead.eq_of_verdict hv
  simpa [sendings] using all

end IoRun

end StyledEffects
