import StyledEffects.Proofs.Lines
import StyledEffects.Proofs.Steady
import StyledEffects.Stream.Pipe

/-! Lines that are put together again from chunks. However a text is cut into chunks, a pipe
makes the writes of its lines, and with an error after the chunks these are the lines of what
came before it. A drain that fails ends the writes where it would end those of the whole text. -/

namespace StyledEffects

open Relation

namespace Feed

variable {P : Type}

/-- The feed hands out these items, of which an error is the last, within so many steps. -/
inductive Gives (feed : Feed P) : Nat → P → List (Except EffectError String) → Prop
  | ended {s} (h : feed.pull s = none) : Gives feed 0 s []
  | failed {s e s'} (h : feed.pull s = some (some (.error e), s')) :
    Gives feed 1 s [.error e]
  | quiet {s s' n items} (h : feed.pull s = some (none, s')) (hi : Gives feed n s' items) :
    Gives feed (n + 1) s items
  | chunk {s chunk s' n items} (h : feed.pull s = some (some (.ok chunk), s'))
      (hi : Gives feed n s' items) :
    Gives feed (n + 1) s (.ok chunk :: items)

/-- The chunks in one piece, an error left aside. -/
def emitted (items : List (Except EffectError String)) : String :=
  String.join (items.filterMap Except.toOption)

def verdict : List (Except EffectError String) → Except EffectError Unit
  | [] => .ok ()
  | .ok _ :: rest => verdict rest
  | .error e :: _ => .error e

@[simp] theorem emitted_nil : emitted [] = "" := rfl

@[simp] theorem emitted_ok (chunk : String) (rest : List (Except EffectError String)) :
    emitted (.ok chunk :: rest) = chunk ++ emitted rest := by
  simp [emitted, Except.toOption]

@[simp] theorem emitted_error (e : EffectError) : emitted [.error e] = "" := rfl

end Feed

namespace Stream

variable {σ : Type} [OutputStream σ]

def afterPiece (s : σ) (text : String) : σ := (writePiece text s).2.1

/-- How the writes of some pieces end, and the stream after them. The first drain that fails
is the end of them. -/
def put (pieces : List String) (s : σ) : Outcome × σ :=
  ((writePieces pieces s).1, (writePieces pieces s).2.1)

@[simp] theorem put_nil (s : σ) : put [] s = (.ok (), s) := rfl

theorem put_cons_of_ok {s : σ} {text : String} (h : (writePiece text s).1 = .ok ())
    (rest : List String) : put (text :: rest) s = put rest (afterPiece s text) := by
  rcases hw : writePiece text s with ⟨outcome, s', events⟩
  obtain rfl : outcome = .ok () := by simpa [hw] using h
  simp [put, writePieces, afterPiece, hw]

theorem put_cons_of_error {s : σ} {text : String} {d : DeviceError}
    (h : (writePiece text s).1 = .error d) (rest : List String) :
    put (text :: rest) s = (.error d, afterPiece s text) := by
  rcases hw : writePiece text s with ⟨outcome, s', events⟩
  obtain rfl : outcome = .error d := by simpa [hw] using h
  simp [put, writePieces, afterPiece, hw]

/-- Writes go on where they have ended in success, and nowhere else. -/
theorem put_append (pieces more : List String) (s : σ) :
    put (pieces ++ more) s =
      match put pieces s with
      | (.ok (), s') => put more s'
      | (.error d, s') => (.error d, s') := by
  induction pieces generalizing s with
  | nil => rfl
  | cons text rest ih =>
    cases h : (writePiece text s).1 with
    | ok u => rw [List.cons_append, put_cons_of_ok h, put_cons_of_ok h, ih]
    | error d => rw [List.cons_append, put_cons_of_error h, put_cons_of_error h]

/-! ## Streams whose drains succeed -/

inductive Advance : σ → σ → Prop
  | write (text : String) (s : σ) : Advance s (OutputStream.write text s).2
  | drain (s : σ) : Advance s (OutputStream.drain s).2

def DrainsSucceed (s : σ) : Prop :=
  ∀ s', ReflTransGen Advance s s' → (OutputStream.drain s').1 = .ok ()

theorem DrainsSucceed.step {s s' : σ} (h : DrainsSucceed s) (hs : Advance s s') :
    DrainsSucceed s' :=
  fun s'' hr => h s'' (.head hs hr)

theorem NeverFails.drainsSucceed {s : σ} (h : NeverFails s) : DrainsSucceed s := by
  intro s' hr
  apply NeverFails.drain
  induction hr with
  | refl => exact h
  | tail _ hs ih =>
    cases hs with
    | write text => exact ih.step (.write text _)
    | drain => exact ih.step (.drain _)

theorem DrainsSucceed.afterPiece {s : σ} (h : DrainsSucceed s) (text : String) :
    (writePiece text s).1 = .ok () ∧ DrainsSucceed (afterPiece s text) := by
  have hw := h.step (.write text s)
  unfold Stream.afterPiece writePiece
  cases hm : (OutputStream.write text s).1 with
  | true => exact ⟨by simp [hm], by simpa [hm] using hw⟩
  | false => exact ⟨by simpa [hm] using hw _ .refl, by simpa [hm] using hw.step (.drain _)⟩

theorem DrainsSucceed.put {s : σ} (h : DrainsSucceed s) (pieces : List String) :
    put pieces s = (.ok (), pieces.foldl Stream.afterPiece s) := by
  induction pieces generalizing s with
  | nil => rfl
  | cons text rest ih =>
    obtain ⟨hw, hn⟩ := h.afterPiece text
    rw [put_cons_of_ok hw, ih hn, List.foldl_cons]

end Stream

namespace Pipe

variable {P σ : Type} [OutputStream σ]

/-- What is written when this text comes after the line that has begun. -/
def put (p : Pipe P σ) (text : String) : Outcome × σ :=
  Stream.put (Text.lines (p.partialLine ++ text)) p.stream

/-- How a pipe ends: with the error of its stream, or else as its feed does. -/
def ending (outcome : Outcome) (verdict : Except EffectError Unit) : Except EffectError Unit :=
  match outcome with
  | .ok () => verdict
  | .error d => .error (.device d)

/-- From one pipe to another a text is taken in: the lines that it ends are written, and what
is to be written with any text after it is the same. -/
structure Takes (p : Pipe P σ) (text : String) (p' : Pipe P σ) : Prop where
  result : p'.result = p.result
  partialLine : '\n' ∉ p'.partialLine.toList
  lines : ∃ lines, Stream.put lines p.stream = (.ok (), p'.stream) ∧
    ∀ rest, Text.lines (p.partialLine ++ (text ++ rest)) =
      lines ++ Text.lines (p'.partialLine ++ rest)

def Breaks (p : Pipe P σ) (text : String) (d : DeviceError) (p' : Pipe P σ) : Prop :=
  ∀ rest, p.put (text ++ rest) = (.error d, p'.stream)

theorem Takes.refl {p p' : Pipe P σ} (hp : '\n' ∉ p.partialLine.toList)
    (result : p'.result = p.result) (line : p'.partialLine = p.partialLine)
    (stream : p'.stream = p.stream) : p.Takes "" p' := by
  refine ⟨result, by rwa [line], [], by rw [Stream.put_nil, stream], fun rest => ?_⟩
  rw [String.empty_append, List.nil_append, line]

theorem Takes.put {p p' : Pipe P σ} {text : String} (h : p.Takes text p') (rest : String) :
    p'.put rest = p.put (text ++ rest) := by
  obtain ⟨lines, hw, hl⟩ := h.lines
  rw [Pipe.put, Pipe.put, hl, Stream.put_append, hw]

theorem Takes.trans {p p' p'' : Pipe P σ} {text more : String} (h : p.Takes text p')
    (h' : p'.Takes more p'') : p.Takes (text ++ more) p'' := by
  obtain ⟨first, hw, hl⟩ := h.lines
  obtain ⟨second, hw', hl'⟩ := h'.lines
  refine ⟨h'.result.trans h.result, h'.partialLine, first ++ second, ?_, fun rest => ?_⟩
  · rw [Stream.put_append, hw]
    exact hw'
  · rw [String.append_assoc, hl, hl', List.append_assoc]

inductive Added (p : Pipe P σ) (text : String) : Outcome × Pipe P σ → Prop
  | taken {p'} (feed : p'.feed = p.feed) (takes : p.Takes text p') : Added p text (.ok (), p')
  | broken {p' d} (feed : p'.feed = p.feed) (breaks : p.Breaks text d p') :
    Added p text (.error d, p')

theorem added_piece {p : Pipe P σ} {piece : String} (hp : '\n' ∉ p.partialLine.toList)
    (h : Text.IsPiece piece) : p.Added piece (p.addPiece piece) := by
  obtain ⟨part, hpart, rfl | rfl⟩ := h
  · have hl : piece.toList.getLast? ≠ some '\n' := fun hl => hpart (List.mem_of_getLast? hl)
    rw [addPiece, if_neg hl]
    refine .taken rfl ⟨rfl, by simpa using ⟨hp, hpart⟩, [], rfl, fun rest => ?_⟩
    rw [List.nil_append, String.append_assoc]
  · have hl : (part ++ "\n").toList.getLast? = some '\n' := by simp
    have hline : '\n' ∉ (p.partialLine ++ part).toList := by simpa using ⟨hp, hpart⟩
    have cut (rest : String) : Text.lines (p.partialLine ++ (part ++ "\n" ++ rest)) =
        (p.partialLine ++ (part ++ "\n")) :: Text.lines rest := by
      rw [← String.append_assoc, ← String.append_assoc, Text.lines_append hline,
        String.append_assoc]
    rw [addPiece, if_pos hl]
    rcases hw : Stream.writePiece (p.partialLine ++ (part ++ "\n")) p.stream with
      ⟨d | u, stream, events⟩
    · refine .broken rfl fun rest => ?_
      rw [Pipe.put, cut, Stream.put_cons_of_error (by rw [hw]), Stream.afterPiece, hw]
    · refine .taken rfl ⟨rfl, List.not_mem_nil, [p.partialLine ++ (part ++ "\n")], ?_, ?_⟩
      · rw [Stream.put_cons_of_ok (by rw [hw]), Stream.afterPiece, hw, Stream.put_nil]
      · intro rest
        rw [cut, String.empty_append, List.singleton_append]

theorem added_pieces {p : Pipe P σ} {pieces : List String} (hp : '\n' ∉ p.partialLine.toList)
    (h : ∀ piece ∈ pieces, Text.IsPiece piece) :
    p.Added (String.join pieces) (addPieces pieces p) := by
  induction pieces generalizing p with
  | nil => exact .taken rfl (.refl hp rfl rfl rfl)
  | cons piece rest ih =>
    obtain ⟨hpiece, hrest⟩ := List.forall_mem_cons.1 h
    have first := added_piece hp hpiece
    rw [addPieces, String.join_cons]
    generalize p.addPiece piece = added at first ⊢
    cases first with
    | broken feed breaks =>
      refine .broken feed fun more => ?_
      rw [String.append_assoc]
      exact breaks _
    | @taken p₁ feed takes =>
      have second := ih takes.partialLine hrest
      dsimp only
      generalize addPieces rest p₁ = added at second ⊢
      cases second with
      | taken feed' takes' => exact .taken (feed'.trans feed) (takes.trans takes')
      | broken feed' breaks =>
        refine .broken (feed'.trans feed) fun more => ?_
        rw [String.append_assoc, ← takes.put]
        exact breaks more

/-- Writing the line that has begun is all there is to write when no text comes after it. -/
theorem finishLine_put {p : Pipe P σ} (hp : '\n' ∉ p.partialLine.toList) :
    ((p.finishLine).1, (p.finishLine).2.stream) = p.put "" ∧ (p.finishLine).2.feed = p.feed := by
  rw [finishLine, Pipe.put, String.append_empty]
  by_cases he : p.partialLine = ""
  · rw [if_pos he, he]
    exact ⟨rfl, rfl⟩
  · rw [if_neg he, Text.lines_of_notMem hp he]
    refine ⟨?_, rfl⟩
    cases hw : (Stream.writePiece p.partialLine p.stream).1 with
    | ok u =>
      rw [Stream.put_cons_of_ok hw, Stream.put_nil]
      rfl
    | error d =>
      rw [Stream.put_cons_of_error hw]
      rfl

/-! ## Turns of a pipe that has not ended -/

section

variable {feed : Feed P} {p : Pipe P σ}

theorem turn_ended (hr : p.result = none) (hp : '\n' ∉ p.partialLine.toList)
    (h : feed.pull p.feed = none) :
    (p.turn feed).feed = p.feed ∧ (p.turn feed).stream = (p.put "").2 ∧
      (p.turn feed).result = some (ending (p.put "").1 (.ok ())) := by
  obtain ⟨hw, hf⟩ :=
    finishLine_put (p := { p with log := p.log ++ feed.notices p.feed }) hp
  have put : p.put "" = _ := hw.symm
  rw [turn, if_neg (by simp [hr])]
  simp only [h, put, true_and]
  refine ⟨hf, congrArg some ?_⟩
  cases (finishLine { p with log := p.log ++ feed.notices p.feed }).1 <;> rfl

theorem turn_failed {e : EffectError} {rest : P} (hr : p.result = none)
    (hp : '\n' ∉ p.partialLine.toList) (h : feed.pull p.feed = some (some (.error e), rest)) :
    (p.turn feed).feed = rest ∧ (p.turn feed).stream = (p.put "").2 ∧
      (p.turn feed).result = some (ending (p.put "").1 (.error e)) := by
  obtain ⟨hw, hf⟩ :=
    finishLine_put (p := { p with log := p.log ++ feed.notices p.feed, feed := rest }) hp
  have put : p.put "" = _ := hw.symm
  rw [turn, if_neg (by simp [hr])]
  simp only [h, put, true_and]
  refine ⟨hf, congrArg some ?_⟩
  cases (finishLine { p with log := p.log ++ feed.notices p.feed, feed := rest }).1 <;> rfl

theorem turn_quiet {rest : P} (hr : p.result = none) (hp : '\n' ∉ p.partialLine.toList)
    (h : feed.pull p.feed = some (none, rest)) :
    (p.turn feed).feed = rest ∧ p.Takes "" (p.turn feed) := by
  rw [turn, if_neg (by simp [hr])]
  simp only [h, true_and]
  exact .refl hp rfl rfl rfl

theorem turn_chunk {chunk : String} {rest : P} (hr : p.result = none)
    (hp : '\n' ∉ p.partialLine.toList) (h : feed.pull p.feed = some (some (.ok chunk), rest)) :
    (p.turn feed).feed = rest ∧ (p.Takes chunk (p.turn feed) ∨
      ∃ d, (p.turn feed).result = some (.error (.device d)) ∧ p.Breaks chunk d (p.turn feed)) := by
  have added := added_pieces
    (p := { p with log := p.log ++ feed.notices p.feed, feed := rest }) hp
    fun piece (hm : piece ∈ Text.lines chunk) => Text.isPiece_of_mem_lines hm
  rw [Text.join_lines] at added
  rw [turn, if_neg (by simp [hr])]
  simp only [h]
  generalize addPieces (Text.lines chunk)
    { p with log := p.log ++ feed.notices p.feed, feed := rest } = result at added ⊢
  cases added with
  | taken feed takes => exact ⟨feed, .inl ⟨takes.result, takes.partialLine, takes.lines⟩⟩
  | broken feed breaks => exact ⟨feed, .inr ⟨_, rfl, breaks⟩⟩

end

theorem run_of_result (feed : Feed P) (turns : Nat) {p : Pipe P σ} (h : p.result.isSome) :
    p.run feed turns = p := by
  induction turns with
  | zero => rfl
  | succ turns ih => rw [run, turn, if_pos h, ih]

/-- A pipe writes the lines of all chunks in one piece. It ends as its feed does, unless a
drain fails before that. -/
theorem run_of_gives_put {feed : Feed P} {n : Nat} {s : P}
    {items : List (Except EffectError String)} (h : feed.Gives n s items) {p : Pipe P σ}
    (hs : p.feed = s) (hr : p.result = none) (hp : '\n' ∉ p.partialLine.toList) {turns : Nat}
    (ht : n < turns) :
    (p.run feed turns).stream = (p.put (Feed.emitted items)).2 ∧
      (p.run feed turns).result =
        some (ending (p.put (Feed.emitted items)).1 (Feed.verdict items)) := by
  induction h generalizing p turns with
  | ended h =>
    obtain ⟨turns, rfl⟩ := Nat.exists_eq_add_one_of_ne_zero (by omega : turns ≠ 0)
    subst hs
    obtain ⟨-, stream, result⟩ := turn_ended hr hp h
    rw [run, run_of_result feed turns (by rw [result]; rfl)]
    exact ⟨stream, result⟩
  | failed h =>
    obtain ⟨turns, rfl⟩ := Nat.exists_eq_add_one_of_ne_zero (by omega : turns ≠ 0)
    subst hs
    obtain ⟨-, stream, result⟩ := turn_failed hr hp h
    rw [run, run_of_result feed turns (by rw [result]; rfl)]
    exact ⟨stream, result⟩
  | quiet h _ ih =>
    obtain ⟨turns, rfl⟩ := Nat.exists_eq_add_one_of_ne_zero (by omega : turns ≠ 0)
    subst hs
    obtain ⟨hf, takes⟩ := turn_quiet hr hp h
    have := ih hf (takes.result.trans hr) takes.partialLine (by omega : _ < turns)
    rwa [takes.put, String.empty_append] at this
  | chunk h _ ih =>
    obtain ⟨turns, rfl⟩ := Nat.exists_eq_add_one_of_ne_zero (by omega : turns ≠ 0)
    subst hs
    rw [Feed.emitted_ok]
    obtain ⟨hf, takes | ⟨d, result, breaks⟩⟩ := turn_chunk hr hp h
    · have := ih hf (takes.result.trans hr) takes.partialLine (by omega : _ < turns)
      rwa [takes.put] at this
    · rw [run, run_of_result feed turns (by rw [result]; rfl), breaks]
      exact ⟨rfl, result⟩

/-! ## Streams that never fail -/

/-- A pipe whose stream never fails and whose last line has not ended. -/
structure Ready (p : Pipe P σ) : Prop where
  stream : Stream.NeverFails p.stream
  partialLine : '\n' ∉ p.partialLine.toList

def due (p : Pipe P σ) (text : String) : σ :=
  (Text.lines (p.partialLine ++ text)).foldl Stream.afterPiece p.stream

/-- Over a stream that never fails, a pipe ends as its feed does, after the writes of the
lines of all chunks in one piece. -/
theorem run_of_gives {feed : Feed P} {n : Nat} {s : P}
    {items : List (Except EffectError String)} (h : feed.Gives n s items) {p : Pipe P σ}
    (hs : p.feed = s) (hr : p.result = none) (hp : p.Ready) {turns : Nat} (ht : n < turns) :
    (p.run feed turns).result = some (Feed.verdict items) ∧
      (p.run feed turns).stream = p.due (Feed.emitted items) := by
  obtain ⟨stream, result⟩ := run_of_gives_put h hs hr hp.partialLine ht
  have put : p.put (Feed.emitted items) = (.ok (), p.due (Feed.emitted items)) :=
    hp.stream.drainsSucceed.put _
  rw [put] at stream result
  exact ⟨result, stream⟩

end Pipe

end StyledEffects
