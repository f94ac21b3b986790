import StyledEffects.Stream.Lines

/-! Writing chunks of text to a stream. Lines may go across chunks; they are put together
again, and each is written with one write. What is left of a line at the end, or before an
error among the chunks, is written last. -/

namespace StyledEffects

structure Feed (P : Type) where
  /-- Takes one step; nothing at the end. A step need not bring a chunk. -/
  pull : P → Option (Option (Except EffectError String) × P)
  /-- What the next step logs. -/
  notices : P → List Log.Event

def Feed.ofList : Feed (List (Except EffectError String)) where
  pull
    | [] => none
    | chunk :: rest => some (some chunk, rest)
  notices _ := []

/-- A feed that is being written to a stream, whole lines at a time. -/
structure Pipe (P σ : Type) where
  feed : P
  stream : σ
  /-- The line that has begun but not ended. -/
  partialLine : String
  log : List Log.Event
  result : Option (Except EffectError Unit)

namespace Pipe

variable {P σ : Type} [OutputStream σ]

def new (feed : P) (stream : σ) : Pipe P σ := ⟨feed, stream, "", [], none⟩

def addPiece (p : Pipe P σ) (piece : String) : Outcome × Pipe P σ :=
  let line := p.partialLine ++ piece
  if piece.toList.getLast? = some '\n' then
    let (result, stream, events) := Stream.writePiece line p.stream
    (result, { p with
      stream, log := p.log ++ events
      partialLine := match result with | .ok () => "" | .error _ => line })
  else (.ok (), { p with partialLine := line })

def addPieces : List String → Pipe P σ → Outcome × Pipe P σ
  | [], p => (.ok (), p)
  | piece :: rest, p =>
    match p.addPiece piece with
    | (.error e, p) => (.error e, p)
    | (.ok (), p) => addPieces rest p

def finishLine (p : Pipe P σ) : Outcome × Pipe P σ :=
  if p.partialLine = "" then (.ok (), p)
  else
    let (result, stream, events) := Stream.writePiece p.partialLine p.stream
    (result, { p with stream, log := p.log ++ events, partialLine := "" })

/-- A step of the feed and the writes it leads to. An error in the feed ends the pipe once
the line that has begun is written; an error of the stream ends it at once. -/
def turn (feed : Feed P) (p : Pipe P σ) : Pipe P σ :=
  if p.result.isSome then p
  else
    let p := { p with log := p.log ++ feed.notices p.feed }
    match feed.pull p.feed with
    | none =>
      let (result, p) := p.finishLine
      { p with result := some (result.mapError .device) }
    | some (none, rest) => { p with feed := rest }
    | some (some (.error e), rest) =>
      let (result, p) := { p with feed := rest }.finishLine
      { p with result := some (match result with
        | .ok () => .error e
        | .error d => .error (.device d)) }
    | some (some (.ok chunk), rest) =>
      match addPieces (Text.lines chunk) { p with feed := rest } with
      | (.ok (), p) => p
      | (.error d, p) => { p with result := some (.error (.device d)) }

def run (feed : Feed P) : Nat → Pipe P σ → Pipe P σ
  | 0, p => p
  | turns + 1, p => run feed turns (p.turn feed)

def ofList (chunks : List (Except EffectError String)) (stream : σ) :
    Pipe (List (Except EffectError String)) σ :=
  run .ofList (chunks.length + 1) (new chunks stream)

end Pipe

end StyledEffects
