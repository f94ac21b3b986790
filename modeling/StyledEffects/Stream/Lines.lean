import StyledEffects.Log.Event
import StyledEffects.Stream.Basic
import StyledEffects.Text.Lines
import StyledEffects.Text.Utf8

/-! Writing text to a stream line by line. Whenever the stream asks for it, it is drained
before the next line. -/

namespace StyledEffects

namespace Stream

variable {σ : Type} [OutputStream σ]

def writePiece (text : String) (stream : σ) : Outcome × σ × List Log.Event :=
  let (more, stream) := OutputStream.write text stream
  if more then (.ok (), stream, [])
  else
    let (result, stream) := OutputStream.drain stream
    (result, stream, [.draining (Text.utf8 text).length])

def writePieces : List String → σ → Outcome × σ × List Log.Event
  | [], stream => (.ok (), stream, [])
  | text :: rest, stream =>
    match writePiece text stream with
    | (.error e, stream, events) => (.error e, stream, events)
    | (.ok (), stream, events) =>
      let (result, stream, later) := writePieces rest stream
      (result, stream, events ++ later)

/-- Writes a text, each line with a write of its own. Stops at the first drain that fails. -/
def writeLines (text : String) (stream : σ) : Outcome × σ × List Log.Event :=
  writePieces (Text.lines text) stream

end Stream

end StyledEffects
