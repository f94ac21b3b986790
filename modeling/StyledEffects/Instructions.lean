import StyledEffects.Json.Reader
import StyledEffects.Source
import StyledEffects.Text.Blank
import StyledEffects.Text.Lines
import StyledEffects.Text.Utf8

/-! Instructions in a file: one JSON value on each line that is not blank. Lines are counted
from 1, blank ones included. The first line that is no text or no JSON ends the file. -/

namespace StyledEffects.Instructions

open Json

/-- The line without its end, which is a line feed and perhaps one carriage return before
it. A carriage return alone ends no line. -/
def chomp (line : List UInt8) : List UInt8 :=
  match line.reverse with
  | 10 :: 13 :: rest | 10 :: rest => rest.reverse
  | _ => line

def lineError (number : Nat) (message : String) : EffectError :=
  .source ("line " ++ toString number ++ ": " ++ message)

def utf8Error (fault : Text.Utf8Fault) : EffectError :=
  .device ⟨.invalidData, fault.message⟩

/-- The items of the lines from number `number` on, for a parser of JSON texts. -/
def ofLinesFrom (parse : String → Except String Value) (number : Nat) :
    List (List UInt8) → List Item
  | [] => []
  | bytes :: rest =>
    match Text.readUtf8 (chomp bytes) with
    | .error fault => [.error (utf8Error fault)]
    | .ok line =>
      if Text.allBlank line then ofLinesFrom parse (number + 1) rest
      else match parse line with
        | .error message => [.error (lineError number message)]
        | .ok v => .ok v :: ofLinesFrom parse (number + 1) rest

def ofBytesBy (parse : String → Except String Value) (bytes : List UInt8) : List Item :=
  ofLinesFrom parse 1 (Text.cutAfter 10 bytes)

def parse (text : String) : Except String Value := (Json.read text).mapError ReadError.message

def ofBytes (bytes : List UInt8) : List Item := ofBytesBy parse bytes

end StyledEffects.Instructions
