import StyledEffects.Json.Fault
import StyledEffects.Json.Value
import StyledEffects.Text.Hex

/-! Reading a JSON text of one line. Each part of the reader takes the characters that are
left and returns what it read with the rest. A failing part says how many bytes were left,
which gives the column. -/

namespace StyledEffects.Json.Reader

/-- A fault found with `left` bytes to go. If `ahead`, it is the next byte's. -/
structure Stop where
  fault : Fault
  left : Nat
  ahead : Bool
  deriving DecidableEq, Repr

def bytes (s : List Char) : Nat := s.foldl (fun n c => n + c.utf8Size) 0

def stopBefore {α : Type} (fault : Fault) (rest : List Char) : Except Stop (α × List Char) :=
  .error ⟨fault, bytes rest, true⟩

def stopAfter {α : Type} (fault : Fault) (rest : List Char) : Except Stop (α × List Char) :=
  .error ⟨fault, bytes rest, false⟩

def stopOn {α : Type} (fault : Fault) (rest : List Char) : Except Stop (α × List Char) :=
  .error ⟨fault, bytes rest - 1, false⟩

def isSpace (c : Char) : Bool := c = ' ' || c = '\t' || c = '\n' || c = '\r'

def skip (s : List Char) : List Char := s.dropWhile isSpace

def literal (value : Value) : List Char → List Char → Except Stop (Value × List Char)
  | [], s => .ok (value, s)
  | _ :: _, [] => stopAfter .endInValue []
  | e :: es, c :: s => if c = e then literal value es s else stopOn .badLiteral (c :: s)

/-- Appends decimal digits to `n` as long as it stays within 64 bits, and counts them. -/
def digits (n count : Nat) : List Char → Nat × Nat × List Char
  | [] => (n, count, [])
  | c :: s =>
    let longer := n * 10 + (c.toNat - 48)
    if c.isDigit && longer < Nat.pow 2 64 then digits longer (count + 1) s else (n, count, c :: s)

def countDigits (count : Nat) : List Char → Nat × List Char
  | [] => (count, [])
  | c :: s => if c.isDigit then countDigits (count + 1) s else (count, c :: s)

def float (negative : Bool) (mantissa : Nat) (power : Int) (s : List Char) :
    Except Stop (Value × List Char) :=
  match Decimal.Binary64.ofDecimal? negative mantissa power with
  | some x => .ok (.number (.float x), s)
  | none => stopAfter .numberTooLarge s

/-- The digits of an exponent. One of `2 ^ 31` or more makes a number too large or, if it is
negative or the mantissa is zero, zero; then there is no exponent in the answer. -/
def exponentDigits (large : Bool) (n : Nat) : List Char → Except Stop (Option Nat × List Char)
  | [] => .ok (some n, [])
  | c :: s =>
    if c.isDigit then
      let n := n * 10 + (c.toNat - 48)
      if n < Nat.pow 2 31 then exponentDigits large n s
      else if large then stopAfter .numberTooLarge s
      else .ok (none, s.dropWhile Char.isDigit)
    else .ok (some n, c :: s)

def exponent (negative : Bool) (mantissa : Nat) (power : Int) (s : List Char) :
    Except Stop (Value × List Char) :=
  let (down, s) := match s with
    | '+' :: s => (false, s)
    | '-' :: s => (true, s)
    | s => (false, s)
  match s with
  | [] => stopAfter .endInValue []
  | c :: _ =>
    if c.isDigit then
      match exponentDigits (!down && mantissa != 0) 0 s with
      | .error stop => .error stop
      | .ok (none, s) => .ok (.number (.float (.zero negative)), s)
      | .ok (some n, s) => float negative mantissa (power + if down then -(n : Int) else n) s
    else stopOn .badNumber s

def whole (negative : Bool) (n : Nat) (s : List Char) : Except Stop (Value × List Char) :=
  if negative ∧ n = 0 then float true 0 0 s
  else match Number.ofInt? (if negative then -n else n) with
    | some number => .ok (.number number, s)
    | none => float negative n 0 s

/-- What follows the first digits of a number, the last `more` of which are not in `n`. Of the
digits of a fraction as many count as fit after those in `n`. -/
def fraction (negative : Bool) (n more : Nat) : List Char → Except Stop (Value × List Char)
  | '.' :: s =>
    match s with
    | [] => stopBefore .endInValue []
    | c :: _ =>
      if c.isDigit then
        let (m, count, s) := digits n 0 s
        match (countDigits 0 s).2 with
        | 'e' :: s | 'E' :: s => exponent negative m (more - count) s
        | s => float negative m (more - count) s
      else stopBefore .badNumber s
  | 'e' :: s | 'E' :: s => exponent negative n more s
  | s => if more = 0 then whole negative n s else float negative n more s

def number (negative : Bool) : List Char → Except Stop (Value × List Char)
  | [] => stopAfter .endInValue []
  | '0' :: s =>
    match s with
    | c :: _ => if c.isDigit then stopBefore .badNumber s else fraction negative 0 0 s
    | [] => fraction negative 0 0 []
  | c :: s =>
    if c.isDigit then
      let (n, _, rest) := digits 0 0 (c :: s)
      let (more, rest) := countDigits 0 rest
      fraction negative n more rest
    else stopOn .badNumber (c :: s)

/-- The four hexadecimal digits of an escape; four bytes are taken in any case. -/
def hexFour (s : List Char) : Except Stop (Nat × List Char) :=
  match s with
  | a :: b :: c :: d :: rest =>
    match Text.hexValue? a, Text.hexValue? b, Text.hexValue? c, Text.hexValue? d with
    | some a, some b, some c, some d => .ok (((a * 16 + b) * 16 + c) * 16 + d, rest)
    | _, _, _, _ =>
      if bytes s < 4 then stopAfter .endInString []
      else .error ⟨.badEscape, bytes s - 4, false⟩
  | _ =>
    if bytes s < 4 then stopAfter .endInString []
    else .error ⟨.badEscape, bytes s - 4, false⟩

def lowSurrogate (high : Nat) : List Char → Except Stop (Char × List Char)
  | [] => stopAfter .endInString []
  | '\\' :: s =>
    match s with
    | [] => stopAfter .endInString []
    | 'u' :: s => do
      let (low, s) ← hexFour s
      if 0xDC00 ≤ low ∧ low ≤ 0xDFFF then
        .ok (Char.ofNat (0x10000 + (high - 0xD800) * 0x400 + (low - 0xDC00)), s)
      else stopAfter .loneSurrogate s
    | s => stopOn .unfinishedSurrogate s
  | s => stopOn .unfinishedSurrogate s

def escape : List Char → Except Stop (Char × List Char)
  | [] => stopAfter .endInString []
  | '"' :: s => .ok ('"', s)
  | '\\' :: s => .ok ('\\', s)
  | '/' :: s => .ok ('/', s)
  | 'b' :: s => .ok ('\x08', s)
  | 'f' :: s => .ok ('\x0c', s)
  | 'n' :: s => .ok ('\n', s)
  | 'r' :: s => .ok ('\r', s)
  | 't' :: s => .ok ('\t', s)
  | 'u' :: s => do
    let (n, s) ← hexFour s
    if 0xD800 ≤ n ∧ n ≤ 0xDBFF then lowSurrogate n s
    else if 0xDC00 ≤ n ∧ n ≤ 0xDFFF then stopAfter .loneSurrogate s
    else .ok (Char.ofNat n, s)
  | s => stopOn .badEscape s

/-- A string after its opening quote. `read` holds its characters so far, the last first;
each round takes one character at least, so as many rounds as characters are enough. -/
def string (read : List Char) : Nat → List Char → Except Stop (String × List Char)
  | _, [] | 0, _ => stopAfter .endInString []
  | _ + 1, '"' :: s => .ok (String.ofList read.reverse, s)
  | fuel + 1, '\\' :: s => do
    let (c, s) ← escape s
    string (c :: read) fuel s
  | fuel + 1, c :: s =>
    if c.toNat < 0x20 then stopAfter .controlCharacter s else string (c :: read) fuel s

def colon (s : List Char) : Except Stop (List Char) :=
  match skip s with
  | [] => .error ⟨.endInObject, 0, true⟩
  | ':' :: s => .ok s
  | s => .error ⟨.noColon, bytes s, true⟩

mutual

/-- A value with at most `depth` arrays and objects around one another. -/
def value (fuel depth : Nat) (s : List Char) : Except Stop (Value × List Char) :=
  match fuel with
  | 0 => stopBefore .noValue s
  | fuel + 1 => match skip s with
    | [] => stopBefore .endInValue []
    | 'n' :: s => literal .null ['u', 'l', 'l'] s
    | 't' :: s => literal (.bool true) ['r', 'u', 'e'] s
    | 'f' :: s => literal (.bool false) ['a', 'l', 's', 'e'] s
    | '-' :: s => number true s
    | '"' :: s => (string [] fuel s).map fun (text, s) => (.string text, s)
    | '[' :: s => match depth with
      | 0 => stopBefore .tooDeep ('[' :: s)
      | depth + 1 => items fuel depth true [] s
    | '\x7b' :: s => match depth with
      | 0 => stopBefore .tooDeep ('\x7b' :: s)
      | depth + 1 => fields fuel depth true [] s
    | c :: s => if c.isDigit then number false (c :: s) else stopBefore .noValue (c :: s)

def items (fuel depth : Nat) (first : Bool) (read : List Value) (s : List Char) :
    Except Stop (Value × List Char) :=
  match fuel with
  | 0 => stopBefore .noValue s
  | fuel + 1 => match first, skip s with
    | _, [] => stopBefore .endInList []
    | _, ']' :: s => .ok (.array read.reverse, s)
    | true, s => do
      let (v, s) ← value fuel depth s
      items fuel depth false (v :: read) s
    | false, ',' :: s => match skip s with
      | [] => stopBefore .endInValue []
      | ']' :: s => stopBefore .trailingComma (']' :: s)
      | s => do
        let (v, s) ← value fuel depth s
        items fuel depth false (v :: read) s
    | false, s => stopBefore .noListEnd s

def fields (fuel depth : Nat) (first : Bool) (read : Fields) (s : List Char) :
    Except Stop (Value × List Char) :=
  match fuel with
  | 0 => stopBefore .noValue s
  | fuel + 1 => match first, skip s with
    | _, [] => stopBefore .endInObject []
    | _, '\x7d' :: s => .ok (.object read, s)
    | true, '"' :: s => field fuel depth read s
    | true, s => stopBefore .keyNotString s
    | false, ',' :: s => match skip s with
      | [] => stopBefore .endInValue []
      | '\x7d' :: s => stopBefore .trailingComma ('\x7d' :: s)
      | '"' :: s => field fuel depth read s
      | s => stopBefore .keyNotString s
    | false, s => stopBefore .noObjectEnd s

def field (fuel depth : Nat) (read : Fields) (s : List Char) : Except Stop (Value × List Char) :=
  match fuel with
  | 0 => stopBefore .noValue s
  | fuel + 1 => do
    let (key, s) ← string [] fuel s
    let s ← colon s
    let (v, s) ← value fuel depth s
    fields fuel depth false (read.insert key v) s

end

/-- A value and nothing after it but white space. No part of the reader is entered more
than four times for one character, so the fuel is never less than the characters left. -/
def document (depth : Nat) (s : List Char) : Except Stop Value := do
  let (v, s) ← value (4 * s.length + 4) depth s
  match skip s with
  | [] => .ok v
  | s => .error ⟨.trailingText, bytes s, true⟩

end Reader

def readWithin (depth : Nat) (text : String) : Except ReadError Value :=
  (Reader.document depth text.toList).mapError fun stop =>
    let total := Reader.bytes text.toList
    ⟨stop.fault, if stop.ahead then min total (total - stop.left + 1) else total - stop.left⟩

/-- Reads a text with at most 127 arrays and objects around one another. -/
def read (text : String) : Except ReadError Value := readWithin 127 text

end StyledEffects.Json
