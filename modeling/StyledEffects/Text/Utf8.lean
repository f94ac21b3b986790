/-! Text as bytes in UTF-8, and bytes read back as text. Reading stops at the first byte
sequence that is not a well-formed scalar value and says where it starts. -/

namespace StyledEffects.Text

def utf8 (text : String) : List UInt8 := text.toList.flatMap String.utf8EncodeChar

@[simp] theorem utf8_empty : utf8 "" = [] := rfl

@[simp] theorem utf8_append (a b : String) : utf8 (a ++ b) = utf8 a ++ utf8 b := by
  simp [utf8]

inductive Utf8Fault where
  /-- The `length` bytes from `index` on start no scalar value. -/
  | invalid (length index : Nat)
  /-- The bytes end inside the scalar value that starts at `index`. -/
  | incomplete (index : Nat)
  deriving DecidableEq, Repr

def Utf8Fault.message : Utf8Fault → String
  | .invalid length index =>
    "invalid utf-8 sequence of " ++ toString length ++ " bytes from index " ++ toString index
  | .incomplete index => "incomplete utf-8 byte sequence from index " ++ toString index

/-- The range that the second byte of a longer sequence is in, and the number of bytes after
that one. Overlong forms, surrogates and values above U+10FFFF are left out here. -/
def secondByte (lead : UInt8) : Option (UInt8 × UInt8 × Nat) :=
  if 0xC2 ≤ lead ∧ lead ≤ 0xDF then some (0x80, 0xBF, 0)
  else if lead = 0xE0 then some (0xA0, 0xBF, 1)
  else if lead = 0xED then some (0x80, 0x9F, 1)
  else if 0xE1 ≤ lead ∧ lead ≤ 0xEF then some (0x80, 0xBF, 1)
  else if lead = 0xF0 then some (0x90, 0xBF, 2)
  else if 0xF1 ≤ lead ∧ lead ≤ 0xF3 then some (0x80, 0xBF, 2)
  else if lead = 0xF4 then some (0x80, 0x8F, 2)
  else none

def isContinuation (b : UInt8) : Bool := 0x80 ≤ b && b ≤ 0xBF

/-- The scalar value with these bytes, the lead byte's marker bits taken off. -/
def scalar (lead : UInt8) (more : List UInt8) : Char :=
  let high := match more.length with
    | 1 => lead.toNat % 0x20
    | 2 => lead.toNat % 0x10
    | _ => lead.toNat % 0x08
  Char.ofNat (more.foldl (fun n b => n * 0x40 + b.toNat % 0x40) high)

def readUtf8From (index : Nat) : List UInt8 → Except Utf8Fault (List Char)
  | [] => .ok []
  | lead :: rest =>
    if lead < 0x80 then
      (readUtf8From (index + 1) rest).map (Char.ofNat lead.toNat :: ·)
    else match secondByte lead with
      | none => .error (.invalid 1 index)
      | some (low, high, after) => match rest with
        | [] => .error (.incomplete index)
        | b :: rest =>
          if ¬ (low ≤ b ∧ b ≤ high) then .error (.invalid 1 index)
          else match after, rest with
            | 0, rest => (readUtf8From (index + 2) rest).map (scalar lead [b] :: ·)
            | _, [] => .error (.incomplete index)
            | 1, c :: rest =>
              if ¬ isContinuation c then .error (.invalid 2 index)
              else (readUtf8From (index + 3) rest).map (scalar lead [b, c] :: ·)
            | _, c :: rest =>
              if ¬ isContinuation c then .error (.invalid 2 index)
              else match rest with
                | [] => .error (.incomplete index)
                | d :: rest =>
                  if ¬ isContinuation d then .error (.invalid 3 index)
                  else (readUtf8From (index + 4) rest).map (scalar lead [b, c, d] :: ·)

def readUtf8 (bytes : List UInt8) : Except Utf8Fault String :=
  (readUtf8From 0 bytes).map String.ofList

end StyledEffects.Text
