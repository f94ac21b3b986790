import StyledEffects.Style.Sgr

/-! Plain text from terminal output: escape sequences and control characters other than the
line feed are left out. -/

namespace StyledEffects.Style

inductive Place where
  /-- In plain text. -/
  | ground
  /-- After an escape character. -/
  | escape
  /-- In an escape sequence of several characters, which one from `0` to `~` ends. -/
  | intermediate
  /-- In a control sequence, which a character from `@` to `~` ends. -/
  | control
  /-- In a command to the operating system, which a bell ends. -/
  | command
  /-- Before the final character of a string to the device. Once there have been
  parameters, a private mark is not allowed; after an intermediate character no parameter
  is either. -/
  | device (parameters intermediates : Bool)
  /-- In the data of a string to the device. -/
  | data
  /-- In another string to the terminal, which the next sequence ends. -/
  | string
  deriving DecidableEq, Repr

def isControl (c : Char) : Bool := c.toNat < 0x20 || (0x80 ≤ c.toNat && c.toNat ≤ 0x9F)

/-- What is shown for bytes that start no character: those from 80 to 9F are controls. -/
def strays (bytes : List UInt8) : List Char :=
  (bytes.filter (0x9F < ·)).map fun _ => '\uFFFD'

namespace Place

def nextInDevice (parameters intermediates : Bool) (c : Char) : Place :=
  if 0x40 ≤ c.toNat ∧ c.toNat < 0x7F then data
  else if 0x30 ≤ c.toNat ∧ c.toNat < 0x40 then
    if intermediates ∨ (parameters ∧ 0x3C ≤ c.toNat) then string else device true false
  else if 0x20 ≤ c.toNat ∧ c.toNat < 0x30 then device parameters true
  else device parameters intermediates

/-- The next place, and what the character shows. A new escape character starts over
everywhere, and cancel or substitute ends what there is. Data for the device also ends with
a byte 9C, even if that is in the midst of a character. -/
def next (place : Place) (c : Char) : Place × List Char :=
  let lineFeed := if c = '\n' then [c] else []
  if c = esc then (escape, [])
  else if c.toNat = 0x18 ∨ c.toNat = 0x1A then (ground, [])
  else match place with
    | ground => (ground, if isControl c then lineFeed else [c])
    | escape =>
      if c.toNat < 0x20 then (escape, lineFeed)
      else if c.toNat < 0x30 then (intermediate, [])
      else if c = '[' then (control, [])
      else if c = ']' then (command, [])
      else if c = 'P' then (device false false, [])
      else if c = 'X' ∨ c = '^' ∨ c = '_' then (string, [])
      else if c.toNat < 0x7F then (ground, [])
      else (escape, [])
    | intermediate =>
      if c.toNat < 0x20 then (intermediate, lineFeed)
      else if 0x30 ≤ c.toNat ∧ c.toNat < 0x7F then (ground, [])
      else (intermediate, [])
    | control =>
      if c.toNat < 0x20 then (control, lineFeed)
      else if 0x40 ≤ c.toNat ∧ c.toNat < 0x7F then (ground, [])
      else (control, [])
    | command => if c.toNat = 7 then (ground, []) else (command, [])
    | device parameters intermediates => (nextInDevice parameters intermediates c, [])
    | data =>
      match (String.utf8EncodeChar c).dropWhile (· ≠ 0x9C) with
      | [] => (data, [])
      | _ :: rest => (ground, strays rest)
    | string => (string, [])

end Place

def stripFrom (place : Place) : List Char → List Char
  | [] => []
  | c :: rest =>
    let (place, shown) := place.next c
    shown ++ stripFrom place rest

/-- What is left of a text without escape sequences and control characters. -/
def strip (text : String) : String := String.ofList (stripFrom .ground text.toList)

end StyledEffects.Style
