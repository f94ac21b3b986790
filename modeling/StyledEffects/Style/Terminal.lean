import StyledEffects.Style.Sgr

/-! What a terminal shows. It reads characters one by one; a complete sequence that sets the
graphic rendition changes the way in which the characters after it are shown. -/

namespace StyledEffects.Style

inductive Ink where
  | color (c : Color)
  | palette (n : Nat)
  deriving DecidableEq, Repr

/-- The way in which characters are shown. Without an ink it is the terminal's own. -/
structure Rendition where
  bold : Bool
  dim : Bool
  italic : Bool
  underline : Bool
  overline : Bool
  inverse : Bool
  hidden : Bool
  strikethrough : Bool
  foreground : Option Ink
  background : Option Ink
  deriving DecidableEq, Repr

namespace Rendition

def default : Rendition :=
  ⟨false, false, false, false, false, false, false, false, none, none⟩

def ink (bright : Bool) (n : Nat) : Option Ink :=
  (Hue.all.find? (·.index = n)).map fun hue => .color ⟨hue, bright⟩

/-- Obeys the parameters of one sequence, of which those that mean nothing are passed over. -/
def obey : List Nat → Rendition → Rendition
  | [], r => r
  | 38 :: 5 :: n :: rest, r => obey rest { r with foreground := some (.palette n) }
  | 48 :: 5 :: n :: rest, r => obey rest { r with background := some (.palette n) }
  | n :: rest, r => obey rest (
    match n with
    | 0 => default
    | 1 => { r with bold := true }
    | 2 => { r with dim := true }
    | 3 => { r with italic := true }
    | 4 => { r with underline := true }
    | 7 => { r with inverse := true }
    | 8 => { r with hidden := true }
    | 9 => { r with strikethrough := true }
    | 22 => { r with bold := false, dim := false }
    | 23 => { r with italic := false }
    | 24 => { r with underline := false }
    | 27 => { r with inverse := false }
    | 28 => { r with hidden := false }
    | 29 => { r with strikethrough := false }
    | 39 => { r with foreground := none }
    | 49 => { r with background := none }
    | 53 => { r with overline := true }
    | 55 => { r with overline := false }
    | n =>
      if 30 ≤ n ∧ n ≤ 37 then { r with foreground := ink false (n - 30) }
      else if 40 ≤ n ∧ n ≤ 47 then { r with background := ink false (n - 40) }
      else if 90 ≤ n ∧ n ≤ 97 then { r with foreground := ink true (n - 90) }
      else if 100 ≤ n ∧ n ≤ 107 then { r with background := ink true (n - 100) }
      else r)

end Rendition

inductive Progress where
  | text
  | escape
  /-- Among the parameters: the complete ones, the last first, and the one being read. -/
  | parameters (complete : List Nat) (current : Nat)
  deriving DecidableEq, Repr

structure Terminal where
  rendition : Rendition
  progress : Progress
  /-- What has been shown and how, the last character first. -/
  shown : List (Char × Rendition)
  deriving DecidableEq, Repr

namespace Terminal

def start : Terminal := ⟨.default, .text, []⟩

def feed (c : Char) (t : Terminal) : Terminal :=
  match t.progress with
  | .text =>
    if c = esc then { t with progress := .escape }
    else { t with shown := (c, t.rendition) :: t.shown }
  | .escape => { t with progress := if c = '[' then .parameters [] 0 else .text }
  | .parameters complete current =>
    if c.isDigit then
      { t with progress := .parameters complete (current * 10 + (c.toNat - 48)) }
    else if c = ';' then { t with progress := .parameters (current :: complete) 0 }
    else if c = 'm' then
      { t with
        progress := .text
        rendition := t.rendition.obey (current :: complete).reverse }
    else { t with progress := .text }

def feedAll (text : String) (t : Terminal) : Terminal :=
  text.toList.foldl (fun t c => t.feed c) t

theorem feedAll_append (a b : String) (t : Terminal) :
    t.feedAll (a ++ b) = (t.feedAll a).feedAll b := by
  simp [feedAll]

end Terminal

end StyledEffects.Style
