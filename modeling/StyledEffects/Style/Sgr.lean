/-! The escape sequences that set the graphic rendition of a terminal. -/

namespace StyledEffects.Style

/-- The escape character. It starts every control sequence and may not be in plain text. -/
def esc : Char := '\x1b'

/-- The eight colours that come in a normal and a bright form. -/
inductive Hue where
  | black | red | green | yellow | blue | magenta | cyan | white
  deriving DecidableEq, Repr

def Hue.index : Hue → Nat
  | black => 0
  | red => 1
  | green => 2
  | yellow => 3
  | blue => 4
  | magenta => 5
  | cyan => 6
  | white => 7

def Hue.all : List Hue := [black, red, green, yellow, blue, magenta, cyan, white]

def Hue.name : Hue → String
  | black => "Black"
  | red => "Red"
  | green => "Green"
  | yellow => "Yellow"
  | blue => "Blue"
  | magenta => "Magenta"
  | cyan => "Cyan"
  | white => "White"

structure Color where
  hue : Hue
  bright : Bool
  deriving DecidableEq, Repr

namespace Color

def all : List Color := Hue.all.map (⟨·, false⟩) ++ Hue.all.map (⟨·, true⟩)

def name (c : Color) : String := (if c.bright then "Bright" else "") ++ c.hue.name

def ofName? (s : String) : Option Color := all.find? (·.name = s)

end Color

inductive Sgr where
  | reset
  | bold | dim | italic | underline | overline | invert | hidden | strikethrough
  /-- Ends both bold and dim. -/
  | normalIntensity
  | notItalic | notUnderline | notOverline | notInvert | notHidden | notStrikethrough
  | foreground (c : Color)
  | foregroundIndex (n : UInt8)
  | foregroundDefault
  | background (c : Color)
  | backgroundIndex (n : UInt8)
  | backgroundDefault
  deriving DecidableEq, Repr

namespace Sgr

/-- The numbers between the bracket and the final letter. -/
def parameters : Sgr → List Nat
  | reset => [0]
  | bold => [1]
  | dim => [2]
  | italic => [3]
  | underline => [4]
  | invert => [7]
  | hidden => [8]
  | strikethrough => [9]
  | normalIntensity => [22]
  | notItalic => [23]
  | notUnderline => [24]
  | notInvert => [27]
  | notHidden => [28]
  | notStrikethrough => [29]
  | foreground c => [(if c.bright then 90 else 30) + c.hue.index]
  | foregroundIndex n => [38, 5, n.toNat]
  | foregroundDefault => [39]
  | background c => [(if c.bright then 100 else 40) + c.hue.index]
  | backgroundIndex n => [48, 5, n.toNat]
  | backgroundDefault => [49]
  | overline => [53]
  | notOverline => [55]

def text (s : Sgr) : String :=
  "\x1b[" ++ String.intercalate ";" (s.parameters.map toString) ++ "m"

/-- The settings that take no colour, with their names. -/
def named : List (String × Sgr) :=
  [("Reset", reset), ("Bold", bold), ("Dim", dim), ("Italic", italic), ("Underline", underline),
   ("Overline", overline), ("Invert", invert), ("Hidden", hidden),
   ("Strikethrough", strikethrough), ("NormalIntensity", normalIntensity),
   ("NotItalic", notItalic), ("NotUnderline", notUnderline), ("NotOverline", notOverline),
   ("NotInvert", notInvert), ("NotHidden", notHidden), ("NotStrikethrough", notStrikethrough),
   ("ForegroundDefault", foregroundDefault), ("BackgroundDefault", backgroundDefault)]

def name : Sgr → String
  | foreground c => "Foreground(" ++ c.name ++ ")"
  | background c => "Background(" ++ c.name ++ ")"
  | foregroundIndex n => "ForegroundAnsi256(" ++ toString n ++ ")"
  | backgroundIndex n => "BackgroundAnsi256(" ++ toString n ++ ")"
  | s => ((named.find? (·.2 = s)).map Prod.fst).getD ""

def ofName? (name : String) (color : Option Color) (index : Option UInt8) : Option Sgr :=
  match name with
  | "Foreground" => color.map foreground
  | "Background" => color.map background
  | "ForegroundAnsi256" => index.map foregroundIndex
  | "BackgroundAnsi256" => index.map backgroundIndex
  | _ => (named.find? (·.1 = name)).map Prod.snd

end Sgr

end StyledEffects.Style
