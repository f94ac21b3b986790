import StyledEffects.Style.Sgr

/-! The closed vocabulary of spans. A span is named on the wire by its name or, for the two
greys, by one of two other spellings. -/

namespace StyledEffects.Style

inductive Span where
  | reset | bold | dim | italic | underline | overline | inverse | hidden | strikethrough
  | black | red | green | yellow | blue | magenta | cyan | white
  | blackBright | redBright | greenBright | yellowBright | blueBright | magentaBright
  | cyanBright | whiteBright | orange
  | bgBlack | bgRed | bgGreen | bgYellow | bgBlue | bgMagenta | bgCyan | bgWhite
  | bgBlackBright | bgRedBright | bgGreenBright | bgYellowBright | bgBlueBright
  | bgMagentaBright | bgCyanBright | bgWhiteBright
  deriving DecidableEq, Repr

namespace Span

def all : List Span :=
  [reset, bold, dim, italic, underline, overline, inverse, hidden, strikethrough, black, red,
   green, yellow, blue, magenta, cyan, white, blackBright, redBright, greenBright, yellowBright,
   blueBright, magentaBright, cyanBright, whiteBright, orange, bgBlack, bgRed, bgGreen, bgYellow,
   bgBlue, bgMagenta, bgCyan, bgWhite, bgBlackBright, bgRedBright, bgGreenBright, bgYellowBright,
   bgBlueBright, bgMagentaBright, bgCyanBright, bgWhiteBright]

/-- The ways to write a span, its name first. -/
def spellings : Span → List String
  | reset => ["reset"]
  | bold => ["bold"]
  | dim => ["dim"]
  | italic => ["italic"]
  | underline => ["underline"]
  | overline => ["overline"]
  | inverse => ["inverse"]
  | hidden => ["hidden"]
  | strikethrough => ["strikethrough"]
  | black => ["black"]
  | red => ["red"]
  | green => ["green"]
  | yellow => ["yellow"]
  | blue => ["blue"]
  | magenta => ["magenta"]
  | cyan => ["cyan"]
  | white => ["white"]
  | blackBright => ["blackBright", "gray", "grey"]
  | redBright => ["redBright"]
  | greenBright => ["greenBright"]
  | yellowBright => ["yellowBright"]
  | blueBright => ["blueBright"]
  | magentaBright => ["magentaBright"]
  | cyanBright => ["cyanBright"]
  | whiteBright => ["whiteBright"]
  | orange => ["orange"]
  | bgBlack => ["bgBlack"]
  | bgRed => ["bgRed"]
  | bgGreen => ["bgGreen"]
  | bgYellow => ["bgYellow"]
  | bgBlue => ["bgBlue"]
  | bgMagenta => ["bgMagenta"]
  | bgCyan => ["bgCyan"]
  | bgWhite => ["bgWhite"]
  | bgBlackBright => ["bgBlackBright", "bgGray", "bgGrey"]
  | bgRedBright => ["bgRedBright"]
  | bgGreenBright => ["bgGreenBright"]
  | bgYellowBright => ["bgYellowBright"]
  | bgBlueBright => ["bgBlueBright"]
  | bgMagentaBright => ["bgMagentaBright"]
  | bgCyanBright => ["bgCyanBright"]
  | bgWhiteBright => ["bgWhiteBright"]

def name (s : Span) : String := s.spellings.headD ""

/-- The span that a name stands for; case counts. -/
def ofName? (name : String) : Option Span := all.find? (name ∈ ·.spellings)

/-- The setting that turns a span on and the one that turns it off. -/
def codes : Span → Sgr × Sgr
  | reset => (.reset, .reset)
  | bold => (.bold, .normalIntensity)
  | dim => (.dim, .normalIntensity)
  | italic => (.italic, .notItalic)
  | underline => (.underline, .notUnderline)
  | overline => (.overline, .notOverline)
  | inverse => (.invert, .notInvert)
  | hidden => (.hidden, .notHidden)
  | strikethrough => (.strikethrough, .notStrikethrough)
  | black => (.foreground ⟨.black, false⟩, .foregroundDefault)
  | red => (.foreground ⟨.red, false⟩, .foregroundDefault)
  | green => (.foreground ⟨.green, false⟩, .foregroundDefault)
  | yellow => (.foreground ⟨.yellow, false⟩, .foregroundDefault)
  | blue => (.foreground ⟨.blue, false⟩, .foregroundDefault)
  | magenta => (.foreground ⟨.magenta, false⟩, .foregroundDefault)
  | cyan => (.foreground ⟨.cyan, false⟩, .foregroundDefault)
  | white => (.foreground ⟨.white, false⟩, .foregroundDefault)
  | blackBright => (.foreground ⟨.black, true⟩, .foregroundDefault)
  | redBright => (.foreground ⟨.red, true⟩, .foregroundDefault)
  | greenBright => (.foreground ⟨.green, true⟩, .foregroundDefault)
  | yellowBright => (.foreground ⟨.yellow, true⟩, .foregroundDefault)
  | blueBright => (.foreground ⟨.blue, true⟩, .foregroundDefault)
  | magentaBright => (.foreground ⟨.magenta, true⟩, .foregroundDefault)
  | cyanBright => (.foreground ⟨.cyan, true⟩, .foregroundDefault)
  | whiteBright => (.foreground ⟨.white, true⟩, .foregroundDefault)
  | orange => (.foregroundIndex 208, .foregroundDefault)
  | bgBlack => (.background ⟨.black, false⟩, .backgroundDefault)
  | bgRed => (.background ⟨.red, false⟩, .backgroundDefault)
  | bgGreen => (.background ⟨.green, false⟩, .backgroundDefault)
  | bgYellow => (.background ⟨.yellow, false⟩, .backgroundDefault)
  | bgBlue => (.background ⟨.blue, false⟩, .backgroundDefault)
  | bgMagenta => (.background ⟨.magenta, false⟩, .backgroundDefault)
  | bgCyan => (.background ⟨.cyan, false⟩, .backgroundDefault)
  | bgWhite => (.background ⟨.white, false⟩, .backgroundDefault)
  | bgBlackBright => (.background ⟨.black, true⟩, .backgroundDefault)
  | bgRedBright => (.background ⟨.red, true⟩, .backgroundDefault)
  | bgGreenBright => (.background ⟨.green, true⟩, .backgroundDefault)
  | bgYellowBright => (.background ⟨.yellow, true⟩, .backgroundDefault)
  | bgBlueBright => (.background ⟨.blue, true⟩, .backgroundDefault)
  | bgMagentaBright => (.background ⟨.magenta, true⟩, .backgroundDefault)
  | bgCyanBright => (.background ⟨.cyan, true⟩, .backgroundDefault)
  | bgWhiteBright => (.background ⟨.white, true⟩, .backgroundDefault)

end Span

end StyledEffects.Style
