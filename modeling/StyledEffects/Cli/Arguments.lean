import StyledEffects.Log.Config
import StyledEffects.Stream.Buffered

/-! The arguments of the command. An option is given at most once; its value stands in the
next argument or, after an equals sign, in the same one. Short options may share a dash. -/

namespace StyledEffects.Cli

inductive ColorChoice where
  | auto
  | always
  | never
  deriving DecidableEq, Repr

def ColorChoice.ofName? : String → Option ColorChoice
  | "auto" => some auto
  | "always" => some always
  | "never" => some never
  | _ => none

def ColorChoice.label : ColorChoice → String
  | auto => "Auto"
  | always => "Always"
  | never => "Never"

structure Options where
  /-- The file with the instructions; without one they come from the standard input. -/
  input : Option String
  pure : Bool
  color : ColorChoice
  mark : Nat
  level : Option Log.Level
  logFile : Option String
  deriving DecidableEq, Repr

def Options.default : Options :=
  ⟨none, false, .auto, Buffered.defaultMark, none, none⟩

/-- An optional value as the log shows it. -/
def showOption (value : Option String) : String :=
  match value with
  | none => "None"
  | some value => "Some(" ++ value ++ ")"

def Options.label (o : Options) : String :=
  "CLIArg \x7b input: " ++ showOption (o.input.map Text.quotedPath) ++
    ", pure: " ++ toString o.pure ++
    ", color: " ++ o.color.label ++
    ", high_water_mark: " ++ toString o.mark ++
    ", log_level: " ++ showOption (o.level.map fun level => "Level(" ++ level.label ++ ")") ++
    ", log_file: " ++ showOption (o.logFile.map Text.quoted) ++ " \x7d"

inductive Name where
  | pure | color | mark | level | logFile
  deriving DecidableEq, Repr

def Name.long : Name → String
  | pure => "pure"
  | color => "color"
  | mark => "high-water-mark"
  | level => "log-level"
  | logFile => "log-file"

def Name.all : List Name := [pure, color, mark, level, logFile]

inductive Fault where
  | unknown (argument : String)
  | missingValue (name : Name)
  | unexpectedValue (name : Name)
  | badValue (name : Name) (value : String)
  | repeated (name : Name)
  | tooMany (argument : String)
  | emptyInput
  deriving DecidableEq, Repr

def Fault.message : Fault → String
  | unknown argument => "unexpected argument '" ++ argument ++ "'"
  | missingValue name => "a value is required for '--" ++ name.long ++ "'"
  | unexpectedValue name => "'--" ++ name.long ++ "' takes no value"
  | badValue name value => "invalid value '" ++ value ++ "' for '--" ++ name.long ++ "'"
  | repeated name => "'--" ++ name.long ++ "' cannot be used more than once"
  | tooMany argument => "unexpected argument '" ++ argument ++ "'"
  | emptyInput => "the input has no name"

/-- A number of at most 64 bits in decimal digits, perhaps after a plus sign. -/
def parseNumber (s : String) : Option Nat :=
  let digits := match s.toList with
    | '+' :: rest => rest
    | all => all
  if digits.isEmpty || !digits.all Char.isDigit then none
  else
    let n := digits.foldl (fun n c => n * 10 + (c.toNat - 48)) 0
    if n < Nat.pow 2 64 then some n else none

def lowerAscii (s : String) : String := String.ofList (s.toList.map Char.toLower)

/-- A level is given by its name in any case or by its number, 1 for errors only. -/
def parseLevel (s : String) : Option Log.Level :=
  match parseNumber s with
  | some n => Log.Level.all.find? (·.verbosity = n)
  | none => Log.Level.all.find? fun level => (Log.Filter.upTo level).name = lowerAscii s

def Options.set (o : Options) (name : Name) (value : String) : Except Fault Options :=
  match name with
  | .pure => .error (.unexpectedValue .pure)
  | .color => match ColorChoice.ofName? value with
    | some color => .ok { o with color }
    | none => .error (.badValue .color value)
  | .mark => match parseNumber value with
    | some (n + 1) => .ok { o with mark := n + 1 }
    | _ => .error (.badValue .mark value)
  | .level => match parseLevel value with
    | some level => .ok { o with level := some level }
    | none => .error (.badValue .level value)
  | .logFile => .ok { o with logFile := some value }

structure Reading where
  options : Options
  seen : List Name

def Reading.use (r : Reading) (name : Name) (value : String) : Except Fault Reading :=
  if name ∈ r.seen then .error (.repeated name)
  else (r.options.set name value).map fun options => ⟨options, name :: r.seen⟩

def Reading.usePure (r : Reading) : Except Fault Reading :=
  if Name.pure ∈ r.seen then .error (.repeated .pure)
  else .ok ⟨{ r.options with pure := true }, .pure :: r.seen⟩

def Reading.useInput (r : Reading) (path : String) : Except Fault Reading :=
  match r.options.input with
  | some _ => .error (.tooMany path)
  | none =>
    if path = "" then .error .emptyInput
    else .ok { r with options := { r.options with input := some path } }

def isValue (argument : String) : Bool :=
  match argument.toList with
  | '-' :: _ :: _ => false
  | _ => true

def splitEquals (s : List Char) : String × Option String :=
  match s.dropWhile (· ≠ '=') with
  | _ :: value => (String.ofList (s.takeWhile (· ≠ '=')), some (String.ofList value))
  | [] => (String.ofList s, none)

/-- What a group of short options comes to: done, or an option that wants a value. -/
inductive Cluster where
  | done (reading : Reading)
  | wants (reading : Reading) (name : Name)

def readCluster (argument : String) : List Char → Reading → Except Fault Cluster
  | [], r => .ok (.done r)
  | 'p' :: rest, r =>
    match rest with
    | '=' :: _ => .error (.unexpectedValue .pure)
    | _ => do readCluster argument rest (← r.usePure)
  | 'l' :: rest, r =>
    match rest with
    | [] => .ok (.wants r .level)
    | '=' :: value | value => do .ok (.done (← r.use .level (String.ofList value)))
  | _ :: _, _ => .error (.unknown argument)

def readAll : List String → Reading → Except Fault Reading
  | [], r => .ok r
  | argument :: rest, r =>
    match argument.toList with
    | ['-', '-'] => rest.foldlM Reading.useInput r
    | '-' :: '-' :: option =>
      let (long, value) := splitEquals option
      match Name.all.find? (·.long = long), value with
      | none, _ => .error (.unknown argument)
      | some .pure, none => do readAll rest (← r.usePure)
      | some name, some value => do readAll rest (← r.use name value)
      | some name, none => match rest with
        | [] => .error (.missingValue name)
        | value :: rest =>
          if isValue value then do readAll rest (← r.use name value)
          else .error (.missingValue name)
    | '-' :: c :: more => do
      match ← readCluster argument (c :: more) r with
      | .done r => readAll rest r
      | .wants r name => match rest with
        | [] => .error (.missingValue name)
        | value :: rest =>
          if isValue value then do readAll rest (← r.use name value)
          else .error (.missingValue name)
    | _ => do readAll rest (← r.useInput argument)

def parse (arguments : List String) : Except Fault Options :=
  (readAll arguments ⟨.default, []⟩).map Reading.options

end StyledEffects.Cli
