import TrafficIntent.CommandLine.Settings

namespace TrafficIntent.CommandLine

inductive Command where
  | generate (file : String) (output : Option Format) (l7 noTimestamps : Bool)
  | validate (file : String)
  deriving DecidableEq

/-- Why arguments do not make a command. -/
inductive Usage where
  | helpWanted
  | versionWanted
  | nothingGiven
  | unknownCommand
  | unknownArgument
  | missingFile
  | invalidValue
  | unwantedValue
  | repeatedOption
  deriving DecidableEq

inductive Verb where
  | generate
  | validate
  deriving DecidableEq

/-- The value of an option that has been named: it is settled only when the next argument has been
understood. -/
inductive Pending where
  | none
  | awaited
  | given (value : String)
  deriving DecidableEq

/-- What the arguments so far say. -/
structure Draft where
  verb : Verb
  file : Option String
  output : Option Format
  l7 : Bool
  noTimestamps : Bool
  pending : Pending
  deriving DecidableEq

/-- How an argument looks. -/
inductive Shape where
  | escape
  | long (name : String) (value : Option String)
  | short (letter : Char) (rest : List Char)
  | other
  deriving DecidableEq

def Shape.of (arg : String) : Shape :=
  match arg.toList with
  | ['-', '-'] => .escape
  | '-' :: '-' :: cs =>
    match cs.span (· != '=') with
    | (name, _ :: value) => .long (String.ofList name) (some (String.ofList value))
    | (name, []) => .long (String.ofList name) none
  | '-' :: c :: cs => .short c cs
  | _ => .other

namespace Draft

def new (verb : Verb) : Draft := ⟨verb, none, none, false, false, .none⟩

/-- Gives the output option a value. It may be given once. -/
def setOutput (d : Draft) (value : String) : Except Usage Draft :=
  if d.output.isSome then .error .repeatedOption
  else match Format.all.lookup value with
    | some f => .ok { d with output := some f, pending := .none }
    | none => .error .invalidValue

def settle (d : Draft) : Except Usage Draft :=
  match d.pending with
  | .none => .ok d
  | .awaited => .error .invalidValue
  | .given value => d.setOutput value

/-- An option for the output's format, with its value if it is attached. -/
def outputOption (d : Draft) (value : Option String) : Except Usage Draft := do
  let d ← d.settle
  match value with
  | some v => d.setOutput v
  | none => return { d with pending := .awaited }

def flag (d : Draft) (isSet : Bool) (set : Draft → Draft) : Except Usage Draft := do
  let d ← d.settle
  if isSet then throw .repeatedOption
  return set d

def help (d : Draft) : Except Usage Draft := do
  let _ ← d.settle
  throw .helpWanted

/-- An option by its long name. Flags take no value. -/
def longOption (d : Draft) (name : String) (value : Option String) : Except Usage Draft :=
  let unvalued (r : Except Usage Draft) : Except Usage Draft :=
    if value.isSome then .error .unwantedValue else r
  if name = "help" then unvalued d.help
  else if d.verb = .generate then
    if name = "output" then d.outputOption value
    else if name = "l7" then unvalued (d.flag d.l7 fun d => { d with l7 := true })
    else if name = "no-timestamps" then
      unvalued (d.flag d.noTimestamps fun d => { d with noTimestamps := true })
    else .error .unknownArgument
  else .error .unknownArgument

/-- An option by its letter. What follows the letter is the value, after an equals sign or not. -/
def shortOption (d : Draft) (letter : Char) (rest : List Char) : Except Usage Draft :=
  if letter = 'h' then d.help
  else if letter = 'o' && d.verb = .generate then
    d.outputOption <| match rest with
      | [] => none
      | '=' :: value => some (String.ofList value)
      | value => some (String.ofList value)
  else .error .unknownArgument

def positional (d : Draft) (arg : String) : Except Usage Draft :=
  if d.file.isSome then .error .unknownArgument
  else do return { (← d.settle) with file := some arg }

/-- Takes in the arguments. After two dashes there are no more options. -/
def take (d : Draft) (escaped : Bool) : List String → Except Usage Draft
  | [] => d.settle
  | arg :: args => do
    if escaped then (← d.positional arg).take true args
    else match Shape.of arg with
      | .escape => d.take true args
      | .long name value => (← d.longOption name value).take false args
      | .short letter rest => (← d.shortOption letter rest).take false args
      | .other =>
        if d.pending = .awaited then Draft.take { d with pending := .given arg } false args
        else (← d.positional arg).take false args
termination_by structural args => args

def command (d : Draft) : Except Usage Command :=
  match d.file, d.verb with
  | none, _ => .error .missingFile
  | some file, .generate => .ok (.generate file d.output d.l7 d.noTimestamps)
  | some file, .validate => .ok (.validate file)

end Draft

def Verb.ofName? (name : String) : Option Verb :=
  [("generate", Verb.generate), ("validate", Verb.validate)].lookup name

/-- Help can be asked for on each command, and on help itself. -/
def helpFor (topics : List String) : Usage :=
  match topics with
  | [] => .helpWanted
  | [topic] =>
    if topic = "help" || (Verb.ofName? topic).isSome then .helpWanted else .unknownCommand
  | _ => .unknownCommand

/-- The command that arguments make. -/
def Command.ofArguments : List String → Except Usage Command
  | [] => .error .nothingGiven
  | arg :: args =>
    match Verb.ofName? arg with
    | some verb => do (← (Draft.new verb).take false args).command
    | none =>
      .error <|
        if arg = "help" then helpFor args
        else match Shape.of arg with
          | .escape =>
            match args with
            | [] => .nothingGiven
            | a :: _ =>
              if a = "help" || (Verb.ofName? a).isSome then .unknownArgument else .unknownCommand
          | .long name value =>
            if name = "help" || name = "version" then
              if value.isSome then .unwantedValue
              else if name = "help" then .helpWanted else .versionWanted
            else .unknownArgument
          | .short letter _ =>
            if letter = 'h' then .helpWanted
            else if letter = 'V' then .versionWanted else .unknownArgument
          | .other => .unknownCommand

end TrafficIntent.CommandLine
