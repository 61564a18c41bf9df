import TrafficIntent.CommandLine.Arguments
import TrafficIntent.CommandLine.Files
import TrafficIntent.Failure
import TrafficIntent.Intent.Text
import TrafficIntent.Rendering
import TrafficIntent.Synthesis.Cilium
import TrafficIntent.Synthesis.PolicySet

namespace TrafficIntent.CommandLine

/-- What commands see of the world. -/
structure World where
  file : String → Except ReadFault String
  input : Except ReadFault String
  now : Timestamp

inductive Fault where
  | io (f : ReadFault)
  | text (f : TextFault)
  | invalid (problems : List String)
  | settings (reason : String)
  | failure (f : Failure)
  deriving DecidableEq

/-- The complaint about a document with problems. -/
def Fault.ofProblems (problems : List Problem) : Fault := .invalid (problems.map Problem.message)

def Fault.message : Fault → String
  | io f => "io error: " ++ f.message
  | text f => f.message
  | invalid problems => invalidIntent problems
  | settings reason => "config error: " ++ reason
  | failure f => f.message

/-- The settings of a file; a missing file leaves all defaults. -/
def loadSettings (w : World) (path : String) : Except Fault Settings :=
  match w.file path with
  | .error f =>
    if f.isAbsence then .ok .default
    else .error (.settings ("failed to read " ++ path ++ ": " ++ f.message))
  | .ok text =>
    (Settings.ofText text).mapError fun f =>
      .settings ("failed to parse " ++ path ++ ": " ++ f.message)

/-- The file name that stands for what comes in. -/
def inputName : String := "-"

/-- Files with the extension of JSON are read as JSON and all else as YAML. -/
def readIntent (w : World) (path : String) : Except Fault IntentDocument := do
  let content ← (if path = inputName then w.input else w.file path).mapError .io
  (if isJsonPath path then IntentDocument.ofJson content
    else IntentDocument.ofYaml content).mapError .text

def render {α : Type} [Resource α] (ms : List α) : Format → String
  | .yaml => toYaml ms
  | .json => toJson ms

/-- The text of an intent's policies, Cilium's or the plain ones. -/
def manifestText (c : Compilation) (l7 : Bool) (format : Format) : String :=
  if l7 then render c.cilium format else render c.policies.manifests format

/-- The manifests for the intent in a file. Options outweigh settings. The document is validated
before it is converted, and conversion validates it once more. -/
def generate (w : World) (s : Settings) (file : String) (output : Option Format)
    (l7 noTimestamps : Bool) : Except Fault String := do
  let document ← readIntent w file
  let report := document.validate
  if !report.isValid then throw (.ofProblems report.problems)
  let intent ← document.toIntent.mapError .ofProblems
  let time := if noTimestamps || !s.timestamps then Timestamp.epoch else w.now
  return manifestText ⟨intent, time⟩ l7 (output.getD s.output)

/-- What is wrong with the intent in a file. -/
def validate (w : World) (file : String) : Except Fault Report := do
  return (← readIntent w file).validate

/-- What a run prints and how it ends. -/
structure Outcome where
  output : String
  fault : Option Fault
  deriving DecidableEq

private def line (s : String) : String := s ++ "\n"

/-- The lines about a report, and the verdict if it is good. -/
def reportText (file : String) (r : Report) : String :=
  String.join <|
    (r.cautions.map fun c => line ("  warning: " ++ c.message)) ++
      (r.problems.map fun p => line ("  error: " ++ p.message)) ++
      (if r.isValid then [line (file ++ " is valid")] else [])

/-- Runs a command. Generated text ends with a line break. -/
def run (w : World) (s : Settings) : Command → Outcome
  | .generate file output l7 noTimestamps =>
    match generate w s file output l7 noTimestamps with
    | .error f => ⟨"", some f⟩
    | .ok text => ⟨if text.endsWith "\n" then text else line text, none⟩
  | .validate file =>
    match validate w file with
    | .error f => ⟨"", some f⟩
    | .ok r =>
      ⟨reportText file r,
        if r.isValid then none else some (.ofProblems r.problems)⟩

def versionText : String := line "netintent 0.1.0"

/-- Where the settings are: at a place of the user's choice, or else in the home directory. -/
def settingsPath (chosen : Option String) (home : String) : String :=
  match chosen with
  | some path => if path.isEmpty then home ++ "/.netintent/config.json" else path
  | none => home ++ "/.netintent/config.json"

end TrafficIntent.CommandLine
