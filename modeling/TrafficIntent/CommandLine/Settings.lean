import TrafficIntent.Json.Text

namespace TrafficIntent.CommandLine

inductive Format where
  | yaml
  | json
  deriving DecidableEq

inductive LogStyle where
  | text
  | json
  deriving DecidableEq

/-- Without timestamps, manifests carry the start of 1970 as their time. -/
structure Settings where
  output : Format
  logStyle : LogStyle
  timestamps : Bool
  deriving DecidableEq

def Format.name : Format → String
  | yaml => "yaml"
  | json => "json"

def Format.all : List (String × Format) := [(Format.yaml.name, .yaml), (Format.json.name, .json)]

def LogStyle.name : LogStyle → String
  | text => "text"
  | json => "json"

def LogStyle.all : List (String × LogStyle) :=
  [(LogStyle.text.name, .text), (LogStyle.json.name, .json)]

namespace Settings

def default : Settings := ⟨.yaml, .text, true⟩

def toJson (s : Settings) : Json :=
  .object [("output", .string s.output.name), ("log_format", .string s.logStyle.name),
    ("timestamps", .bool s.timestamps)]

def read : Json.Scan Settings :=
  Json.Scan.record {
    title := "CliConfig"
    blank := default
    fields := [
      .free "output" (fun v s => { s with output := v }) (Json.Scan.choice Format.all),
      .free "log_format" (fun v s => { s with logStyle := v }) (Json.Scan.choice LogStyle.all),
      .free "timestamps" (fun v s => { s with timestamps := v }) Json.Scan.bool] }

def ofText (text : String) : Except Json.Fault Settings := Json.Scan.readText read text

end Settings

end TrafficIntent.CommandLine
