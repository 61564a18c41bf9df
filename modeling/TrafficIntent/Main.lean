import Std.Time.DateTime.Timestamp
import TrafficIntent.CommandLine.Run

namespace TrafficIntent.CommandLine

/-- What the system's complaint about a file says. -/
def ReadFault.ofError : IO.Error → ReadFault
  | .noFileOrDirectory _ _ _ => .missing
  | .inappropriateType _ code _ => if code = 21 then .isDirectory else .notDirectory
  | e => .other (toString e)

def textOfBytes (bytes : ByteArray) : Except ReadFault String :=
  match String.fromUTF8? bytes with
  | some s => .ok s
  | none => .error .notText

def readFile (path : String) : IO (Except ReadFault String) := do
  try
    return textOfBytes (← IO.FS.readBinFile path)
  catch e =>
    return .error (.ofError e)

partial def readInput (stream : IO.FS.Stream) (bytes : ByteArray) : IO ByteArray := do
  let more ← stream.read 65536
  if more.isEmpty then return bytes
  readInput stream (bytes ++ more)

def currentTime : IO Timestamp := do
  let t ← Std.Time.Timestamp.now
  return ⟨t.val.second.val, t.val.nano.val.toNat⟩

def Command.file : Command → String
  | generate file _ _ _ => file
  | validate file => file

/-- The world as far as a command sees it: the settings, and its own file or what comes in. -/
def worldFor (settingsFile : String) (c : Command) : IO World := do
  let settings ← readFile settingsFile
  let now ← currentTime
  if c.file = inputName then
    let input ← readInput (← IO.getStdin) .empty
    return ⟨fun _ => settings, textOfBytes input, now⟩
  else
    let content ← readFile c.file
    return ⟨fun path => if path = settingsFile then settings else content, .ok "", now⟩

def helpText : String :=
  "Usage: netintent <COMMAND>\n\n" ++
    "  generate <FILE> [-o yaml|json] [--l7] [--no-timestamps]\n" ++
    "  validate <FILE>\n"

/-- Runs a command; the exit code is 1 if it comes to a fault. -/
def execute (c : Command) : IO UInt32 := do
  let home := (← IO.getEnv "HOME").getD ""
  let path := settingsPath (← IO.getEnv "NETINTENT_CONFIG") home
  let w ← worldFor path c
  match loadSettings w path with
  | .error f =>
    IO.eprintln ("Error: " ++ f.message)
    return 1
  | .ok s =>
    let outcome := run w s c
    IO.print outcome.output
    match outcome.fault with
    | none => return 0
    | some f =>
      IO.eprintln ("Error: " ++ f.message)
      return 1

/-- Arguments that make no command end with code 2, unless they ask for help or for the version. -/
def start (args : List String) : IO UInt32 := do
  match Command.ofArguments args with
  | .ok c => execute c
  | .error .helpWanted =>
    IO.print helpText
    return 0
  | .error .versionWanted =>
    IO.print versionText
    return 0
  | .error _ =>
    IO.eprint helpText
    return 2

end TrafficIntent.CommandLine

def main (args : List String) : IO UInt32 := TrafficIntent.CommandLine.start args
