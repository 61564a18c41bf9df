namespace TrafficIntent.CommandLine

inductive ReadFault where
  | missing
  | notDirectory
  | isDirectory
  | notText
  | nameTooLong
  | nulInName
  | other (reason : String)
  deriving DecidableEq

def ReadFault.message : ReadFault → String
  | missing => "No such file or directory (os error 2)"
  | notDirectory => "Not a directory (os error 20)"
  | isDirectory => "Is a directory (os error 21)"
  | notText => "stream did not contain valid UTF-8"
  | nameTooLong => "File name too long (os error 36)"
  | nulInName => "file name contained an unexpected NUL byte"
  | other reason => reason

/-- Whether there is nothing of that name, rather than something that cannot be read. -/
def ReadFault.isAbsence : ReadFault → Bool
  | missing => true
  | notDirectory => true
  | nameTooLong => true
  | nulInName => true
  | _ => false

/-- The parts of a path between slashes. Empty parts and single points lead nowhere. -/
def pathParts (path : String) : List String :=
  ((path.splitOn "/").filter fun p => p != "" && p != ".")

/-- Whether a path ends in a name with the extension `json`, in any letter case. A name of nothing
but a point and an extension has none. -/
def isJsonPath (path : String) : Bool :=
  match (pathParts path).getLast? with
  | none => false
  | some name =>
    match name.toList.reverse.span (· != '.') with
    | (ext, _ :: stem) =>
      name != ".." && !stem.isEmpty && String.ofList (ext.reverse.map Char.toLower) == "json"
    | (_, []) => false

/-- The files under a directory, with their contents, by the parts of their paths. -/
structure FileTree where
  files : List (List String × ByteArray)

namespace FileTree

def ofList (files : List (String × ByteArray)) : FileTree :=
  ⟨files.map fun f => (pathParts f.1, f.2)⟩

def contents? (t : FileTree) (place : List String) : Option ByteArray := t.files.lookup place

def isDirectory (t : FileTree) (place : List String) : Bool :=
  place.isEmpty || t.files.any fun f => place.isPrefixOf f.1 && place != f.1

/-- What there is outside of the tree: directories, as far as a path only climbs. -/
def outside (ps : List String) : ReadFault := if ps.all (· == "..") then .isDirectory else .missing

/-- The bytes that a name, or a whole path, may have at most. -/
def nameLimit : Nat := 255

def pathLimit : Nat := 4095

/-- Where the parts of a path lead from a place. -/
def walk (t : FileTree) : List String → List String → Except ReadFault (List String)
  | place, [] => .ok place
  | place, p :: ps =>
    if t.isDirectory place then
      if p = ".." then if place.isEmpty then .error (outside ps) else walk t place.dropLast ps
      else if nameLimit < p.utf8ByteSize then .error .nameTooLong
      else walk t (place ++ [p]) ps
    else if (t.contents? place).isSome then .error .notDirectory
    else .error .missing

/-- The text of a file. -/
def read (t : FileTree) (path : String) : Except ReadFault String := do
  if path.contains '\x00' then throw .nulInName
  if path.isEmpty then throw .missing
  if pathLimit < path.utf8ByteSize then throw .nameTooLong
  if path.startsWith "/" then throw (outside (pathParts path))
  let place ← t.walk [] (pathParts path)
  if t.isDirectory place then throw .isDirectory
  match t.contents? place with
  | none => throw .missing
  | some bytes =>
    if path.endsWith "/" || path.endsWith "/." then throw .notDirectory
    match String.fromUTF8? bytes with
    | some s => return s
    | none => throw .notText

end FileTree

end TrafficIntent.CommandLine
