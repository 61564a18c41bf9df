import TrafficIntent.Manifest.Meta

namespace TrafficIntent

/-- How a kind of resource is addressed. -/
structure ApiResource where
  group : String
  version : String
  kind : String
  plural : String
  deriving DecidableEq

namespace ApiResource

/-- The plural of a word in lower case, as far as its ending tells it. Four kinds have plurals of
their own. The letter before a final `y` is looked up at the byte before it. -/
def pluralOf (word : String) : String :=
  let cs := word.toList
  let endsWith (ending : String) : Bool := ending.toList.isSuffixOf cs
  if word = "endpoints" || word = "endpointslices" then word
  else if word = "nodemetrics" then "nodes"
  else if word = "podmetrics" then "pods"
  else if ["s", "x", "z", "ch", "sh"].any endsWith then word ++ "es"
  else
    let consonant : Bool := match cs[word.utf8ByteSize - 2]? with
      | some c => 2 ≤ cs.length && !(['a', 'e', 'i', 'o', 'u'].contains c)
      | none => false
    if endsWith "y" && consonant then String.ofList cs.dropLast ++ "ies" else word ++ "s"

/-- The version of a group is written after a slash; the core group has no name. -/
def ofNames (apiVersion kind : String) : ApiResource :=
  let cs := apiVersion.toList
  let (group, version) := match cs.span (· != '/') with
    | (_, []) => ([], cs)
    | (group, _ :: version) => (group, version)
  ⟨String.ofList group, String.ofList version, kind,
    pluralOf (String.ofList (kind.toList.map Char.toLower))⟩

def apiVersion (r : ApiResource) : String :=
  if r.group.isEmpty then r.version else r.group ++ "/" ++ r.version

end ApiResource

/-- Identity of a resource. -/
structure ResourceKey where
  kind : String
  ns : String
  name : String
  deriving DecidableEq

def ResourceKey.text (k : ResourceKey) : String := k.kind ++ "/" ++ k.ns ++ "/" ++ k.name

/-- Manifests of one kind. -/
class Resource (α : Type) where
  apiVersion : String
  kind : String
  metadata : α → ObjectMeta
  withMetadata : α → ObjectMeta → α
  toJson : α → Json

namespace Resource

def key {α : Type} [Resource α] (a : α) : ResourceKey :=
  ⟨kind α, (metadata a).ns, (metadata a).name⟩

/-- The resource without the time at which it was generated. -/
def withoutTimestamps {α : Type} [Resource α] (a : α) : α :=
  withMetadata a (metadata a).withoutTimestamps

def api (α : Type) [Resource α] : ApiResource := .ofNames (apiVersion α) (kind α)

end Resource

end TrafficIntent
