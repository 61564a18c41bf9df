import TrafficIntent.Document.Reader
import TrafficIntent.Json.Members

namespace TrafficIntent

/-- What a request has to match; a missing part matches every request. -/
structure HttpRule where
  method : Option String
  path : Option String
  host : Option String
  headers : List String
  deriving DecidableEq

/-- A request is admitted if any of the matchers does. -/
structure L7Rules where
  http : List HttpRule
  deriving DecidableEq

namespace HttpRule

def blank : HttpRule := ⟨none, none, none, []⟩

def toJson (r : HttpRule) : Json :=
  .object <|
    Json.ifSome "method" .string r.method ++ Json.ifSome "path" .string r.path ++
      Json.ifSome "host" .string r.host ++ Json.unlessEmpty "headers" .string r.headers

def read {m : Type → Type} [Reader m] : m HttpRule :=
  Reader.record {
    title := "HttpRule"
    blank := blank
    fields := [
      .free "method" (fun v r => { r with method := v }) (Reader.optional Reader.string),
      .free "path" (fun v r => { r with path := v }) (Reader.optional Reader.string),
      .free "host" (fun v r => { r with host := v }) (Reader.optional Reader.string),
      .free "headers" (fun v r => { r with headers := v }) (Reader.list Reader.string)] }

end HttpRule

namespace L7Rules

def isEmpty (r : L7Rules) : Bool := r.http.isEmpty

def toJson (r : L7Rules) : Json := .object (Json.unlessEmpty "http" HttpRule.toJson r.http)

def read {m : Type → Type} [Reader m] : m L7Rules :=
  Reader.record {
    title := "L7Rules"
    blank := ⟨[]⟩
    fields := [.free "http" (fun v _ => ⟨v⟩) (Reader.list HttpRule.read)] }

end L7Rules

end TrafficIntent
