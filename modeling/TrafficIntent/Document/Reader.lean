import TrafficIntent.Document.Mismatch

/-!
What a document's shape is made of, said once for every format: texts, ports, lists, optional parts
and records. `m α` reads a value of type `α` from wherever the reader stands.
-/

namespace TrafficIntent

/-- A named part of a record: its name and other spellings of it, and how its value enters the
record. -/
structure Field (m : Type → Type) (σ : Type) where
  name : String
  otherNames : List String
  required : Bool
  read : m (σ → σ)

/-- A record starts blank and takes its fields in. -/
structure Record (m : Type → Type) (σ : Type) where
  title : String
  blank : σ
  fields : List (Field m σ)

class Reader (m : Type → Type) extends Functor m where
  string : m String
  port : m UInt16
  list {α : Type} : m α → m (List α)
  optional {α : Type} : m α → m (Option α)
  record {σ : Type} : Record m σ → m σ

namespace Field

variable {m : Type → Type} {σ : Type}

def isNamed (f : Field m σ) (name : String) : Bool := f.name == name || f.otherNames.contains name

/-- A field that may be left out. -/
def free {α : Type} [Functor m] (name : String) (set : α → σ → σ) (read : m α) : Field m σ :=
  ⟨name, [], false, set <$> read⟩

/-- A field that must be there. -/
def needed {α : Type} [Functor m] (name : String) (set : α → σ → σ) (read : m α) : Field m σ :=
  ⟨name, [], true, set <$> read⟩

def orNamed (f : Field m σ) (name : String) : Field m σ :=
  { f with otherNames := name :: f.otherNames }

end Field

namespace Record

variable {m : Type → Type} {σ : Type}

def field? (r : Record m σ) (name : String) : Option (Field m σ) :=
  r.fields.find? (fun f => f.isNamed name)

/-- The first field that must be there and is not. -/
def missing? (r : Record m σ) (seen : List String) : Option (Field m σ) :=
  r.fields.find? (fun f => f.required && !seen.contains f.name)

/-- The phrase for a record written as a list of its fields. -/
def asList (r : Record m σ) : String :=
  "struct " ++ r.title ++ " with " ++ toString r.fields.length ++
    (if r.fields.length = 1 then " element" else " elements")

end Record

end TrafficIntent
