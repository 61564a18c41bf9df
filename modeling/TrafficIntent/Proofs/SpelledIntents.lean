import TrafficIntent.Intent.Text
import TrafficIntent.Proofs.Yaml.TypedTrees

/-!
Intents written as JSON, read as JSON and as YAML. What is read is said once for all formats, so the
readers of both are looked at side by side with one of trees: where that one makes something of a
tree, the other two make the same of every spelling of it.
-/

namespace TrafficIntent

section Through

variable {m m' : Type → Type} {σ : Type} (f : m (σ → σ) → m' (σ → σ))

/-- A field read in another way. -/
def Field.through (field : Field m σ) : Field m' σ :=
  ⟨field.name, field.otherNames, field.required, f field.read⟩

def Record.through (r : Record m σ) : Record m' σ := ⟨r.title, r.blank, r.fields.map (·.through f)⟩

theorem Record.field?_through (r : Record m σ) (name : String) :
    (r.through f).field? name = (r.field? name).map (·.through f) :=
  List.find?_map ..

theorem Record.missing?_through (r : Record m σ) (seen : List String) :
    (r.through f).missing? seen = (r.missing? seen).map (·.through f) :=
  List.find?_map ..

end Through

namespace Json

/-- A text that spells a tree, with white space around it but without tabs there. -/
def SpellsDocument (j : Json) (text : String) : Prop :=
  ∃ before w behind, text.toList = before ++ (w ++ behind) ∧ Spells j w ∧
    Gap before ∧ '\t' ∉ before ∧ Gap behind ∧ '\t' ∉ behind

/-- Reads a tree in which every record is an object, and none a list of its fields. -/
def ObjectDecoder (α : Type) : Type := Decoder α

namespace ObjectDecoder

instance : Functor ObjectDecoder := inferInstanceAs (Functor Decoder)

def record {σ : Type} (r : Record ObjectDecoder σ) : ObjectDecoder σ
  | .object ms => Decoder.members (r : Record Decoder σ) ms [] r.blank
  | j => Decoder.refuse ("struct " ++ r.title) j

instance : Reader ObjectDecoder where
  string := Decoder.string
  port := Decoder.port
  list := Decoder.list
  optional := Decoder.optional
  record := record

theorem eq_of_record {σ : Type} {r : Record ObjectDecoder σ} {j : Json} {x : σ}
    (read : record r j = .ok x) :
    ∃ ms, j = .object ms ∧ Decoder.members (r : Record Decoder σ) ms [] r.blank = .ok x := by
  unfold record at read
  split at read
  next ms => exact ⟨ms, rfl, read⟩
  next => contradiction

end ObjectDecoder

end Json

/-- A reader of trees, and readers of JSON and YAML that make the same of its spellings. -/
structure Agreeing (α : Type) where
  tree : Json.ObjectDecoder α
  json : Json.Scan α
  yaml : Yaml.TypedReader α
  onJson : ∀ j a, tree j = .ok a → Json.Scan.Reads json j a
  onYaml : ∀ j a, tree j = .ok a → Yaml.TypedReader.Reads yaml j a

namespace Agreeing

open Json (Decoder)

variable {α σ : Type}

instance : Functor Agreeing where
  map f r :=
    { tree := f <$> r.tree
      json := f <$> r.json
      yaml := f <$> r.yaml
      onJson := by
        intro j b read
        obtain ⟨a, value, rfl⟩ := Decoder.exists_of_map read
        exact Json.Scan.reads_map f (r.onJson j a value)
      onYaml := by
        intro j b read
        obtain ⟨a, value, rfl⟩ := Decoder.exists_of_map read
        exact Yaml.TypedReader.reads_map f (r.onYaml j a value) }

def string : Agreeing String where
  tree := Decoder.string
  json := Json.Scan.text
  yaml := Yaml.TypedReader.textNamed "a string"
  onJson := by
    intro j s read
    rw [Decoder.eq_of_string read]
    exact Json.Scan.reads_text s
  onYaml := by
    intro j s read
    rw [Decoder.eq_of_string read]
    exact Yaml.TypedReader.reads_text _ s

def port : Agreeing UInt16 where
  tree := Decoder.port
  json := Json.Scan.port
  yaml := Yaml.TypedReader.port
  onJson := by
    intro j p read
    obtain ⟨k, rfl, small, rfl⟩ := Decoder.eq_of_port read
    exact Json.Scan.reads_port small
  onYaml := by
    intro j p read
    obtain ⟨k, rfl, small, rfl⟩ := Decoder.eq_of_port read
    exact Yaml.TypedReader.reads_port small

def list (item : Agreeing α) : Agreeing (List α) where
  tree := Decoder.list item.tree
  json := Json.Scan.list item.json
  yaml := Yaml.TypedReader.list item.yaml
  onJson := by
    intro j as read
    obtain ⟨js, rfl, items⟩ := Decoder.eq_of_list read
    exact Json.Scan.reads_list (items.imp item.onJson)
  onYaml := by
    intro j as read
    obtain ⟨js, rfl, items⟩ := Decoder.eq_of_list read
    exact Yaml.TypedReader.reads_list (items.imp item.onYaml)

def optional (item : Agreeing α) : Agreeing (Option α) where
  tree := Decoder.optional item.tree
  json := Json.Scan.optional item.json
  yaml := Yaml.TypedReader.optional item.yaml
  onJson := by
    intro j o read
    obtain ⟨rfl, rfl⟩ | ⟨there, a, value, rfl⟩ := Decoder.eq_of_optional read
    · exact Json.Scan.reads_optional_null
    · exact Json.Scan.reads_optional there (item.onJson j a value)
  onYaml := by
    intro j o read
    obtain ⟨rfl, rfl⟩ | ⟨there, a, value, rfl⟩ := Decoder.eq_of_optional read
    · exact Yaml.TypedReader.reads_optional_null
    · exact Yaml.TypedReader.reads_optional there (item.onYaml j a value)

/-- The fields of a record are read alike if they are read side by side. -/
theorem follows_through {m : Type → Type} {reads : m (σ → σ) → Json → (σ → σ) → Prop}
    (f : Agreeing (σ → σ) → m (σ → σ)) (r : Record Agreeing σ)
    (agree : ∀ (read : Agreeing (σ → σ)) j set, read.tree j = .ok set → reads (f read) j set) :
    Record.Follows (r.through tree : Record Decoder σ) (r.through f) reads where
  blank := rfl
  unknown := by
    intro k unknown
    have none := (Record.field?_through tree r k).symm.trans unknown
    rw [Record.field?_through, Option.map_eq_none_iff.1 none]
    rfl
  known := by
    intro k g known
    have some := (Record.field?_through tree r k).symm.trans known
    obtain ⟨field, found, rfl⟩ := Option.map_eq_some_iff.1 some
    refine ⟨field.through f, ?_, rfl, fun j set read => agree field.read j set read⟩
    rw [Record.field?_through, found]
    rfl
  complete := by
    intro seen complete
    have none := (Record.missing?_through tree r seen).symm.trans complete
    rw [Record.missing?_through, Option.map_eq_none_iff.1 none]
    rfl

def record (r : Record Agreeing σ) : Agreeing σ where
  tree := Json.ObjectDecoder.record (r.through Agreeing.tree)
  json := Json.Scan.record (r.through Agreeing.json)
  yaml := Yaml.TypedReader.record (r.through Agreeing.yaml)
  onJson := by
    intro j x read
    obtain ⟨ms, rfl, members⟩ := Json.ObjectDecoder.eq_of_record read
    exact Json.Scan.reads_record (follows_through _ r Agreeing.onJson) members
  onYaml := by
    intro j x read
    obtain ⟨ms, rfl, members⟩ := Json.ObjectDecoder.eq_of_record read
    exact Yaml.TypedReader.reads_record (follows_through _ r Agreeing.onYaml) members

instance : Reader Agreeing where
  string := string
  port := port
  list := list
  optional := optional
  record := record

end Agreeing

namespace IntentDocument

/-- An intent that is written as JSON is the same intent to both readers, with any white space and
escapes that its spellings admit. -/
theorem same_from_spelled_text {j : Json} {text : String} {d : IntentDocument}
    (spelled : j.SpellsDocument text)
    (decoded : (read : Json.ObjectDecoder IntentDocument) j = .ok d) :
    ofJson text = .ok d ∧ ofYaml text = .ok d := by
  obtain ⟨before, w, behind, chars, tree, gap, noTab, gap', noTab'⟩ := spelled
  let readers : Agreeing IntentDocument := read
  constructor
  · have taken : Json.Scan.Takes read text.toList d behind := by
      rw [chars]
      exact readers.onJson j d decoded gap tree (Json.Scan.ends_of_gap gap')
    rw [ofJson, Json.Scan.readText_of_takes taken gap']
    rfl
  · obtain ⟨ms, rfl, -⟩ := Json.ObjectDecoder.eq_of_record decoded
    obtain ⟨document, parsed, isNode⟩ := Yaml.exists_spelledDocument chars tree
      ⟨gap, fun _ => noTab⟩ ⟨gap', fun _ => noTab'⟩
    have run := readers.onYaml (.object ms) d decoded tree isNode document .root 0
    have whole : Yaml.TypedReader.readDocument read document = .ok d := by
      unfold Yaml.TypedReader.readDocument
      show (StateT.run (readers.yaml document .root document.root) 0).map (·.1) = _
      rw [run]
      rfl
    rw [ofYaml, parsed]
    simp only [whole]
    rfl

/-- A document with a rule for one port, and with a name of which one letter is escaped. -/
def escapedShop : String :=
  "\x7b\"name\": \"sh\\u006fp\", \"rules\": [\x7b\"from\": \"web\", \"to\": \"api\", \"ports\": [8080]\x7d]\x7d"

/-- The tree of its rule. -/
def escapedShopRule : Json :=
  .object [("from", .string "web"), ("to", .string "api"),
    ("ports", .array [.number (.integer 8080)])]

theorem same_from_spelled_text_shop :
    let j : Json := .object [("name", .string "shop"), ("rules", .array [escapedShopRule])]
    let rule : RuleDocument :=
      { RuleDocument.blank with source := some "web", target := some "api", ports := some [8080] }
    let d : IntentDocument := ⟨some "shop", none, none, some [rule]⟩
    j.SpellsDocument escapedShop ∧ (read : Json.ObjectDecoder IntentDocument) j = .ok d ∧
      ofJson escapedShop = .ok d ∧ ofYaml escapedShop = .ok d := by
  intro j rule d
  have text {s : String} (plain : (s.toList.all Json.isPlain) = true) :
      ∀ c ∈ s.toList, Json.isPlain c = true := List.all_eq_true.1 plain
  have space : Json.Gap [' '] := by simp [Json.Gap, Json.Scan.isSpace]
  have comma : Json.Leads false [',', ' '] := ⟨[], [' '], Json.gap_nil, space, rfl⟩
  have escaped : Json.SpellsText "shop" "sh\\u006fp".toList := by
    refine ⟨[('s', ['s']), ('h', ['h']), ('o', ['\\', 'u', '0', '0', '6', 'f']), ('p', ['p'])], ?_,
      rfl, rfl⟩
    simp only [List.forall_mem_cons]
    exact ⟨.plain (by decide), .plain (by decide), .quad (by decide), .plain (by decide), nofun⟩
  have ports : Json.Spells (.array [.number (.integer 8080)]) "[8080]".toList :=
    ⟨_, ⟨[], _, [], Json.gap_nil, ⟨by decide, rfl⟩, Json.gap_nil, rfl⟩, by decide⟩
  have rule : Json.Spells escapedShopRule
      "\x7b\"from\": \"web\", \"to\": \"api\", \"ports\": [8080]\x7d".toList :=
    ⟨_, ⟨[], _, [' '], _, _, Json.gap_nil, Json.spellsKey_self (text (by decide)) (by decide), space,
      ⟨_, Json.spellsText_self (text (by decide)), rfl⟩,
      ⟨_, _, [' '], _, _, comma, Json.spellsKey_self (text (by decide)) (by decide), space,
        ⟨_, Json.spellsText_self (text (by decide)), rfl⟩,
        ⟨_, _, [' '], _, _, comma, Json.spellsKey_self (text (by decide)) (by decide), space, ports,
          Json.gap_nil, rfl⟩, rfl⟩, rfl⟩, by decide⟩
  have rules : Json.Spells (.array [escapedShopRule])
      "[\x7b\"from\": \"web\", \"to\": \"api\", \"ports\": [8080]\x7d]".toList :=
    ⟨_, ⟨[], _, [], Json.gap_nil, rule, Json.gap_nil, rfl⟩, by decide⟩
  have spelled : j.SpellsDocument escapedShop := by
    refine ⟨[], _, [], ?_, ⟨_, ⟨[], _, [' '], _, _, Json.gap_nil,
      Json.spellsKey_self (text (by decide)) (by decide), space, ⟨_, escaped, rfl⟩,
      ⟨_, _, [' '], _, _, comma, Json.spellsKey_self (text (by decide)) (by decide), space, rules,
        Json.gap_nil, rfl⟩, rfl⟩, rfl⟩, Json.gap_nil, nofun, Json.gap_nil, nofun⟩
    decide
  exact ⟨spelled, rfl, same_from_spelled_text spelled rfl⟩

/-- A character beyond the first 65536, escaped as two surrogates. -/
def surrogates : String :=
  "\x7b\"description\": \"\\ud83d\\ude00\", \"rules\": []\x7d"

theorem ofJson_of_toOption {text : String} {d : IntentDocument}
    (there : (ofJson text).toOption = some d) : ofJson text = .ok d := by
  cases result : ofJson text with
  | error e =>
    rw [result] at there
    contradiction
  | ok d' =>
    rw [result] at there
    exact congrArg Except.ok (Option.some.inj there)

theorem ofYaml_of_malformed {text : String} (none : (Yaml.Document.ofText? text).isNone = true) :
    ofYaml text = .error .malformedYaml := by
  rw [ofYaml, Option.isNone_iff_eq_none.1 none]

theorem surrogates_refused :
    ofJson surrogates = .ok ⟨none, none, some "😀", some []⟩ ∧
      ofYaml surrogates = .error .malformedYaml :=
  ⟨ofJson_of_toOption (by decide +kernel), ofYaml_of_malformed (by decide +kernel)⟩

end IntentDocument

end TrafficIntent
