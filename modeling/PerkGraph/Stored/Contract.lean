import PerkGraph.Contract
import PerkGraph.Json.Decoder
import PerkGraph.Json.Printer
import PerkGraph.Json.Reader

/-! # Stored contracts

Contracts as JSON: a name, which may be missing, and a list of node records.
-/

namespace PerkGraph

/-- A contract as it is stored: not yet built. -/
structure ContractFile where
  name : String := ""
  nodes : List NodeRecord
deriving DecidableEq

namespace NodeRecord

/-- The fields of a record, in the order in which they are written. -/
def fieldNames : List String :=
  ["id", "kind", "color", "effect1", "effect2", "gate", "connections"]

def takeField {ε : Type} (name : String) (value : Json) (record : NodeRecord) :
    Except (Json.Fault ε) NodeRecord :=
  match name with
  | "id" => value.text.map fun id => { record with id }
  | "kind" => value.word.map fun kind => { record with kind }
  | "color" => value.word.map fun color => { record with color }
  | "effect1" => (value.optional Json.text).map fun effect1 => { record with effect1 }
  | "effect2" => (value.optional Json.text).map fun effect2 => { record with effect2 }
  | "gate" => (value.optional Json.text).map fun gate => { record with gate }
  | "connections" => (value.list Json.text).map fun connections => { record with connections }
  | _ => .ok record

/-- The record of a tree. Every field has a default. -/
def ofJson {ε : Type} (json : Json) : Except (Json.Fault ε) NodeRecord :=
  json.fields fieldNames takeField {}

/-- A field that is left out if it is missing. -/
def optionalField (name : String) (value : Option String) : List (String × Json) :=
  (value.map fun text => (name, Json.string text)).toList

def toJson (record : NodeRecord) : Json :=
  .record <|
    [("id", .string record.id), ("kind", .string (Vocabulary.name record.kind)),
      ("color", .string (Vocabulary.name record.color))] ++
    optionalField "effect1" record.effect1 ++ optionalField "effect2" record.effect2 ++
    optionalField "gate" record.gate ++ [("connections", .strings record.connections)]

end NodeRecord

namespace ContractFile

/-- The fields of a stored contract, in the order in which they are written. -/
def fieldNames : List String := ["name", "nodes"]

def takeField {ε : Type} (name : String) (value : Json)
    (file : String × Option (List NodeRecord)) :
    Except (Json.Fault ε) (String × Option (List NodeRecord)) :=
  match name with
  | "name" => value.text.map fun name => (name, file.2)
  | "nodes" => (value.list NodeRecord.ofJson).map fun nodes => (file.1, some nodes)
  | _ => .ok file

/-- The stored contract of a tree. The name may be missing, the nodes must be there. -/
def ofJson {ε : Type} (json : Json) : Except (Json.Fault ε) ContractFile := do
  let (name, nodes) ← json.fields fieldNames takeField ("", none)
  match nodes with
  | some nodes => .ok { name, nodes }
  | none => .error .malformed

def toJson (file : ContractFile) : Json :=
  .record [("name", .string file.name), ("nodes", .array (file.nodes.map NodeRecord.toJson))]

def ofText {ε : Type} (text : String) : Except (Json.Fault ε) ContractFile :=
  let document := Json.read text
  Json.decodeWhole document.value document.complete ofJson

def toText (file : ContractFile) : String :=
  file.toJson.printLine

end ContractFile

def Contract.toFile (contract : Contract) : ContractFile where
  name := contract.name
  nodes := contract.records

end PerkGraph
