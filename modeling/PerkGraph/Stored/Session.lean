import PerkGraph.Json.Decoder
import PerkGraph.Json.Printer
import PerkGraph.Json.Reader
import PerkGraph.Session

/-! # Stored sessions

Sessions as JSON: the assignments of the roster and the selected ids. A roster whose assignments are refused
is refused where it stands, before anything after it is looked at.
-/

namespace PerkGraph

namespace Assignment

/-- The fields of an assignment, in the order in which they are written. -/
def fieldNames : List String := ["slot", "type", "face", "muscle", "hacker", "ninja"]

def takeField {ε : Type} (name : String) (value : Json) (assignment : Assignment) :
    Except (Json.Fault ε) Assignment :=
  let { slot, runner } := assignment
  match name with
  | "slot" => (value.natBelow 0x10000000000000000).map fun slot => { slot, runner }
  | "type" => value.word.map fun type => { slot, runner := { runner with type } }
  | "face" => value.word32.map fun face => { slot, runner := { runner with face } }
  | "muscle" => value.word32.map fun muscle => { slot, runner := { runner with muscle } }
  | "hacker" => value.word32.map fun hacker => { slot, runner := { runner with hacker } }
  | "ninja" => value.word32.map fun ninja => { slot, runner := { runner with ninja } }
  | _ => .ok assignment

/-- The assignment of a tree. Every field has a default. -/
def ofJson {ε : Type} (json : Json) : Except (Json.Fault ε) Assignment :=
  json.fields fieldNames takeField {}

def toJson (assignment : Assignment) : Json :=
  let runner := assignment.runner
  .record
    [("slot", .nat assignment.slot), ("type", .string (Vocabulary.name runner.type)),
      ("face", .nat runner.face.toNat), ("muscle", .nat runner.muscle.toNat),
      ("hacker", .nat runner.hacker.toNat), ("ninja", .nat runner.ninja.toNat)]

end Assignment

namespace Roster

/-- The roster of a tree: a list of assignments that makes a roster. -/
def ofJson (json : Json) : Except (Json.Fault RosterError) Roster := do
  let assignments ← json.list Assignment.ofJson
  (Roster.ofList assignments).mapError .refused

def toJson (roster : Roster) : Json :=
  .array (roster.toList.map Assignment.toJson)

end Roster

/-- The selection of a tree: a list of ids, each kept where it stands first. -/
def Selection.ofJson {ε : Type} (json : Json) : Except (Json.Fault ε) Selection :=
  (json.list Json.text).map Selection.ofList

namespace Session

/-- The fields of a session, in the order in which they are written. -/
def fieldNames : List String := ["roster", "selection"]

def takeField (name : String) (value : Json) (session : Session) :
    Except (Json.Fault RosterError) Session :=
  match name with
  | "roster" => (Roster.ofJson value).map fun roster => { session with roster }
  | "selection" => (Selection.ofJson value).map fun selection => { session with selection }
  | _ => .ok session

/-- The session of a tree. Both fields have a default. -/
def ofJson (json : Json) : Except (Json.Fault RosterError) Session :=
  json.fields fieldNames takeField {}

def toJson (session : Session) : Json :=
  .record [("roster", session.roster.toJson), ("selection", .strings session.selection.ids)]

def ofText (text : String) : Except (Json.Fault RosterError) Session :=
  let document := Json.read text
  Json.decodeWhole document.value document.complete ofJson

def toText (session : Session) : String :=
  session.toJson.printLine

end Session

end PerkGraph
