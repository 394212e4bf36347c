import PerkGraph.Ascending
import PerkGraph.Points
import PerkGraph.Runner
import PerkGraph.Node.Kind

/-! # Gate rules

What a gate asks for before it opens, and its text `Kind:Params;Threshold`:

- `Node:a,b;T` asks for `T` of the listed nodes, or for all of them if `T` is 0;
- `RunnerType:x,y;T` asks for `T` runners of the listed types;
- `RunnerStat:x,y;T` asks that the listed stats of the team come to `T`.

Node ids are listed once; a repeated type or stat counts once.
-/

namespace PerkGraph

/-- What a gate counts. -/
inductive GateDemand where
  | nodes (ids : IdSet)
  | runnerTypes (types : List RunnerType)
  | runnerStats (stats : List RunnerStat)
deriving DecidableEq

/-- What a gate asks for: a count or a sum that reaches a threshold. -/
structure GateRule where
  demand : GateDemand
  threshold : Nat
deriving DecidableEq

inductive GateError where
  | fieldCount (text : String)
  | missingKind (head : String)
  | unknownKind (kind : String)
  | emptyParameters (head : String)
  | threshold (field : String)
  | negativeThreshold (field : String)
  | unknownRunnerType (item : String)
  | unknownStat (item : String)
  | invalidNodeId (item : String)
  | duplicateNodeId (item : String)
deriving DecidableEq

namespace GateError

def message : GateError → String
  | fieldCount text => "expected 'Kind:Params;Threshold' but got '" ++ text ++ "'"
  | missingKind head => "missing ':' between kind and parameters in '" ++ head ++ "'"
  | unknownKind kind =>
    "unknown gate kind '" ++ kind ++ "' (expected Node, RunnerType or RunnerStat)"
  | emptyParameters head => "empty parameter list in '" ++ head ++ "'"
  | threshold field => "threshold '" ++ field ++ "' is not an integer"
  | negativeThreshold field => "threshold '" ++ field ++ "' must not be negative"
  | unknownRunnerType item => "unknown runner type '" ++ item ++ "'"
  | unknownStat item => "unknown runner stat '" ++ item ++ "'"
  | invalidNodeId item => "invalid node id '" ++ item ++ "' (expected [A-Za-z0-9_-]+)"
  | duplicateNodeId item => "node id '" ++ item ++ "' is listed more than once"

/-- The part of the text that is to blame. -/
def fragment : GateError → String
  | fieldCount part | missingKind part | unknownKind part | emptyParameters part | threshold part
  | negativeThreshold part | unknownRunnerType part | unknownStat part | invalidNodeId part
  | duplicateNodeId part => part

end GateError

/-- The word in front of a gate rule's colon. -/
inductive GateKind where
  | node
  | runnerType
  | runnerStat
deriving DecidableEq, Repr

instance : Vocabulary GateKind where
  all := [.node, .runnerType, .runnerStat]
  name
    | .node => "Node"
    | .runnerType => "RunnerType"
    | .runnerStat => "RunnerStat"

namespace GateDemand

/-- The word for what is counted. -/
def kind : GateDemand → GateKind
  | nodes _ => .node
  | runnerTypes _ => .runnerType
  | runnerStats _ => .runnerStat

/-- The names of what is counted, in canonical order. -/
def items : GateDemand → List String
  | nodes ids => ids.toList
  | runnerTypes types => types.map Vocabulary.name
  | runnerStats stats => stats.map Vocabulary.name

/-- Ids listed once each, on top of those already listed. -/
def readIds : List String → IdSet → Except GateError IdSet
  | [], listed => .ok listed
  | item :: rest, listed =>
    if !isNodeId item then .error (.invalidNodeId item)
    else if item ∈ listed then .error (.duplicateNodeId item)
    else readIds rest (listed.insert item)

/-- Words of a vocabulary, the first text that names none of them being the error. -/
def readWords {α : Type} [Vocabulary α] (unknown : String → GateError) :
    List String → Except GateError (List α)
  | [] => .ok []
  | item :: rest => do
    let some word := Vocabulary.read? item | .error (unknown item)
    return word :: (← readWords unknown rest)

/-- What a gate of the given kind counts, from the trimmed items of its list. -/
def ofItems (kind : GateKind) (items : List String) : Except GateError GateDemand :=
  match kind with
  | .node => (readIds items .empty).map nodes
  | .runnerType =>
    (readWords .unknownRunnerType items).map fun types => runnerTypes (Vocabulary.inOrder types)
  | .runnerStat =>
    (readWords .unknownStat items).map fun stats => runnerStats (Vocabulary.inOrder stats)

/-- What a gate counts, from the trimmed text before the semicolon. -/
def read (head : String) : Except GateError GateDemand := do
  let some (kind, params) := Text.cut ':' head | .error (.missingKind head)
  let kind := Text.trim kind
  let params := Text.trim params
  if kind = "" then .error (.missingKind head)
  else if params = "" then .error (.emptyParameters head)
  else match Vocabulary.read? kind with
    | none => .error (.unknownKind kind)
    | some known => ofItems known ((Text.split ',' params).map Text.trim)

end GateDemand

namespace GateRule

/-- The canonical text of a gate rule. -/
def text (rule : GateRule) : String :=
  Vocabulary.name rule.demand.kind ++ ":" ++ Text.join "," rule.demand.items ++ ";" ++
    Text.showNat rule.threshold

/-- A threshold: a numeral from 0 to 2^32 - 1. -/
def readThreshold (field : String) : Except GateError Nat :=
  match Points.read? field with
  | none => .error (.threshold field)
  | some value =>
    if value.val < 0 then .error (.negativeThreshold field)
    else if value.val < 0x100000000 then .ok value.val.toNat
    else .error (.threshold field)

/-- The gate rule that a text denotes. The threshold is looked at before the rest. -/
def read (raw : String) : Except GateError GateRule :=
  let trimmed := Text.trim raw
  match Text.split ';' trimmed with
  | [head, threshold] => do
    let threshold ← readThreshold (Text.trim threshold)
    let demand ← GateDemand.read (Text.trim head)
    return { demand, threshold }
  | _ => .error (.fieldCount trimmed)

end GateRule

end PerkGraph
