import PerkGraph.Contract

/-! # Validation

What is wrong with a contract that can be built. An error blocks something: a rule text that denotes no rule,
a gate that cannot open, a contract without a start. A warning points at data that is ignored or never
matters. Findings are listed for the contract as a whole first, then by node in ascending order of ids, then in
a fixed order of checks.
-/

namespace PerkGraph

/-- A defect that blocks a node, an effect or the whole contract. -/
inductive Defect where
  | noStart
  | badEffect (node : String) (slot : SlotNumber) (raw : String) (error : EffectError)
  | effectsOnGate (node : String)
  | gateWithoutRule (node : String)
  | badGate (node : String) (raw : String) (error : GateError)
  | unknownGateNode (node : String) (listed : String)
deriving DecidableEq

/-- Data that is ignored or never matters. -/
inductive Caution where
  | gateIgnored (node : String) (raw : String) (kind : NodeKind)
  | edgesFromEnd (node : String)
  | thresholdTooHigh (node : String) (threshold listed : Nat)
  | unreachable (node : String)
deriving DecidableEq

def Defect.message : Defect → String
  | noStart => "contract has no start node"
  | badEffect node slot raw error =>
    node ++ ": effect" ++ Text.showNat slot.toNat ++ " '" ++ raw ++ "': " ++ error.message
  | effectsOnGate node => node ++ ": gate node must not carry effects"
  | gateWithoutRule node => node ++ ": gate node has no gate rule"
  | badGate node raw error => node ++ ": gate '" ++ raw ++ "': " ++ error.message
  | unknownGateNode node listed =>
    node ++ ": gate references unknown node '" ++ listed ++ "'"

def Caution.message : Caution → String
  | gateIgnored node raw kind =>
    node ++ ": gate rule '" ++ raw ++ "' ignored on " ++ Vocabulary.name kind ++ " node"
  | edgesFromEnd node => node ++ ": end node has outgoing connections"
  | thresholdTooHigh node threshold listed =>
    node ++ ": gate threshold " ++ Text.showNat threshold ++ " exceeds " ++ Text.showNat listed ++
      " listed nodes and can never hold"
  | unreachable node => node ++ ": unreachable from any start node"

/-- The findings of a validation. -/
structure Validation where
  errors : List Defect
  warnings : List Caution
deriving DecidableEq

namespace Contract

/-! ## Reachability -/

/-- A node that is seen for the first time is one node fewer to see. -/
theorem missing_insert_lt {contract : Contract} {seen : IdSet} {id : String} {node : Node}
    (hnode : contract.node? id = some node) (hseen : id ∉ seen) :
    missing contract.nodes (seen.insert id) < missing contract.nodes seen := by
  obtain ⟨hmem, rfl⟩ := node?_eq_some_iff.1 hnode
  exact missing_lt (fun _ hid => IdSet.mem_insert.2 (.inr hid)) hmem hseen
    (IdSet.mem_insert.2 (.inl rfl))

/-- The ids seen so far, those in the queue, and all that edges lead to from these. -/
def explore (contract : Contract) (queue : List String) (seen : IdSet) : IdSet :=
  match queue with
  | [] => seen
  | id :: rest =>
    if id ∈ seen then explore contract rest seen
    else
      match _found : contract.node? id with
      | none => explore contract rest seen
      | some node => explore contract (rest ++ node.connections) (seen.insert id)
termination_by (missing contract.nodes seen, queue.length)
decreasing_by
  · exact Prod.Lex.right _ (by simp)
  · exact Prod.Lex.right _ (by simp)
  · exact Prod.Lex.left _ _ (missing_insert_lt _found ‹_›)

def starts (contract : Contract) : List String :=
  (contract.nodes.filter fun node => node.kind = .start).map Node.id

/-- The ids that edges lead to from some start, starts included. -/
def reachable (contract : Contract) : IdSet :=
  contract.explore contract.starts .empty

/-! ## Checks on one node -/

/-- The effect texts that denote no effect. -/
def effectDefects (node : Node) : List Defect :=
  node.effects.filterMap fun slot =>
    match slot.effect with
    | .ok _ => none
    | .error error => some (.badEffect node.id slot.slot slot.raw.text error)

/-- The listed ids of a gate rule that name no node. -/
def ruleDefects (contract : Contract) (node : Node) (rule : GateRule) : List Defect :=
  match rule.demand with
  | .nodes ids =>
    (ids.toList.filter fun id => (contract.node? id).isNone).map fun id =>
      .unknownGateNode node.id id
  | _ => []

/-- What keeps a gate from being one. -/
def gateDefects (contract : Contract) (node : Node) : List Defect :=
  (if node.effects = [] then [] else [.effectsOnGate node.id]) ++
    match node.gate with
    | none => [.gateWithoutRule node.id]
    | some raw =>
      match GateRule.read raw.text with
      | .error error => [.badGate node.id raw.text error]
      | .ok rule => contract.ruleDefects node rule

def nodeDefects (contract : Contract) (node : Node) : List Defect :=
  effectDefects node ++ if node.kind = .gate then contract.gateDefects node else []

/-- A gate rule that asks for more nodes than it lists. -/
def ruleCautions (node : Node) (rule : GateRule) : List Caution :=
  match rule.demand with
  | .nodes ids =>
    if rule.threshold > ids.size then
      [.thresholdTooHigh node.id rule.threshold ids.size]
    else []
  | _ => []

/-- The cautions that concern the kind of a node. -/
def kindCautions (node : Node) : List Caution :=
  if node.kind = .gate then
    match node.gateRule with
    | some (.ok rule) => ruleCautions node rule
    | _ => []
  else
    (node.gate.map fun raw => Caution.gateIgnored node.id raw.text node.kind).toList ++
      if node.kind = .finish ∧ node.connections ≠ [] then [.edgesFromEnd node.id] else []

/-- The cautions of one node. -/
def nodeCautions (reachable : IdSet) (node : Node) : List Caution :=
  kindCautions node ++ if node.id ∈ reachable then [] else [.unreachable node.id]

/-! ## Checks on the contract -/

/-- Everything that is wrong with a contract. -/
def validate (contract : Contract) : Validation :=
  let reachable := contract.reachable
  { errors :=
      (if contract.starts = [] then [.noStart] else []) ++
        contract.nodes.flatMap contract.nodeDefects
    warnings := contract.nodes.flatMap (nodeCautions reachable) }

end Contract

namespace Validation

def isOk (validation : Validation) : Bool :=
  validation.errors.isEmpty

/-- The findings, one a line, and a line with their numbers. -/
def text (validation : Validation) : String :=
  Text.lines
    (validation.errors.map (fun error => "error: " ++ error.message) ++
      validation.warnings.map (fun warning => "warning: " ++ warning.message) ++
      ["validate: errors=" ++ Text.showNat validation.errors.length ++ " warnings=" ++
        Text.showNat validation.warnings.length])

end Validation

end PerkGraph
