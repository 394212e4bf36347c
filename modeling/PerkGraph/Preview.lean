import PerkGraph.Config
import PerkGraph.PoolReport
import PerkGraph.Session

/-! # Previews

Everything there is to show about a contract and a session: which nodes are in effect, the state of every
node, and the pools with their trace.
-/

namespace PerkGraph

/-- What a session makes of a contract. -/
structure Preview where
  contract : String
  /-- The ids in effect. -/
  selected : IdSet
  /-- The state of every node, in ascending order of ids. -/
  availability : List (String × NodeState)
  report : PoolReport
deriving DecidableEq

/-- The preview of a session. Extensions are left unresolved. -/
def Contract.preview (contract : Contract) (session : Session) (config : Config) : Preview where
  contract := contract.name
  selected := contract.effective session.roster session.selection
  availability := contract.availability session.roster session.selection
  report :=
    contract.poolReport session.roster session.selection config.prevention .unresolved

/-! ## As text -/

/-- What became of an effect, in words. -/
def EffectOutcome.text : EffectOutcome → String
  | .applied stat before after =>
    "applied " ++ Vocabulary.name stat ++ " " ++ before.numeral ++ "->" ++ after.numeral
  | .conditionNotMet => "condition-not-met"
  | .failed failure => "error " ++ failure.message

namespace Preview

def nodeLine (entry : String × NodeState) : String :=
  "node: " ++ entry.1 ++ " " ++ Vocabulary.name entry.2

def poolLine (report : PoolReport) (stat : Stat) : String :=
  "pool: " ++ Vocabulary.name stat ++ " raw=" ++ (report.raw.get stat).numeral ++ " final=" ++
    (report.pools.get stat).numeral

def preventionLines (prevention : Prevention) : List String :=
  ["prevention: damage=" ++ prevention.damagePrevented.numeral ++ " grit_consumed=" ++
      prevention.gritConsumed.numeral ++ " grit_remaining=" ++ prevention.gritRemaining.numeral,
    "prevention: risk=" ++ prevention.riskPrevented.numeral ++ " veil_consumed=" ++
      prevention.veilConsumed.numeral ++ " veil_remaining=" ++ prevention.veilRemaining.numeral]

def traceLine (entry : TraceEntry) : String :=
  "trace: " ++ entry.node ++ " effect" ++ Text.showNat entry.slot.toNat ++ " '" ++ entry.raw ++ "' " ++
    entry.content.text

/-- The facts of a preview, in the order in which they are shown. -/
def facts (preview : Preview) : List String :=
  ["contract: " ++ preview.contract, "selected: " ++ Text.join "," preview.selected.toList] ++
    preview.availability.map nodeLine ++
    Vocabulary.all.map (poolLine preview.report) ++
    preventionLines preview.report.prevention ++
    preview.report.trace.map traceLine

/-- The preview as text, one fact a line. -/
def text (preview : Preview) : String :=
  Text.lines preview.facts

end Preview

end PerkGraph
