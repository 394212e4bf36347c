import PerkGraph.Prevention
import PerkGraph.Vocabulary

/-! # Configuration

The prices of prevention and the form of reports. A price of 0 can be expressed, but a configuration that
is stored must not have one.
-/

namespace PerkGraph

inductive OutputFormat where
  | text
  | json
deriving DecidableEq, Repr

instance : Vocabulary OutputFormat where
  all := [.text, .json]
  name
    | .text => "text"
    | .json => "json"

structure Config where
  prevention : PreventionRatios := {}
  format : OutputFormat := .text
deriving DecidableEq

/-- Why a configuration must not be stored. -/
inductive ConfigError where
  | freeGrit
  | freeVeil
deriving DecidableEq

def ConfigError.message : ConfigError → String
  | freeGrit => "prevention.grit_per_damage must be > 0"
  | freeVeil => "prevention.veil_per_risk must be > 0"

/-- Passes a configuration whose prices are all positive. -/
def Config.validate (config : Config) : Except ConfigError Unit :=
  if config.prevention.gritPerDamage = 0 then .error .freeGrit
  else if config.prevention.veilPerRisk = 0 then .error .freeVeil
  else .ok ()

end PerkGraph
