import PerkGraph.Config
import PerkGraph.Json.Decoder
import PerkGraph.Text.Fields
import PerkGraph.Text.Numeral
import PerkGraph.Toml.Reader

/-! # Stored configurations

Configurations as TOML, and as JSON where one is handed over with a request. Every setting has a default and
unknown settings are skipped.
-/

namespace PerkGraph

/-! ## As JSON -/

namespace PreventionRatios

/-- The settings of the prices. -/
def fieldNames : List String := ["grit_per_damage", "veil_per_risk"]

def takeField {ε : Type} (name : String) (value : Json) (ratios : PreventionRatios) :
    Except (Json.Fault ε) PreventionRatios :=
  match name with
  | "grit_per_damage" => value.word32.map fun gritPerDamage => { ratios with gritPerDamage }
  | "veil_per_risk" => value.word32.map fun veilPerRisk => { ratios with veilPerRisk }
  | _ => .ok ratios

def ofJson {ε : Type} (json : Json) : Except (Json.Fault ε) PreventionRatios :=
  json.fields fieldNames takeField {}

def toJson (ratios : PreventionRatios) : Json :=
  .record
    [("grit_per_damage", .nat ratios.gritPerDamage.toNat),
      ("veil_per_risk", .nat ratios.veilPerRisk.toNat)]

end PreventionRatios

/-- The output settings of a tree. -/
def OutputFormat.ofOutputJson {ε : Type} (json : Json) : Except (Json.Fault ε) OutputFormat :=
  json.fields ["format"] (fun _ value _ => value.word) .text

namespace Config

/-- The sections of a configuration. -/
def fieldNames : List String := ["prevention", "output"]

def takeField {ε : Type} (name : String) (value : Json) (config : Config) :
    Except (Json.Fault ε) Config :=
  match name with
  | "prevention" =>
    (PreventionRatios.ofJson value).map fun prevention => { config with prevention }
  | "output" => (OutputFormat.ofOutputJson value).map fun format => { config with format }
  | _ => .ok config

def ofJson {ε : Type} (json : Json) : Except (Json.Fault ε) Config :=
  json.fields fieldNames takeField {}

def toJson (config : Config) : Json :=
  .record
    [("prevention", config.prevention.toJson),
      ("output", .record [("format", .string (Vocabulary.name config.format))])]

/-! ## As TOML -/

/-- A natural number of 32 bits. -/
def priceOfToml? : Toml → Option UInt32
  | .integer value =>
    if 0 ≤ value ∧ value < 0x100000000 then some (UInt32.ofNat value.toNat) else none
  | _ => none

/-- A format: its name, or a table with the name as its only key and nothing behind it. -/
def formatOfToml? : Toml → Option OutputFormat
  | .string name | .table [(name, .table [])] | .table [(name, .array [])] =>
    Vocabulary.named? name
  | _ => none

/-- The value of a setting: the default where the section does not have it. -/
def setting? {α : Type} (decode : Toml → Option α) (default : α) :
    Option Toml → Option α
  | none => some default
  | some value => decode value

/-- The settings of a section by name, or by position if the section is an array; of an array no more items
are looked at than there are settings. A date or a time is a section without settings. -/
def settings? (names : List String) : Option Toml → Option (String → Option Toml)
  | none | some .datetime => some fun _ => none
  | some (.table fields) =>
    if Toml.fieldsReadable fields then some fun name => fields.lookup name else none
  | some (.array items) => some fun name => (names.zip items).lookup name
  | some _ => none

/-- The configuration of a TOML table. What is behind other keys is not used, but it is looked at. -/
def ofTable? (table : List (String × Toml)) : Option Config := do
  guard (table.all fun field => field.1 ∈ fieldNames || field.2.isReadable)
  let ratios ← settings? PreventionRatios.fieldNames (table.lookup "prevention")
  let output ← settings? ["format"] (table.lookup "output")
  let gritPerDamage ← setting? priceOfToml? 2 (ratios "grit_per_damage")
  let veilPerRisk ← setting? priceOfToml? 2 (ratios "veil_per_risk")
  let format ← setting? formatOfToml? .text (output "format")
  return { prevention := { gritPerDamage, veilPerRisk }, format }

/-- The configuration of a TOML text. -/
def ofText? (text : String) : Option Config :=
  (Toml.read? text).bind ofTable?

/-- The TOML text of a configuration, ended by an empty line. -/
def toText (config : Config) : String :=
  Text.lines
    ["[prevention]",
      "grit_per_damage = " ++ Text.showNat config.prevention.gritPerDamage.toNat,
      "veil_per_risk = " ++ Text.showNat config.prevention.veilPerRisk.toNat,
      "",
      "[output]",
      "format = \"" ++ Vocabulary.name config.format ++ "\"",
      ""]

end Config

end PerkGraph
