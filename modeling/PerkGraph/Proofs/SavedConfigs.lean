import PerkGraph.Proofs.FileReplacement
import PerkGraph.Proofs.StoredForms
import PerkGraph.Proofs.TomlText

/-!
# Saved configurations

A configuration is written by one rule and read by another: the writer puts every setting into a plain document, the
reader takes any document and fills in what is missing. What is written is read back (`Config.ofText?_toText`). Both
ways the prices are checked, so a configuration is saved and loaded again if and only if its prices are positive, and
one that is refused leaves the disk as it was (`Config.saves_priced`).
-/

namespace PerkGraph

namespace Config

/-! ## The text of a configuration -/

/-- The sections of a configuration, every setting written out. -/
def parts (config : Config) : List Toml.Part :=
  [{ name := "prevention"
     settings :=
      [("grit_per_damage", .number config.prevention.gritPerDamage.toNat),
        ("veil_per_risk", .number config.prevention.veilPerRisk.toNat)] },
    { name := "output", settings := [("format", .word (Vocabulary.name config.format))] }]

theorem text_parts (config : Config) : Toml.Part.text config.parts = config.toText := by
  have hformat : "format = " ++ ("\"" ++ Vocabulary.name config.format ++ "\"") =
      "format = \"" ++ Vocabulary.name config.format ++ "\"" := by
    rw [← String.append_assoc, ← String.append_assoc]
    rfl
  simp [toText, parts, Toml.Part.text, Toml.Part.lines, Toml.Line.text, Toml.Plain.text, Text.lines, hformat]

/-- All 32 bits of a price are fewer than 128. -/
theorem isPlain_number (price : UInt32) : (Toml.Plain.number price.toNat).IsPlain :=
  price.toNat_lt.trans (by decide)

theorem isPlain_name (format : OutputFormat) : (Toml.Plain.word (Vocabulary.name format)).IsPlain := by
  unfold Toml.Plain.IsPlain
  cases format <;> decide

theorem isPlain_parts (config : Config) : ∀ part ∈ config.parts, part.IsPlain := by
  have hname : Toml.IsBareKey "prevention" ∧ Toml.IsBareKey "output" := by decide
  have hkey : Toml.IsBareKey "grit_per_damage" ∧ Toml.IsBareKey "veil_per_risk" ∧ Toml.IsBareKey "format" := by
    decide
  rw [parts, List.forall_mem_cons, List.forall_mem_singleton]
  constructor
  · refine { name := hname.1, settings := ?_, distinct := by simp }
    rw [List.forall_mem_cons, List.forall_mem_singleton]
    exact ⟨⟨hkey.1, isPlain_number _⟩, hkey.2.1, isPlain_number _⟩
  · refine { name := hname.2, settings := ?_, distinct := by simp }
    rw [List.forall_mem_singleton]
    exact ⟨hkey.2.2, isPlain_name config.format⟩

theorem setting?_price (price default : UInt32) :
    setting? priceOfToml? default (some (.integer price.toNat)) = some price := by
  have hlt := price.toNat_lt
  rw [setting?, priceOfToml?, if_pos (by omega), Int.toNat_natCast, UInt32.ofNat_toNat]

instance : Vocabulary.IsNamed OutputFormat := ⟨fun a => by cases a <;> decide⟩

theorem setting?_format (format default : OutputFormat) :
    setting? formatOfToml? default (some (.string (Vocabulary.name format))) = some format := by
  rw [setting?, formatOfToml?, Vocabulary.IsNamed.named?_name]

theorem read?_toText (config : Config) :
    Toml.read? config.toText = some (config.parts.map fun part => (part.name, part.toToml)) := by
  have hnames : (config.parts.map Toml.Part.name).Nodup := by
    simp [parts]
  rw [← text_parts]
  exact Toml.read?_text config.isPlain_parts hnames

/-- What the reader looks at, one thing after another. -/
theorem ofTable?_eq_some {table : List (String × Toml)} {ratios output : String → Option Toml}
    {gritPerDamage veilPerRisk : UInt32} {format : OutputFormat}
    (hknown : ∀ field ∈ table, field.1 ∈ fieldNames)
    (hratios : settings? PreventionRatios.fieldNames (table.lookup "prevention") = some ratios)
    (houtput : settings? ["format"] (table.lookup "output") = some output)
    (hgrit : setting? priceOfToml? 2 (ratios "grit_per_damage") = some gritPerDamage)
    (hveil : setting? priceOfToml? 2 (ratios "veil_per_risk") = some veilPerRisk)
    (hformat : setting? formatOfToml? .text (output "format") = some format) :
    ofTable? table = some { prevention := { gritPerDamage, veilPerRisk }, format } := by
  have hguard : (guard (table.all fun field => field.1 ∈ fieldNames || field.2.isReadable) : Option Unit) =
      some () := by
    refine if_pos (List.all_eq_true.2 fun field hfield => ?_)
    simp [hknown field hfield]
  rw [ofTable?, hguard]
  simp [hratios, houtput, hgrit, hveil, hformat]

theorem ofTable?_parts (config : Config) :
    ofTable? (config.parts.map fun part => (part.name, part.toToml)) = some config := by
  refine ofTable?_eq_some ?_ rfl rfl ?_ ?_ ?_
  · simp [parts, fieldNames]
  · exact setting?_price config.prevention.gritPerDamage 2
  · exact setting?_price config.prevention.veilPerRisk 2
  · exact setting?_format config.format .text

/-- **What is written is read back**, prices of 0 included: it is not the text that refuses them. -/
theorem ofText?_toText (config : Config) : ofText? config.toText = some config := by
  rw [ofText?, read?_toText, Option.bind_some, ofTable?_parts]

/-! ## Configurations in files -/

/-- Both prices are positive. -/
def IsPriced (config : Config) : Prop :=
  config.prevention.gritPerDamage ≠ 0 ∧ config.prevention.veilPerRisk ≠ 0

variable {config : Config} {disk after : Disk} {path : String}

theorem validate_eq_ok_iff : config.validate = .ok () ↔ config.IsPriced := by
  unfold validate IsPriced
  by_cases hgrit : config.prevention.gritPerDamage = 0
  · simp [hgrit]
  · by_cases hveil : config.prevention.veilPerRisk = 0
    · simp [hgrit, hveil]
    · simp [hgrit, hveil]

theorem exists_error_of_not_isPriced (h : ¬config.IsPriced) : ∃ error, config.validate = .error error := by
  cases hvalidate : config.validate with
  | ok => exact absurd (validate_eq_ok_iff.1 hvalidate) h
  | error error => exact ⟨error, rfl⟩

theorem ofStored_eq_ok_iff {text : String} :
    ofStored path text = .ok config ↔ ofText? text = some config ∧ config.IsPriced := by
  unfold ofStored
  cases ofText? text with
  | none => simp [Stored.ofCause, bind, Except.bind]
  | some found =>
    have hok : Stored.ofCause ("parse " ++ path) (fun _ => .toml) (Option.elim (some found) (.error ()) .ok) =
        .ok found := rfl
    rw [hok]
    by_cases hpriced : found.IsPriced
    · simp only [validate_eq_ok_iff.2 hpriced, Stored.ofCause, bind, Except.bind, pure, Except.pure,
        Except.ok.injEq, Option.some.injEq]
      exact ⟨fun heq => ⟨heq, heq ▸ hpriced⟩, And.left⟩
    · obtain ⟨error, herror⟩ := exists_error_of_not_isPriced hpriced
      simp only [herror, Stored.ofCause, bind, Except.bind, Option.some.injEq, reduceCtorEq, false_iff, not_and]
      rintro rfl
      exact hpriced

/-- Whatever a file holds, and also where there is none, a configuration that is loaded is priced. -/
theorem isPriced_of_load (h : (load path).runOn disk = (.ok config, after)) : after = disk ∧ config.IsPriced := by
  rw [runOn_load, Prod.mk.injEq] at h
  obtain ⟨hloaded, rfl⟩ := h
  refine ⟨rfl, ?_⟩
  unfold Disk.loaded at hloaded
  split at hloaded
  · split at hloaded
    · exact (ofStored_eq_ok_iff.1 hloaded).2
    · cases hloaded
  · obtain rfl := Except.ok.inj hloaded
    exact ⟨by decide, by decide⟩

theorem load_of_readText (hpriced : config.IsPriced) (h : disk.readText path = .ok config.toText) :
    (load path).runOn disk = (.ok config, disk) := by
  rw [runOn_load, Disk.loaded_of_readText h, ofStored_eq_ok_iff.2 ⟨ofText?_toText config, hpriced⟩]

theorem runOn_save_of_isPriced (hpriced : config.IsPriced) :
    (config.save path).runOn disk = (replaceFile path config.toText).runOn disk := by
  rw [save, validate_eq_ok_iff.2 hpriced]
  exact StoreT.runOn_bind_of_ok (StoreT.runOn_ofStored (.ok ()) disk)

theorem runOn_save_of_error {error : ConfigError} (h : config.validate = .error error) :
    (config.save path).runOn disk = (.error { cause := .config error }, disk) := by
  rw [save, h, StoreT.runOn_bind]
  rfl

/-- **Only priced configurations are in files.** Where a file can be written, every configuration with positive
prices can be saved, is loaded as the same configuration, and the file can be written again. A configuration with a
price of 0 is refused for it, wherever it is to be saved, and the disk stays as it is. And whatever is loaded, from
whatever file or where there is none, has positive prices. -/
theorem saves_priced (disk : Disk) (path : String) :
    (∀ config : Config, config.IsPriced → disk.Accepts path →
      ∃ after, (config.save path).runOn disk = (.ok (), after) ∧
        (load path).runOn after = (.ok config, after) ∧ after.Accepts path) ∧
    (∀ config : Config, ¬config.IsPriced →
      ∃ error, config.validate = .error error ∧
        (config.save path).runOn disk = (.error { cause := .config error }, disk)) ∧
    ∀ config after, (load path).runOn disk = (.ok config, after) → after = disk ∧ config.IsPriced := by
  refine ⟨fun config hpriced haccepts => ?_, fun config hpriced => ?_, fun config after => isPriced_of_load⟩
  · obtain ⟨after, hsave, hread, hagain⟩ := haccepts.exists_replaceFile config.toText
    exact ⟨after, (runOn_save_of_isPriced hpriced).trans hsave, load_of_readText hpriced hread, hagain⟩
  · obtain ⟨error, herror⟩ := exists_error_of_not_isPriced hpriced
    exact ⟨error, herror, runOn_save_of_error herror⟩

/-- A file with a price of 0 is not loaded, but the highest price can take its place. -/
theorem saves_priced_highest :
    let disk : Disk := { entries := [(["contract.toml"], .file "[prevention]\nveil_per_risk = 0\n")] }
    let free : Config := { prevention := { veilPerRisk := 0 } }
    let config : Config := { prevention := { gritPerDamage := 4294967295, veilPerRisk := 1 }, format := .json }
    disk.Accepts "contract.toml" ∧
    (load "contract.toml").runOn disk =
      (.error { contexts := ["validate contract.toml"], cause := .config .freeVeil }, disk) ∧
    (∃ error, (free.save "contract.toml").runOn disk = (.error { cause := .config error }, disk)) ∧
    ∃ after, (config.save "contract.toml").runOn disk = (.ok (), after) ∧
      (load "contract.toml").runOn after = (.ok config, after) := by
  intro disk free config
  have hcan : disk.CanReplace "contract.toml" ["contract.toml"] ["contract.toml.tmp"] :=
    .of_parent_eq_empty (by decide +kernel) rfl rfl nofun
  have haccepts : disk.Accepts "contract.toml" := hcan.accepts
  have hload : (load "contract.toml").runOn disk =
      (.error { contexts := ["validate contract.toml"], cause := .config .freeVeil }, disk) := by
    decide +kernel
  obtain ⟨hsaves, hrefuses, -⟩ := saves_priced disk "contract.toml"
  obtain ⟨after, hsave, hback, -⟩ := hsaves config ⟨by decide, by decide⟩ haccepts
  obtain ⟨error, -, herror⟩ := hrefuses free fun h => h.2 rfl
  exact ⟨haccepts, hload, ⟨error, herror⟩, after, hsave, hback⟩

end Config

end PerkGraph
