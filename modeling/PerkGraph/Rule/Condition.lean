import PerkGraph.Points
import PerkGraph.Runner
import PerkGraph.Node.Kind

/-! # Conditions

What an effect waits for, and its text `Kind` or `Kind:Value`. Reading accepts names in any letter case
and blanks around every part; writing uses the canonical names, and lists colors in their canonical order.
-/

namespace PerkGraph

/-! ## Comparisons -/

/-- How a runner stat is compared with a number. -/
inductive Comparison where
  | greater
  | less
  | equal
  | greaterOrEqual
  | lessOrEqual
deriving DecidableEq, Repr

namespace Comparison

/-- The characters that comparison signs are made of. -/
def isSignChar (c : Char) : Bool :=
  c == '<' || c == '>' || c == '='

def sign : Comparison → String
  | greater => ">"
  | less => "<"
  | equal => "="
  | greaterOrEqual => ">="
  | lessOrEqual => "<="

def ofSign? (s : String) : Option Comparison :=
  [greater, less, equal, greaterOrEqual, lessOrEqual].find? fun comparison => comparison.sign == s

/-- The left number compares in this way with the right one. -/
def holds (comparison : Comparison) (left right : Int) : Bool :=
  match comparison with
  | greater => left > right
  | less => left < right
  | equal => left = right
  | greaterOrEqual => left ≥ right
  | lessOrEqual => left ≤ right

end Comparison

/-! ## Kinds -/

/-- Kinds of condition whose meaning is settled outside the rules, by whoever runs the contract. -/
inductive ExtensionKind where
  | prevDam
  | prevRisk
  | riskDamPair
  | colorForEach
deriving DecidableEq, Repr

instance : Vocabulary ExtensionKind where
  all := [.prevDam, .prevRisk, .riskDamPair, .colorForEach]
  name
    | .prevDam => "PrevDam"
    | .prevRisk => "PrevRisk"
    | .riskDamPair => "RiskDamPair"
    | .colorForEach => "ColorForEach"

/-- The word in front of a condition's colon. -/
inductive ConditionKind where
  | always
  | runnerType
  | runnerStat
  | nodeColor
  | nodeColorCombo
  | extension (kind : ExtensionKind)
deriving DecidableEq, Repr

instance : Vocabulary ConditionKind where
  all := [.always, .runnerType, .runnerStat, .nodeColor, .nodeColorCombo] ++
    (Vocabulary.all : List ExtensionKind).map .extension
  name
    | .always => "None"
    | .runnerType => "RunnerType"
    | .runnerStat => "RunnerStat"
    | .nodeColor => "NodeColor"
    | .nodeColorCombo => "NodeColorCombo"
    | .extension kind => Vocabulary.name kind

/-! ## Conditions -/

/-- What an effect waits for. -/
inductive Condition where
  /-- Nothing; written `None`. -/
  | always
  /-- A runner of this type fills a slot. -/
  | runnerType (type : RunnerType)
  /-- The team's total of a stat compares with a number. -/
  | runnerStat (stat : RunnerStat) (comparison : Comparison) (value : Points)
  /-- Another selected node has this color. -/
  | nodeColor (color : NodeColor)
  /-- Each of these colors is among the selected nodes. -/
  | nodeColorCombo (colors : List NodeColor)
  /-- Whatever the extension says. -/
  | extension (kind : ExtensionKind) (argument : Option String)
deriving DecidableEq

/-- Why a text is no condition. -/
inductive ConditionError where
  /-- The kind is known or missing, but the text does not fit it. -/
  | malformed (text : String)
  /-- No condition has this kind. -/
  | unknownKind (kind : String)
deriving DecidableEq

/-- The sentence that names a condition kind nobody knows. -/
def unknownKindMessage (kind : String) : String :=
  "unknown condition kind '" ++ kind ++ "'"

namespace ConditionError

def message : ConditionError → String
  | malformed text => "malformed condition '" ++ text ++ "'"
  | unknownKind kind => unknownKindMessage kind

/-- The part of the text that is to blame. -/
def fragment : ConditionError → String
  | malformed text => text
  | unknownKind kind => kind

end ConditionError

namespace Condition

/-! ## Writing -/

/-- The canonical text of a condition. -/
def text : Condition → String
  | always => "None"
  | runnerType type => "RunnerType:" ++ Vocabulary.name type
  | runnerStat stat comparison value =>
    "RunnerStat:" ++ Vocabulary.name stat ++ comparison.sign ++ value.numeral
  | nodeColor color => "NodeColor:" ++ Vocabulary.name color
  | nodeColorCombo colors => "NodeColorCombo:" ++ Text.join "," (colors.map Vocabulary.name)
  | extension kind none => Vocabulary.name kind
  | extension kind (some argument) => Vocabulary.name kind ++ ":" ++ argument

/-! ## Reading -/

/-- A stat, a comparison sign and a number. The sign is the longest run of sign characters from the
first one, so `=>` is no sign although it begins with one. -/
def readRunnerStat? (value : String) : Option Condition := do
  let cs := value.toList
  let stat := cs.takeWhile fun c => !Comparison.isSignChar c
  let rest := cs.dropWhile fun c => !Comparison.isSignChar c
  let sign := rest.takeWhile Comparison.isSignChar
  let number := rest.dropWhile Comparison.isSignChar
  let stat ← Vocabulary.read? (String.ofList stat)
  let comparison ← Comparison.ofSign? (String.ofList sign)
  let number ← Points.read? (Text.trim (String.ofList number))
  return runnerStat stat comparison number

/-- The condition of a kind that asks for a value, from that value. -/
def readValue? (kind : ConditionKind) (value : String) : Option Condition :=
  match kind with
  | .runnerType => (Vocabulary.read? value).map runnerType
  | .runnerStat => readRunnerStat? value
  | .nodeColor => (Vocabulary.read? value).map nodeColor
  | .nodeColorCombo =>
    ((Text.split ',' value).mapM Vocabulary.read?).map fun colors =>
      nodeColorCombo (Vocabulary.inOrder colors)
  | .always | .extension _ => none

/-- The kind and the value of a condition text, both trimmed. Without a colon there is no value. -/
def parts (trimmed : String) : String × Option String :=
  match Text.cut ':' trimmed with
  | some (kind, value) => (Text.trim kind, some (Text.trim value))
  | none => (trimmed, none)

/-- The condition of a known kind. An extension may have a value, `None` must not even have a colon, and
the other kinds need a value that is not blank. -/
def ofParts? (kind : ConditionKind) (value : Option String) : Option Condition :=
  match kind, value with
  | .extension kind, value => some (extension kind (value.filter fun argument => argument ≠ ""))
  | .always, none => some always
  | kind, some value => if value = "" then none else readValue? kind value
  | _, none => none

/-- The condition that a text denotes. -/
def read (raw : String) : Except ConditionError Condition :=
  let trimmed := Text.trim raw
  let (kind, value) := parts trimmed
  if kind = "" then .error (.malformed trimmed)
  else match Vocabulary.read? kind with
    | none => .error (.unknownKind kind)
    | some known =>
      match ofParts? known value with
      | none => .error (.malformed trimmed)
      | some condition => .ok condition

end Condition

end PerkGraph
