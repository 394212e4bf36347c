import Mathlib.Algebra.GroupWithZero.Nat
import Mathlib.Algebra.Order.BigOperators.Group.List
import Mathlib.Algebra.Order.Group.Nat
import Mathlib.Data.List.Forall2
import PerkGraph.Preview
import PerkGraph.Proofs.CleanContracts
import PerkGraph.Proofs.EffectGrammar
import PerkGraph.Proofs.LeastSelection

/-!
# Previews as text

The text of a preview is made to be read line by line: a line begins with a label that says what fact it holds, and
there are as many lines as facts (`Preview.IsLineByLine`). Ids, numbers and words never break a line. What the author
of a contract writes freely may: the name of the contract, and the text of an effect, which is shown as it was written,
and again, as a whole or in part, where it is to blame for a failure. Each newline in these makes one more line, and
there are no others (`Contract.breaks_text`).

The main statements: the facts are labelled in order, and the text is line by line exactly if neither the name of the
contract nor the text of an effect in the trace has a newline (`Contract.isLineByLine_preview`). A contract without
defects may fail that (`Contract.not_isLineByLine_preview`).
-/

namespace PerkGraph

instance : Vocabulary.IsLegible NodeState :=
  Vocabulary.isLegible_of_all (fun a => by cases a <;> decide) (by decide)

instance : Vocabulary.IsLegible ExtensionKind :=
  Vocabulary.isLegible_of_all (fun a => by cases a <;> decide) (by decide)

/-! ## Lines -/

namespace Text

/-- How many newlines a text has. -/
def breaks (s : String) : Nat :=
  s.toList.count '\n'

/-- The text is all on one line. -/
def IsUnbroken (s : String) : Prop :=
  '\n' ∉ s.toList

instance (s : String) : Decidable (IsUnbroken s) :=
  inferInstanceAs (Decidable ('\n' ∉ s.toList))

/-- The text has these lines, each ended by a newline. -/
structure HasLines (s : String) (xs : List String) : Prop where
  unbroken : ∀ x ∈ xs, IsUnbroken x
  joined : lines xs = s

/-- The line begins with the label. -/
def Begins (line label : String) : Prop :=
  label.toList <+: line.toList

instance (line label : String) : Decidable (Begins line label) :=
  inferInstanceAs (Decidable (label.toList <+: line.toList))

theorem Begins.append {line label : String} (h : Begins line label) (rest : String) :
    Begins (line ++ rest) label := by
  rw [Begins, String.toList_append]
  exact h.trans (List.prefix_append _ _)

theorem begins_append (label rest : String) : Begins (label ++ rest) label :=
  .append List.prefix_rfl rest

variable {s t : String} {xs : List String}

theorem breaks_eq_zero_iff : breaks s = 0 ↔ IsUnbroken s :=
  List.count_eq_zero

@[simp] theorem breaks_append : breaks (s ++ t) = breaks s + breaks t := by
  simp only [breaks, String.toList_append, List.count_append]

@[simp] theorem isUnbroken_append : IsUnbroken (s ++ t) ↔ IsUnbroken s ∧ IsUnbroken t := by
  simp only [IsUnbroken, String.toList_append, List.mem_append, not_or]

/-- The texts around another are mostly fixed ones. -/
theorem isUnbroken_quoted {before after : String} (h : IsUnbroken s)
    (hbefore : IsUnbroken before := by simp [PerkGraph.Text.IsUnbroken])
    (hafter : IsUnbroken after := by simp [PerkGraph.Text.IsUnbroken]) : IsUnbroken (before ++ s ++ after) :=
  isUnbroken_append.2 ⟨isUnbroken_append.2 ⟨hbefore, h⟩, hafter⟩

theorem breaks_quoted {before after : String} (hbefore : IsUnbroken before := by simp [PerkGraph.Text.IsUnbroken])
    (hafter : IsUnbroken after := by simp [PerkGraph.Text.IsUnbroken]) : breaks (before ++ s ++ after) = breaks s := by
  rw [breaks_append, breaks_append, breaks_eq_zero_iff.2 hbefore, breaks_eq_zero_iff.2 hafter,
    Nat.zero_add, Nat.add_zero]

theorem IsExcerpt.isUnbroken (h : IsExcerpt s t) (ht : IsUnbroken t) : IsUnbroken s :=
  fun hmem => ht (h.subset hmem)

theorem isUnbroken_of_isNodeId (h : isNodeId s = true) : IsUnbroken s :=
  not_mem_of_isNodeId h (by decide)

theorem isUnbroken_join {sep : String} (hsep : IsUnbroken sep) (h : ∀ x ∈ xs, IsUnbroken x) :
    IsUnbroken (join sep xs) := by
  intro hmem
  rcases mem_toList_join hmem with hmem | ⟨x, hx, hmem⟩
  · exact hsep hmem
  · exact h x hx hmem

/-- A newline ends each of the texts, and the others stand in them. -/
theorem breaks_lines (xs : List String) : breaks (lines xs) = xs.length + (xs.map breaks).sum := by
  induction xs with
  | nil => rfl
  | cons s rest ih =>
    have hnewline : breaks "\n" = 1 := by decide
    rw [lines, breaks_append, breaks_append, ih, hnewline, List.length_cons, List.map_cons,
      List.sum_cons]
    omega

theorem sum_breaks_eq_zero_iff : (xs.map breaks).sum = 0 ↔ ∀ x ∈ xs, IsUnbroken x := by
  simp only [List.sum_eq_zero_iff, List.forall_mem_map, breaks_eq_zero_iff]

theorem HasLines.breaks_eq (h : HasLines s xs) : breaks s = xs.length := by
  rw [← h.joined, breaks_lines, sum_breaks_eq_zero_iff.2 h.unbroken, Nat.add_zero]

end Text

/-! ## Words, numbers and messages -/

theorem isUnbroken_name {α : Type} [Vocabulary α] [Vocabulary.IsLegible α] (a : α) :
    Text.IsUnbroken (Vocabulary.name a) :=
  Text.isUnbroken_of_isNodeId (Vocabulary.IsLegible.isNodeId_name a)

theorem Points.isUnbroken_numeral (p : Points) : Text.IsUnbroken p.numeral :=
  Text.isUnbroken_of_isNodeId (isNodeId_numeral p)

theorem ArithmeticError.isUnbroken_message (error : ArithmeticError) :
    Text.IsUnbroken error.message := by
  cases error with
  | divisionByZero =>
    show Text.IsUnbroken "division by zero"
    simp [Text.IsUnbroken]
  | overflow =>
    show Text.IsUnbroken "integer overflow"
    simp [Text.IsUnbroken]

theorem isUnbroken_unknownKindMessage {kind : String} (h : Text.IsUnbroken kind) :
    Text.IsUnbroken (unknownKindMessage kind) :=
  Text.isUnbroken_quoted h

theorem ConditionError.isUnbroken_message {error : ConditionError}
    (h : Text.IsUnbroken error.fragment) : Text.IsUnbroken error.message := by
  cases error with
  | malformed text => exact Text.isUnbroken_quoted h
  | unknownKind kind => exact isUnbroken_unknownKindMessage h

/-- What is said of a text breaks a line only in the part that it blames. -/
theorem EffectError.isUnbroken_message {error : EffectError}
    (h : Text.IsUnbroken error.fragment) : Text.IsUnbroken error.message := by
  cases error with
  | fieldCount raw found =>
    have hfound := Text.isUnbroken_of_isNodeId (isNodeId_showNat found)
    exact Text.isUnbroken_quoted h (Text.isUnbroken_quoted hfound)
  | operator field => exact Text.isUnbroken_quoted h
  | amount field => exact Text.isUnbroken_quoted h
  | stat field => exact Text.isUnbroken_quoted h
  | condition error => exact error.isUnbroken_message h

theorem Failure.isUnbroken_message_effect {error : EffectError}
    (h : Text.IsUnbroken error.fragment) : Text.IsUnbroken (effect error).message := by
  have hmessage := error.isUnbroken_message h
  cases error with
  | fieldCount | operator | amount | stat =>
    exact Text.isUnbroken_append.2 ⟨by simp [Text.IsUnbroken], hmessage⟩
  | condition error =>
    cases error with
    | malformed text => exact Text.isUnbroken_append.2 ⟨by simp [Text.IsUnbroken], hmessage⟩
    | unknownKind kind => exact isUnbroken_unknownKindMessage h

/-- An entry of the trace breaks a line only with the text of the effect that it records. -/
theorem Situation.Records.isUnbroken_text {situation : Situation} {node : Node} {slot : EffectSlot}
    {entry : TraceEntry} (h : situation.Records node slot entry)
    (hnames : situation.extensions.NamesKind) (hraw : Text.IsUnbroken entry.raw) :
    Text.IsUnbroken entry.content.text := by
  cases hcontent : entry.content with
  | applied stat before after =>
    exact Text.isUnbroken_append.2
      ⟨Text.isUnbroken_quoted before.isUnbroken_numeral (Text.isUnbroken_quoted (isUnbroken_name stat)),
        after.isUnbroken_numeral⟩
  | conditionNotMet =>
    show Text.IsUnbroken "condition-not-met"
    simp [Text.IsUnbroken]
  | failed failure =>
    have hmessage : Text.IsUnbroken failure.message := by
      rcases h.failed_cases hcontent with ⟨error, herror, rfl⟩ | ⟨_, query, kind, -, hanswer, rfl⟩ |
        ⟨_, error, -, rfl⟩
      · -- what is blamed is an excerpt of the text
        obtain ⟨place, hfault, -⟩ := Effect.read_eq_error_iff.1 herror
        rw [h.raw_eq] at hraw
        exact Failure.isUnbroken_message_effect (hfault.isExcerpt.isUnbroken hraw)
      · rw [hnames query kind hanswer]
        exact isUnbroken_unknownKindMessage (isUnbroken_name query.kind)
      · exact error.isUnbroken_message
    exact Text.isUnbroken_append.2 ⟨by simp [Text.IsUnbroken], hmessage⟩

/-! ## Facts and labels -/

namespace Preview

variable {preview : Preview}

/-- What the facts of a preview begin with, in order. -/
def labels (preview : Preview) : List String :=
  ["contract: ", "selected: "] ++
    List.replicate preview.availability.length "node: " ++
    List.replicate 5 "pool: " ++
    List.replicate 2 "prevention: " ++
    List.replicate preview.report.trace.length "trace: "

theorem length_labels (preview : Preview) :
    preview.labels.length = 9 + preview.availability.length + preview.report.trace.length := by
  simp only [labels, List.length_append, List.length_cons, List.length_nil, List.length_replicate]
  omega

/-- The text has one line for each label, in order, and nothing else. -/
def IsLineByLine (preview : Preview) : Prop :=
  ∃ lines, Text.HasLines preview.text lines ∧ List.Forall₂ Text.Begins lines preview.labels

/-- Facts of one kind have one label. -/
theorem forall₂_begins_map {α : Type} {line : α → String} {label : String} (xs : List α)
    (h : ∀ x, Text.Begins (line x) label) :
    List.Forall₂ Text.Begins (xs.map line) (List.replicate xs.length label) := by
  rw [← List.map_const', List.forall₂_map_left_iff, List.forall₂_map_right_iff, List.forall₂_same]
  exact fun x _ => h x

theorem forall₂_begins_facts (preview : Preview) :
    List.Forall₂ Text.Begins preview.facts preview.labels := by
  have hhead : List.Forall₂ Text.Begins
      ["contract: " ++ preview.contract, "selected: " ++ Text.join "," preview.selected.toList]
      ["contract: ", "selected: "] :=
    .cons (Text.begins_append _ _) (.cons (Text.begins_append _ _) .nil)
  have hnode (entry : String × NodeState) : Text.Begins (nodeLine entry) "node: " := by
    unfold nodeLine
    simp only [String.append_assoc, Text.begins_append]
  have hpool (stat : Stat) : Text.Begins (poolLine preview.report stat) "pool: " := by
    unfold poolLine
    simp only [String.append_assoc, Text.begins_append]
  have hprevention : List.Forall₂ Text.Begins (preventionLines preview.report.prevention)
      (List.replicate 2 "prevention: ") := by
    have hdamage : Text.Begins "prevention: damage=" "prevention: " := by simp [Text.Begins]
    have hrisk : Text.Begins "prevention: risk=" "prevention: " := by simp [Text.Begins]
    unfold preventionLines
    simp only [String.append_assoc, List.replicate, List.forall₂_cons, hdamage.append, hrisk.append,
      List.Forall₂.nil, and_self]
  have htrace (entry : TraceEntry) : Text.Begins (traceLine entry) "trace: " := by
    unfold traceLine
    simp only [String.append_assoc, Text.begins_append]
  exact List.rel_append
    (List.rel_append
      (List.rel_append
        (List.rel_append hhead (forall₂_begins_map preview.availability hnode))
        (forall₂_begins_map (Vocabulary.all : List Stat) hpool))
      hprevention)
    (forall₂_begins_map preview.report.trace htrace)

theorem IsLineByLine.breaks_eq (h : preview.IsLineByLine) :
    Text.breaks preview.text = preview.labels.length := by
  obtain ⟨lines, hlines, hbegins⟩ := h
  rw [hlines.breaks_eq, hbegins.length_eq]

/-- The lines of a text line by line are the facts, whatever is in them. -/
theorem isLineByLine_iff : preview.IsLineByLine ↔ (preview.facts.map Text.breaks).sum = 0 := by
  constructor
  · intro h
    have hbreaks := h.breaks_eq
    rw [text, Text.breaks_lines, (forall₂_begins_facts preview).length_eq] at hbreaks
    omega
  · intro h
    exact ⟨preview.facts, ⟨Text.sum_breaks_eq_zero_iff.1 h, rfl⟩, forall₂_begins_facts preview⟩

/-! ## Newlines in facts -/

theorem isUnbroken_nodeLine {entry : String × NodeState} (h : Text.IsUnbroken entry.1) :
    Text.IsUnbroken (nodeLine entry) :=
  Text.isUnbroken_append.2 ⟨Text.isUnbroken_quoted h, isUnbroken_name entry.2⟩

theorem isUnbroken_poolLine (report : PoolReport) (stat : Stat) :
    Text.IsUnbroken (poolLine report stat) :=
  Text.isUnbroken_append.2
    ⟨Text.isUnbroken_quoted (Points.isUnbroken_numeral _) (Text.isUnbroken_quoted (isUnbroken_name stat)),
      Points.isUnbroken_numeral _⟩

theorem isUnbroken_preventionLines (prevention : Prevention) :
    ∀ line ∈ preventionLines prevention, Text.IsUnbroken line := by
  have hnumber := Points.isUnbroken_numeral
  unfold preventionLines
  simp only [List.forall_mem_cons]
  refine ⟨Text.isUnbroken_append.2 ⟨?_, hnumber _⟩, Text.isUnbroken_append.2 ⟨?_, hnumber _⟩, nofun⟩
  · exact Text.isUnbroken_quoted (hnumber _) (Text.isUnbroken_quoted (hnumber _))
  · exact Text.isUnbroken_quoted (hnumber _) (Text.isUnbroken_quoted (hnumber _))

theorem breaks_traceLine {entry : TraceEntry} (hnode : Text.IsUnbroken entry.node) :
    Text.breaks (traceLine entry) = Text.breaks entry.raw + Text.breaks entry.content.text := by
  have hslot := Text.isUnbroken_of_isNodeId (isNodeId_showNat entry.slot.toNat)
  unfold traceLine
  rw [Text.breaks_append,
    Text.breaks_quoted (Text.isUnbroken_quoted hslot (Text.isUnbroken_quoted hnode))]

end Preview

namespace Contract

variable {contract : Contract} {session : Session} {config : Config} {entry : TraceEntry}

theorem isUnbroken_of_node? {id : String} {node : Node} (h : contract.node? id = some node) :
    Text.IsUnbroken id :=
  Text.isUnbroken_of_isNodeId (id_of_node? h ▸ contract.wellFormed node (mem_of_node? h))

theorem isUnbroken_selected (contract : Contract) (session : Session) :
    Text.IsUnbroken
      ("selected: " ++ Text.join "," (contract.effective session.roster session.selection).toList) := by
  have hlabel : Text.IsUnbroken "selected: " := by simp [Text.IsUnbroken]
  have hcomma : Text.IsUnbroken "," := by simp [Text.IsUnbroken]
  refine Text.isUnbroken_append.2 ⟨hlabel, Text.isUnbroken_join hcomma fun id hid => ?_⟩
  obtain ⟨node, hnode⟩ := exists_node_of_mem_effective (IdSet.mem_def.2 hid)
  exact isUnbroken_of_node? hnode

theorem isUnbroken_of_mem_nodeLines {line : String}
    (h : line ∈ (contract.preview session config).availability.map Preview.nodeLine) :
    Text.IsUnbroken line := by
  obtain ⟨shown, hshown, rfl⟩ := List.mem_map.1 h
  obtain ⟨node, hnode, rfl⟩ := List.mem_map.1 hshown
  exact Preview.isUnbroken_nodeLine (Text.isUnbroken_of_isNodeId (contract.wellFormed node hnode))

theorem breaks_traceLine_of_mem (h : entry ∈ (contract.preview session config).report.trace) :
    Text.breaks (Preview.traceLine entry) =
      Text.breaks entry.raw + Text.breaks entry.content.text := by
  obtain ⟨node, slot, hnode, -, hrecords⟩ := exists_slot_of_mem_trace h
  exact Preview.breaks_traceLine (hrecords.node_eq ▸ isUnbroken_of_node? hnode)

theorem isUnbroken_text_of_mem (h : entry ∈ (contract.preview session config).report.trace)
    (hraw : Text.IsUnbroken entry.raw) : Text.IsUnbroken entry.content.text := by
  obtain ⟨node, slot, -, -, hrecords⟩ := exists_slot_of_mem_trace h
  exact hrecords.isUnbroken_text Extensions.namesKind_unresolved hraw

/-- The newlines in the facts of a preview are those in the name of the contract and in the trace. -/
theorem sum_breaks_facts (contract : Contract) (session : Session) (config : Config) :
    let preview := contract.preview session config
    (preview.facts.map Text.breaks).sum =
      Text.breaks contract.name +
        (preview.report.trace.map fun entry => Text.breaks entry.raw + Text.breaks entry.content.text).sum := by
  intro preview
  have hname : Text.breaks ("contract: " ++ preview.contract) = Text.breaks contract.name := by
    rw [Text.breaks_append, Text.breaks_eq_zero_iff.2 (by simp [Text.IsUnbroken]), Nat.zero_add]
    rfl
  have hselected : Text.breaks ("selected: " ++ Text.join "," preview.selected.toList) = 0 :=
    Text.breaks_eq_zero_iff.2 (isUnbroken_selected contract session)
  have hnodes : ((preview.availability.map Preview.nodeLine).map Text.breaks).sum = 0 :=
    Text.sum_breaks_eq_zero_iff.2 fun line => isUnbroken_of_mem_nodeLines
  have hpools : ((Vocabulary.all.map (Preview.poolLine preview.report)).map Text.breaks).sum = 0 :=
    Text.sum_breaks_eq_zero_iff.2
      (List.forall_mem_map.2 fun stat _ => Preview.isUnbroken_poolLine preview.report stat)
  have hprevention := Text.sum_breaks_eq_zero_iff.2
    (Preview.isUnbroken_preventionLines preview.report.prevention)
  have htrace : (preview.report.trace.map Preview.traceLine).map Text.breaks =
      preview.report.trace.map fun entry => Text.breaks entry.raw + Text.breaks entry.content.text := by
    rw [List.map_map]
    refine List.map_congr_left fun entry hentry => ?_
    rw [Function.comp_apply, breaks_traceLine_of_mem hentry]
  simp only [Preview.facts, List.map_append, List.sum_append, List.map_cons, List.map_nil,
    List.sum_cons, List.sum_nil, hname, hselected, hnodes, hpools, hprevention, htrace, Nat.add_zero]

theorem breaks_text (contract : Contract) (session : Session) (config : Config) :
    let preview := contract.preview session config
    Text.breaks preview.text = preview.labels.length + Text.breaks contract.name +
      (preview.report.trace.map fun entry => Text.breaks entry.raw + Text.breaks entry.content.text).sum := by
  intro preview
  have hlength := (Preview.forall₂_begins_facts preview).length_eq
  rw [Preview.text, Text.breaks_lines, hlength, sum_breaks_facts contract session config, Nat.add_assoc]

/-! ## The main statements -/

/-- **When a preview can be read line by line.** The facts are labelled in order: the contract, the ids in effect,
every node, five pools, two lines of prevention, and every entry of the trace. The text has a newline for each of them
and, besides, those in the name of the contract and in what the trace shows of effects. So a line is a fact if and only
if the name and the text of each effect in the trace are unbroken; no session breaks a line of a contract whose name and
effects all are. -/
theorem isLineByLine_preview (contract : Contract) (session : Session) (config : Config) :
    let preview := contract.preview session config
    let trace := preview.report.trace
    preview.labels.length = 9 + contract.size + trace.length ∧
    List.Forall₂ Text.Begins preview.facts preview.labels ∧
    Text.breaks preview.text = preview.labels.length + Text.breaks contract.name +
      (trace.map fun entry => Text.breaks entry.raw + Text.breaks entry.content.text).sum ∧
    (preview.IsLineByLine ↔
      Text.IsUnbroken contract.name ∧ ∀ entry ∈ trace, Text.IsUnbroken entry.raw) ∧
    (Text.IsUnbroken contract.name →
      (∀ node ∈ contract.nodes, ∀ slot ∈ node.effects, Text.IsUnbroken slot.raw.text) →
      preview.IsLineByLine) := by
  intro preview trace
  have hiff : preview.IsLineByLine ↔
      Text.IsUnbroken contract.name ∧ ∀ entry ∈ trace, Text.IsUnbroken entry.raw := by
    rw [Preview.isLineByLine_iff, sum_breaks_facts contract session config, Nat.add_eq_zero_iff,
      List.sum_eq_zero_iff, List.forall_mem_map]
    simp only [Nat.add_eq_zero_iff, Text.breaks_eq_zero_iff]
    exact and_congr_right fun _ => forall₂_congr fun entry hentry =>
      and_iff_left_of_imp (isUnbroken_text_of_mem hentry)
  refine ⟨?_, Preview.forall₂_begins_facts preview, breaks_text contract session config, hiff,
    fun hname heffects => ?_⟩
  · have hnodes : preview.availability.length = contract.size := List.length_map ..
    rw [Preview.length_labels, hnodes]
  · refine hiff.2 ⟨hname, fun entry hentry => ?_⟩
    obtain ⟨node, slot, hnode, hslot, hrecords⟩ := exists_slot_of_mem_trace hentry
    exact hrecords.raw_eq ▸ heffects node (mem_of_node? hnode) slot hslot

/-- **Validation lets a line break.** The text of an effect may have a newline after the sign of its operator, where
blanks are of no account. The contract is without defects and the effect is applied, but its line of the trace is two
lines, and there are twelve for eleven facts. -/
theorem not_isLineByLine_preview :
    let contract : Contract :=
      { name := "c"
        nodes := [.ofRecord { id := "start", kind := .start, effect1 := some "None;+\n;5;Money" }]
        ascending := by decide
        wellFormed := by decide
        closed := by decide }
    let session : Session := { selection := { ids := ["start"], nodup := by decide } }
    let preview := contract.preview session {}
    contract.validate.isOk = true ∧
    preview.report.trace =
      [{ node := "start", slot := .first, raw := "None;+\n;5;Money"
         content := .applied .money .zero { val := 5 } }] ∧
    9 + contract.size + preview.report.trace.length = 11 ∧ Text.breaks preview.text = 12 ∧
    ¬preview.IsLineByLine := by
  intro contract session preview
  have htrace : preview.report.trace =
      [{ node := "start", slot := .first, raw := "None;+\n;5;Money"
         content := .applied .money .zero { val := 5 } }] := by
    decide +kernel
  have hlabels : preview.labels.length = 11 := by
    rw [Preview.length_labels, htrace]
    rfl
  have hbreaks : Text.breaks preview.text = 12 := by
    rw [breaks_text, hlabels, htrace]
    decide +kernel
  refine ⟨by decide +kernel, htrace, by rw [htrace]; rfl, hbreaks, fun h => ?_⟩
  rw [h.breaks_eq, hlabels] at hbreaks
  cases hbreaks

end Contract

end PerkGraph
