import PerkGraph.Proofs.GateText
import PerkGraph.Proofs.TextGrammar

/-!
# The grammar of gate rules

A gate text has two fields between semicolons. The last is a threshold, a numeral from 0 to 2^32 - 1; the first has
a word in front of its first colon and a list of items behind it, and the word says what the items must be
(`GateDemand.Lists`). Types and stats may be listed again, ids may not.

Everything in such a text has its fault if it is not what it should be. The threshold is looked at before the first
field, and the items from left to right (`GateRule.HasFault`, `GateDemand.HasFault`, `GateDemand.BadItem`).

Main statement: a text is a gate rule, or the reader reports the first fault of it, with the part of the text that is
to blame (`GateRule.read_reports_first_fault`).
-/

namespace PerkGraph

namespace GateDemand

variable {kind : GateKind} {item head : String} {front items rest : List String} {demand : GateDemand}
  {error : GateError} {place : Nat}

/-! ## Items -/

/-- The items make up what a gate of the kind counts. -/
inductive Lists : GateKind → List String → GateDemand → Prop
  | nodes {items : List String} {ids : IdSet} (hid : ∀ item ∈ items, isNodeId item = true)
      (hnodup : items.Nodup) (hids : ∀ id, id ∈ ids ↔ id ∈ items) : Lists .node items (.nodes ids)
  | runnerTypes {items : List String} {types : List RunnerType}
      (h : Vocabulary.SpellsAll items types) : Lists .runnerType items (.runnerTypes types)
  | runnerStats {items : List String} {stats : List RunnerStat}
      (h : Vocabulary.SpellsAll items stats) : Lists .runnerStat items (.runnerStats stats)

theorem readIds_empty_eq_ok_iff {ids : IdSet} : readIds items .empty = .ok ids ↔
    (∀ item ∈ items, isNodeId item = true) ∧ items.Nodup ∧ ∀ id, id ∈ ids ↔ id ∈ items := by
  simp only [readIds_eq_ok_iff, IdSet.not_mem_empty, not_false_eq_true, and_true, false_or]

theorem ofItems_eq_ok_iff : ofItems kind items = .ok demand ↔ Lists kind items demand := by
  constructor
  · intro h
    cases kind with
    | node =>
      obtain ⟨ids, hids, rfl⟩ := map_eq_ok_iff.1 h
      obtain ⟨hid, hnodup, hmem⟩ := readIds_empty_eq_ok_iff.1 hids
      exact .nodes hid hnodup hmem
    | runnerType =>
      obtain ⟨types, htypes, rfl⟩ := map_eq_ok_iff.1 h
      exact .runnerTypes (Vocabulary.spellsAll_iff.2 ⟨types, readWords_eq_ok_iff.1 htypes, rfl⟩)
    | runnerStat =>
      obtain ⟨stats, hstats, rfl⟩ := map_eq_ok_iff.1 h
      exact .runnerStats (Vocabulary.spellsAll_iff.2 ⟨stats, readWords_eq_ok_iff.1 hstats, rfl⟩)
  · intro h
    cases h with
    | nodes hid hnodup hmem =>
      exact map_eq_ok_iff.2 ⟨_, readIds_empty_eq_ok_iff.2 ⟨hid, hnodup, hmem⟩, rfl⟩
    | runnerTypes h =>
      obtain ⟨found, hfound, rfl⟩ := Vocabulary.spellsAll_iff.1 h
      exact map_eq_ok_iff.2 ⟨found, readWords_eq_ok_iff.2 hfound, rfl⟩
    | runnerStats h =>
      obtain ⟨found, hfound, rfl⟩ := Vocabulary.spellsAll_iff.1 h
      exact map_eq_ok_iff.2 ⟨found, readWords_eq_ok_iff.2 hfound, rfl⟩

/-- What can be wrong with an item behind those in front of it. -/
inductive BadItem : GateKind → List String → String → GateError → Prop
  | invalidNodeId {front : List String} {item : String} (h : isNodeId item = false) :
      BadItem .node front item (.invalidNodeId item)
  | duplicateNodeId {front : List String} {item : String} (hid : isNodeId item = true)
      (hfront : item ∈ front) : BadItem .node front item (.duplicateNodeId item)
  | unknownRunnerType {front : List String} {item : String}
      (h : ∀ type : RunnerType, ¬Vocabulary.Spells item type) :
      BadItem .runnerType front item (.unknownRunnerType item)
  | unknownStat {front : List String} {item : String}
      (h : ∀ stat : RunnerStat, ¬Vocabulary.Spells item stat) :
      BadItem .runnerStat front item (.unknownStat item)

theorem badItem_node_iff : BadItem .node front item error ↔
    isNodeId item = false ∧ error = .invalidNodeId item ∨
    isNodeId item = true ∧ item ∈ front ∧ error = .duplicateNodeId item := by
  constructor
  · intro h
    cases h with
    | invalidNodeId h => exact .inl ⟨h, rfl⟩
    | duplicateNodeId hid hfront => exact .inr ⟨hid, hfront, rfl⟩
  · rintro (⟨h, rfl⟩ | ⟨hid, hfront, rfl⟩)
    · exact .invalidNodeId h
    · exact .duplicateNodeId hid hfront

theorem badItem_runnerType_iff : BadItem .runnerType front item error ↔
    (Vocabulary.read? item : Option RunnerType) = none ∧ error = .unknownRunnerType item := by
  rw [Vocabulary.read?_eq_none_iff]
  constructor
  · intro h
    cases h with
    | unknownRunnerType h => exact ⟨h, rfl⟩
  · rintro ⟨h, rfl⟩
    exact .unknownRunnerType h

theorem badItem_runnerStat_iff : BadItem .runnerStat front item error ↔
    (Vocabulary.read? item : Option RunnerStat) = none ∧ error = .unknownStat item := by
  rw [Vocabulary.read?_eq_none_iff]
  constructor
  · intro h
    cases h with
    | unknownStat h => exact ⟨h, rfl⟩
  · rintro ⟨h, rfl⟩
    exact .unknownStat h

theorem readIds_eq_error_iff {listed : IdSet} (h : ∀ id, id ∈ listed ↔ id ∈ front) :
    readIds items listed = .error error ↔
      IsFirstFault (EntryFault (BadItem .node) front items) error := by
  -- what is listed so far is what stands in front of the items that are left
  induction items generalizing listed front with
  | nil => simp [readIds, not_isFirstFault_entryFault_nil]
  | cons item rest ih =>
    unfold readIds
    cases hid : isNodeId item with
    | false =>
      rw [isFirstFault_entryFault_cons_of_bad (.invalidNodeId item) (by simp [badItem_node_iff, hid])]
      simp [eq_comm]
    | true =>
      by_cases hlisted : item ∈ listed
      · have hfront := (h item).1 hlisted
        rw [isFirstFault_entryFault_cons_of_bad (.duplicateNodeId item)
          (by simp [badItem_node_iff, hid, hfront])]
        simp [hlisted, eq_comm]
      · have hfront : item ∉ front := fun hmem => hlisted ((h item).2 hmem)
        have hinsert (id : String) : id ∈ listed.insert item ↔ id ∈ front ++ [item] := by
          rw [IdSet.mem_insert, h, List.mem_append, List.mem_singleton, or_comm]
        rw [isFirstFault_entryFault_cons (by simp [badItem_node_iff, hid, hfront]), ← ih hinsert]
        simp [hlisted]

theorem readWords_eq_error_iff {α : Type} [Vocabulary α] {unknown : String → GateError}
    (hbad : ∀ front item error, BadItem kind front item error ↔
      (Vocabulary.read? item : Option α) = none ∧ error = unknown item) :
    (readWords unknown items : Except GateError (List α)) = .error error ↔
      IsFirstFault (EntryFault (BadItem kind) front items) error := by
  induction items generalizing front with
  | nil => simp [readWords, not_isFirstFault_entryFault_nil]
  | cons item rest ih =>
    cases hread : (Vocabulary.read? item : Option α) with
    | none =>
      rw [isFirstFault_entryFault_cons_of_bad (unknown item) (by simp [hbad, hread]), readWords, hread]
      simp [eq_comm]
    | some word =>
      rw [isFirstFault_entryFault_cons (by simp [hbad, hread]), readWords_cons_of_some hread,
        map_eq_error_iff, ih]

/-- Items are refused for the first fault from the left. -/
theorem ofItems_eq_error_iff :
    ofItems kind items = .error error ↔ IsFirstFault (EntryFault (BadItem kind) [] items) error := by
  cases kind with
  | node =>
    have hempty (id : String) : id ∈ IdSet.empty ↔ id ∈ ([] : List String) := by
      simp [IdSet.not_mem_empty]
    rw [ofItems, map_eq_error_iff, readIds_eq_error_iff hempty]
  | runnerType =>
    rw [ofItems, map_eq_error_iff, readWords_eq_error_iff fun _ _ _ => badItem_runnerType_iff]
  | runnerStat =>
    rw [ofItems, map_eq_error_iff, readWords_eq_error_iff fun _ _ _ => badItem_runnerStat_iff]

/-! ## The field in front of the semicolon -/

/-- The text before the semicolon denotes what a gate counts. -/
def Denotes (head : String) (demand : GateDemand) : Prop :=
  ∃ word params items kind, Text.HasHalves ':' head word params ∧ params ≠ "" ∧
    Text.HasFields ',' params items ∧ Vocabulary.Spells word kind ∧ Lists kind items demand

/-- What can be wrong with the text before the semicolon. -/
inductive HasFault (head : String) : Nat → GateError → Prop
  | missingColon (h : ':' ∉ head.toList) : HasFault head 0 (.missingKind head)
  | missingWord {params : String} (h : Text.HasHalves ':' head "" params) :
      HasFault head 0 (.missingKind head)
  | emptyParameters {word : String} (h : Text.HasHalves ':' head word "") :
      HasFault head 1 (.emptyParameters head)
  | unknownKind {word params : String} (h : Text.HasHalves ':' head word params)
      (hword : ∀ kind : GateKind, ¬Vocabulary.Spells word kind) : HasFault head 2 (.unknownKind word)
  | item {word params : String} {items : List String} {kind : GateKind} {place : Nat}
      {error : GateError} (h : Text.HasHalves ':' head word params)
      (hkind : Vocabulary.Spells word kind) (hitems : Text.HasFields ',' params items)
      (hitem : EntryFault (BadItem kind) [] items place error) : HasFault head (place + 3) error

theorem read_eq_ok_iff_denotes : read head = .ok demand ↔ Denotes head demand := by
  rw [read_eq_ok_iff]
  constructor
  · rintro ⟨before, after, kind, hcut, hkind, hitems⟩
    refine ⟨_, _, _, kind, Text.hasHalves_iff.2 ⟨before, after, hcut, rfl, rfl⟩, ?_,
      Text.hasFields_split ',' _, Vocabulary.read?_eq_some_iff_spells.1 hkind,
      ofItems_eq_ok_iff.1 hitems⟩
    intro hblank
    have hitem : (Text.split ',' "").map Text.trim = [""] := by decide
    rw [hblank, hitem] at hitems
    exact ofItems_blank kind hitems
  · rintro ⟨_, _, items, kind, hhalves, -, hitems, hkind, hlists⟩
    obtain ⟨before, after, hcut, rfl, rfl⟩ := Text.hasHalves_iff.1 hhalves
    obtain rfl := Text.hasFields_iff.1 hitems
    exact ⟨before, after, kind, hcut, Vocabulary.read?_eq_some_iff_spells.2 hkind,
      ofItems_eq_ok_iff.2 hlists⟩

/-- The faults of a text with a colon. -/
theorem hasFault_iff {word params : String} (h : Text.HasHalves ':' head word params) :
    HasFault head place error ↔
      place = 0 ∧ word = "" ∧ error = .missingKind head ∨
      place = 1 ∧ params = "" ∧ error = .emptyParameters head ∨
      place = 2 ∧ (Vocabulary.read? word : Option GateKind) = none ∧ error = .unknownKind word ∨
      ∃ later kind, place = later + 3 ∧ Vocabulary.read? word = some kind ∧
        EntryFault (BadItem kind) [] ((Text.split ',' params).map Text.trim) later error := by
  rw [Vocabulary.read?_eq_none_iff]
  simp only [Vocabulary.read?_eq_some_iff_spells]
  constructor
  · intro hfault
    cases hfault with
    | missingColon hcolon => exact absurd h.mem hcolon
    | missingWord h' => exact .inl ⟨rfl, (h.unique h').1, rfl⟩
    | emptyParameters h' => exact .inr (.inl ⟨rfl, (h.unique h').2, rfl⟩)
    | unknownKind h' hword =>
      obtain ⟨rfl, -⟩ := h.unique h'
      exact .inr (.inr (.inl ⟨rfl, hword, rfl⟩))
    | item h' hkind hitems hitem =>
      obtain ⟨rfl, rfl⟩ := h.unique h'
      rw [← Text.hasFields_iff.1 hitems] at hitem
      exact .inr (.inr (.inr ⟨_, _, rfl, hkind, hitem⟩))
  · rintro (⟨rfl, rfl, rfl⟩ | ⟨rfl, rfl, rfl⟩ | ⟨rfl, hword, rfl⟩ | ⟨later, kind, rfl, hkind, hitem⟩)
    · exact .missingWord h
    · exact .emptyParameters h
    · exact .unknownKind h hword
    · exact .item h hkind (Text.hasFields_split ',' params) hitem

/-- The text before the semicolon is refused for the first fault of it. -/
theorem read_eq_error_iff : read head = .error error ↔ IsFirstFault (HasFault head) error := by
  unfold read
  cases hcut : Text.cut ':' head with
  | none =>
    have hcolon := Text.cut_eq_none_iff.1 hcut
    have hfound (other : GateError) : HasFault head 0 other ↔ other = .missingKind head := by
      constructor
      · intro h
        cases h with
        | missingColon _ => rfl
        | missingWord _ => rfl
      · rintro rfl
        exact .missingColon hcolon
    rw [isFirstFault_iff_of_found _ hfound]
    simp [eq_comm]
  | some halves =>
    obtain ⟨before, after⟩ := halves
    have h : Text.HasHalves ':' head (Text.trim before) (Text.trim after) :=
      Text.hasHalves_iff.2 ⟨before, after, hcut, rfl, rfl⟩
    simp only
    -- only the trimmed halves matter from here on
    generalize Text.trim before = word at h ⊢
    generalize Text.trim after = params at h ⊢
    by_cases hword : word = ""
    · rw [isFirstFault_iff_of_found (.missingKind head) (by simp [hasFault_iff h, hword])]
      simp [hword, eq_comm]
    rw [isFirstFault_iff_of_passed (by simp [hasFault_iff h, hword])]
    by_cases hparams : params = ""
    · rw [isFirstFault_iff_of_found (.emptyParameters head) (by simp [hasFault_iff h, hparams])]
      simp [hword, hparams, eq_comm]
    rw [isFirstFault_iff_of_passed (by simp [hasFault_iff h, hparams])]
    cases hkind : (Vocabulary.read? word : Option GateKind) with
    | none =>
      rw [isFirstFault_iff_of_found (.unknownKind word) (by simp [hasFault_iff h, hkind])]
      simp [hword, hparams, eq_comm]
    | some kind =>
      have hitem (place : Nat) (other : GateError) : HasFault head (place + 1 + 1 + 1) other ↔
          EntryFault (BadItem kind) [] ((Text.split ',' params).map Text.trim) place other := by
        simp [hasFault_iff h, hkind]
      rw [isFirstFault_iff_of_passed (by simp [hasFault_iff h, hkind]), isFirstFault_congr hitem,
        ← ofItems_eq_error_iff]
      simp [hword, hparams]

theorem BadItem.fragment_eq (h : BadItem kind front item error) : error.fragment = item := by
  cases h <;> rfl

theorem HasFault.isExcerpt (h : HasFault head place error) : Text.IsExcerpt error.fragment head := by
  cases h with
  | missingColon _ => exact .refl head
  | missingWord _ => exact .refl head
  | emptyParameters _ => exact .refl head
  | unknownKind h _ => exact h.isExcerpt_front
  | item h _ hitems hitem =>
    obtain ⟨item, hmem, hbad⟩ := hitem
    rw [hbad.fragment_eq]
    exact (hitems.isExcerpt (List.mem_of_getElem? hmem)).trans h.isExcerpt_back

end GateDemand

namespace GateRule

variable {raw head last field : String} {rule : GateRule} {error : GateError} {place : Nat}

/-! ## Thresholds -/

/-- What can be wrong with a threshold. -/
inductive ThresholdFault (field : String) : GateError → Prop
  | notNumeral (h : ∀ points : Points, ¬Text.IsNumeral field points.val) :
      ThresholdFault field (.threshold field)
  | negative {points : Points} (h : Text.IsNumeral field points.val) (hneg : points.val < 0) :
      ThresholdFault field (.negativeThreshold field)
  | tooGreat {points : Points} (h : Text.IsNumeral field points.val)
      (hgreat : 0x100000000 ≤ points.val) : ThresholdFault field (.threshold field)

theorem readThreshold_eq_error_iff :
    readThreshold field = .error error ↔ ThresholdFault field error := by
  unfold readThreshold
  cases hread : Points.read? field with
  | none =>
    have hnone := Points.read?_eq_none_iff.1 hread
    simp only [Except.error.injEq]
    constructor
    · rintro rfl
      exact .notNumeral hnone
    · intro h
      cases h with
      | notNumeral _ => rfl
      | negative h _ => exact absurd h (hnone _)
      | tooGreat _ _ => rfl
  | some points =>
    have hnumeral := Points.read?_eq_some_iff.1 hread
    have hunique {other : Points} (h : Text.IsNumeral field other.val) : points = other :=
      Option.some.inj (hread.symm.trans (Points.read?_eq_some_iff.2 h))
    simp only
    constructor
    · intro h
      split at h
      · rename_i hneg
        cases h
        exact .negative hnumeral hneg
      · split at h
        · cases h
        · cases h
          exact .tooGreat hnumeral (by omega)
    · intro h
      cases h with
      | notNumeral h => exact absurd hnumeral (h points)
      | negative h hneg =>
        obtain rfl := hunique h
        rw [if_pos hneg]
      | tooGreat h hgreat =>
        obtain rfl := hunique h
        rw [if_neg (by omega), if_neg (by omega)]

/-! ## Rules -/

/-- The text denotes the rule. -/
def Denotes (raw : String) (rule : GateRule) : Prop :=
  ∃ head last, Text.HasFields ';' raw [head, last] ∧ Text.IsNumeral last rule.threshold ∧
    rule.threshold < 0x100000000 ∧ GateDemand.Denotes head rule.demand

/-- What can be wrong with a text. The threshold is looked at before the field in front of it. -/
inductive HasFault (raw : String) : Nat → GateError → Prop
  | fieldCount {fields : List String} (hfields : Text.HasFields ';' raw fields)
      (hcount : fields.length ≠ 2) : HasFault raw 0 (.fieldCount (Text.trim raw))
  | threshold {head last : String} {error : GateError} (hfields : Text.HasFields ';' raw [head, last])
      (h : ThresholdFault last error) : HasFault raw 1 error
  | demand {head last : String} {place : Nat} {error : GateError}
      (hfields : Text.HasFields ';' raw [head, last]) (h : GateDemand.HasFault head place error) :
      HasFault raw (place + 2) error

theorem read_of_fields (h : Text.HasFields ';' raw [head, last]) :
    read raw = readThreshold last >>= fun threshold =>
      GateDemand.read head >>= fun demand => .ok { demand, threshold } := by
  rw [Text.hasFields_iff_trim (by decide)] at h
  unfold read
  simp only
  split
  · rename_i first second hsplit
    rw [hsplit] at h
    obtain ⟨rfl, rfl⟩ : Text.trim first = head ∧ Text.trim second = last := by simpa using h
    rfl
  · rename_i hne
    obtain ⟨first, _, hsplit, -, hrest⟩ := List.map_eq_cons_iff.1 h
    obtain ⟨second, _, rfl, -, hnil⟩ := List.map_eq_cons_iff.1 hrest
    obtain rfl := List.map_eq_nil_iff.1 hnil
    exact absurd hsplit (hne first second)

theorem read_of_length {fields : List String} (h : Text.HasFields ';' raw fields)
    (hcount : fields.length ≠ 2) : read raw = .error (.fieldCount (Text.trim raw)) := by
  rw [Text.hasFields_iff_trim (by decide)] at h
  unfold read
  simp only
  split
  · rename_i first second hsplit
    rw [hsplit] at h
    exact absurd (h ▸ rfl) hcount
  · rfl

theorem exists_two_fields {fields : List String} (h : fields.length = 2) :
    ∃ head last, fields = [head, last] := by
  match fields, h with
  | [_, _], _ => exact ⟨_, _, rfl⟩

theorem read_eq_ok_iff_denotes : read raw = .ok rule ↔ Denotes raw rule := by
  constructor
  · intro h
    have hfields := Text.hasFields_split ';' raw
    by_cases hcount : ((Text.split ';' raw).map Text.trim).length = 2
    · obtain ⟨head, last, heq⟩ := exists_two_fields hcount
      rw [heq] at hfields
      rw [read_of_fields hfields] at h
      obtain ⟨threshold, hthreshold, h⟩ := bind_eq_ok_iff.1 h
      obtain ⟨demand, hdemand, h⟩ := bind_eq_ok_iff.1 h
      cases h
      obtain ⟨hnumeral, hlt⟩ := readThreshold_eq_ok_iff.1 hthreshold
      exact ⟨head, last, hfields, Text.readInt?_eq_some_iff.1 hnumeral, hlt,
        GateDemand.read_eq_ok_iff_denotes.1 hdemand⟩
    · rw [read_of_length hfields hcount] at h
      cases h
  · rintro ⟨head, last, hfields, hnumeral, hlt, hdemand⟩
    rw [read_of_fields hfields]
    exact bind_eq_ok_iff.2 ⟨rule.threshold,
      readThreshold_eq_ok_iff.2 ⟨Text.readInt?_eq_some_iff.2 hnumeral, hlt⟩,
      bind_eq_ok_iff.2 ⟨rule.demand, GateDemand.read_eq_ok_iff_denotes.2 hdemand, rfl⟩⟩

/-- A text is refused for the first fault of it. -/
theorem read_eq_error_iff : read raw = .error error ↔ IsFirstFault (HasFault raw) error := by
  have hfields := Text.hasFields_split ';' raw
  generalize (Text.split ';' raw).map Text.trim = fields at hfields
  by_cases hcount : fields.length = 2
  · obtain ⟨head, last, rfl⟩ := exists_two_fields hcount
    have hpassed : ∀ other, ¬HasFault raw 0 other := by
      intro other h
      cases h with
      | fieldCount hothers hne =>
        obtain rfl := hfields.unique hothers
        exact hne rfl
    have hthreshold (other : GateError) :
        HasFault raw 1 other ↔ readThreshold last = .error other := by
      rw [readThreshold_eq_error_iff]
      constructor
      · intro h
        cases h with
        | threshold hothers h =>
          cases hfields.unique hothers
          exact h
      · exact .threshold hfields
    have hdemand (place : Nat) (other : GateError) :
        HasFault raw (place + 2) other ↔ GateDemand.HasFault head place other := by
      constructor
      · intro h
        cases h with
        | demand hothers h =>
          cases hfields.unique hothers
          exact h
      · exact .demand hfields
    rw [isFirstFault_iff_of_passed hpassed, read_of_fields hfields]
    cases hread : readThreshold last with
    | error found =>
      rw [isFirstFault_iff_of_found found (by simp [hthreshold, hread, eq_comm]),
        bind_eq_error_iff]
      simp [eq_comm]
    | ok threshold =>
      rw [isFirstFault_iff_of_passed (by simp [hthreshold, hread]), isFirstFault_congr hdemand,
        ← GateDemand.read_eq_error_iff]
      simp [bind_eq_error_iff]
  · have hfound (other : GateError) :
        HasFault raw 0 other ↔ other = .fieldCount (Text.trim raw) := by
      constructor
      · intro h
        cases h with
        | fieldCount _ _ => rfl
      · rintro rfl
        exact .fieldCount hfields hcount
    rw [read_of_length hfields hcount, isFirstFault_iff_of_found _ hfound]
    simp [eq_comm]

theorem ThresholdFault.fragment_eq (h : ThresholdFault field error) : error.fragment = field := by
  cases h <;> rfl

/-- The part of the text that is blamed stands in it. -/
theorem HasFault.isExcerpt (h : HasFault raw place error) : Text.IsExcerpt error.fragment raw := by
  cases h with
  | fieldCount _ _ => exact Text.isExcerpt_trim raw
  | threshold hfields h =>
    rw [h.fragment_eq]
    exact hfields.isExcerpt (by simp)
  | demand hfields h => exact h.isExcerpt.trans (hfields.isExcerpt (by simp))

/-! ## The main statement -/

/-- **A text is a gate rule or has a first fault, and that fault is reported.** A rule has two fields, with a
threshold in the last; the other lists ids, types or stats behind the word for them, and the rule asks for those.
Of any other text the reader reports the first of these: the number of fields, the threshold, a missing word or
colon, a blank list, an unknown word, and the leftmost item that is none or, if it is an id, listed before. A check
shows the part that is to blame, which is an excerpt of the text. -/
theorem read_reports_first_fault :
    (∀ raw rule, read raw = .ok rule ↔ Denotes raw rule) ∧
    (∀ raw error, read raw = .error error ↔ IsFirstFault (HasFault raw) error) ∧
    ∀ raw error, read raw = .error error →
      RuleCheck.ofGate raw = .invalid error.message error.fragment error ∧
        Text.IsExcerpt error.fragment raw := by
  refine ⟨fun raw rule => read_eq_ok_iff_denotes, fun raw error => read_eq_error_iff,
    fun raw error h => ⟨by rw [RuleCheck.ofGate, h], ?_⟩⟩
  obtain ⟨place, hfault, -⟩ := read_eq_error_iff.1 h
  exact hfault.isExcerpt

/-- The threshold is to blame before the list, and a repeated id before a bad one behind it. -/
example : read "Node:a,a,b c;4294967296" = .error (.threshold "4294967296") ∧
    read "Node: a , a ,b c;4294967295" = .error (.duplicateNodeId "a") := by
  decide +kernel

end GateRule

end PerkGraph
