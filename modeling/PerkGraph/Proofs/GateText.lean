import PerkGraph.Proofs.Spelling
import PerkGraph.RuleCheck

/-!
# Canonical texts of gate rules

A text that denotes a gate rule has a canonical one, which denotes the same rule and is its own canonical
text (`GateRule.text_identifies_rule`). Rules with ids, types or stats to count, the latter in canonical order,
and a threshold below 2^32 are the ones that texts denote (`GateRule.exists_read_iff`). What a text denotes
is settled by its parts (`GateParts.of?`): the threshold as a number, the word and the items up to letter
case, except that node ids are taken letter for letter (`GateRule.eq_iff_parts`).
-/

namespace PerkGraph

namespace GateDemand

/-! ## Items -/

theorem readIds_eq_ok_iff {items : List String} {listed ids : IdSet} :
    readIds items listed = .ok ids ↔
      (∀ item ∈ items, isNodeId item = true ∧ item ∉ listed) ∧ items.Nodup ∧
        ∀ id, id ∈ ids ↔ id ∈ listed ∨ id ∈ items := by
  induction items generalizing listed with
  | nil =>
    simp only [readIds, Except.ok.injEq, List.not_mem_nil, false_imp_iff, implies_true,
      List.nodup_nil, or_false, true_and]
    exact ⟨fun h id => h ▸ Iff.rfl, fun h => (IdSet.ext h).symm⟩
  | cons item rest ih =>
    unfold readIds
    cases hid : isNodeId item with
    | false => simp [hid]
    | true =>
      by_cases hlisted : item ∈ listed
      · simp [hlisted]
      · simp only [Bool.not_true, Bool.false_eq_true, if_false, hlisted, ih]
        constructor
        · rintro ⟨hrest, hnodup, hids⟩
          refine ⟨List.forall_mem_cons.2 ⟨⟨hid, hlisted⟩, fun x hx => ⟨(hrest x hx).1, fun hin =>
            (hrest x hx).2 (IdSet.mem_insert.2 (.inr hin))⟩⟩, List.nodup_cons.2 ⟨fun hmem =>
            (hrest item hmem).2 (IdSet.mem_insert.2 (.inl rfl)), hnodup⟩, fun id => ?_⟩
          rw [hids, IdSet.mem_insert, List.mem_cons, or_assoc, or_left_comm]
        · rintro ⟨hall, hnodup, hids⟩
          obtain ⟨-, hrest⟩ := List.forall_mem_cons.1 hall
          obtain ⟨hout, hnodup⟩ := List.nodup_cons.1 hnodup
          refine ⟨fun x hx => ⟨(hrest x hx).1, fun hin => ?_⟩, hnodup, fun id => ?_⟩
          · rcases IdSet.mem_insert.1 hin with rfl | hin
            · exact hout hx
            · exact (hrest x hx).2 hin
          · rw [hids, IdSet.mem_insert, List.mem_cons, or_assoc, or_left_comm]

theorem readWords_cons_of_some {α : Type} [Vocabulary α] {unknown : String → GateError}
    {item : String} {rest : List String} {word : α} (h : Vocabulary.read? item = some word) :
    readWords unknown (item :: rest) = (readWords unknown rest).map (word :: ·) := by
  rw [readWords, h]
  rfl

theorem readWords_eq_ok_iff {α : Type} [Vocabulary α] {unknown : String → GateError}
    {items : List String} {words : List α} :
    readWords unknown items = .ok words ↔ items.map Vocabulary.read? = words.map some := by
  induction items generalizing words with
  | nil =>
    rw [readWords]
    cases words <;> simp
  | cons item rest ih =>
    cases hread : (Vocabulary.read? item : Option α) with
    | none =>
      rw [readWords, hread]
      cases words <;> simp [hread]
    | some word =>
      rw [readWords_cons_of_some hread, map_eq_ok_iff]
      simp only [ih, List.map_cons, hread]
      constructor
      · rintro ⟨found, hfound, rfl⟩
        rw [hfound, List.map_cons]
      · intro h
        cases words with
        | nil => cases h
        | cons other others =>
          obtain ⟨heq, hrest⟩ := List.cons.inj h
          cases heq
          exact ⟨others, hrest, rfl⟩

/-- What a gate counts, if some text lists it. -/
def IsCanonical : GateDemand → Prop
  | nodes ids => ids ≠ .empty ∧ ∀ id ∈ ids, isNodeId id = true
  | runnerTypes types => types ≠ [] ∧ Vocabulary.inOrder types = types
  | runnerStats stats => stats ≠ [] ∧ Vocabulary.inOrder stats = stats

variable {demand : GateDemand}

theorem items_ne_nil (h : demand.IsCanonical) : demand.items ≠ [] := by
  cases demand with
  | nodes ids =>
    intro hnil
    exact h.1 (IdSet.ext fun x => by simp [IdSet.mem_def, show ids.toList = [] from hnil, IdSet.empty])
  | runnerTypes types => exact fun hnil => h.1 (List.map_eq_nil_iff.1 hnil)
  | runnerStats stats => exact fun hnil => h.1 (List.map_eq_nil_iff.1 hnil)

theorem isNodeId_of_mem_items (h : demand.IsCanonical) {item : String} (hitem : item ∈ demand.items) :
    isNodeId item = true := by
  cases demand with
  | nodes ids => exact h.2 item hitem
  | runnerTypes types =>
    obtain ⟨type, -, rfl⟩ := List.mem_map.1 hitem
    exact Vocabulary.IsLegible.isNodeId_name type
  | runnerStats stats =>
    obtain ⟨stat, -, rfl⟩ := List.mem_map.1 hitem
    exact Vocabulary.IsLegible.isNodeId_name stat

theorem readWords_map_name {α : Type} [Vocabulary α] [Vocabulary.IsLegible α]
    (unknown : String → GateError) (words : List α) :
    readWords unknown (words.map Vocabulary.name) = .ok words := by
  rw [readWords_eq_ok_iff, ← mapM_eq_some_iff, mapM_read?_map_name]

/-- A canonical demand is read back from its items. -/
theorem ofItems_items (h : demand.IsCanonical) : ofItems demand.kind demand.items = .ok demand := by
  cases demand with
  | nodes ids =>
    have hread : readIds ids.toList .empty = .ok ids := by
      rw [readIds_eq_ok_iff]
      refine ⟨fun id hid => ⟨h.2 id hid, IdSet.not_mem_empty id⟩, ?_, fun id => ?_⟩
      · exact ids.ascending.imp fun {x y} (hlt : x < y) (heq : x = y) =>
          String.lt_irrefl y (heq ▸ hlt)
      · rw [← IdSet.mem_def, or_iff_right (IdSet.not_mem_empty id)]
    rw [kind, items, ofItems, hread]
    rfl
  | runnerTypes types =>
    rw [kind, items, ofItems, readWords_map_name]
    exact congrArg (fun words => Except.ok (runnerTypes words)) h.2
  | runnerStats stats =>
    rw [kind, items, ofItems, readWords_map_name]
    exact congrArg (fun words => Except.ok (runnerStats words)) h.2

theorem ne_nil_of_readWords {α : Type} [Vocabulary α] {unknown : String → GateError}
    {items : List String} {words : List α} (h : readWords unknown items = .ok words)
    (hitems : items ≠ []) : words ≠ [] := by
  rintro rfl
  rw [readWords_eq_ok_iff, List.map_nil, List.map_eq_nil_iff] at h
  exact hitems h

theorem isCanonical_of_ofItems {kind : GateKind} {items : List String} (hitems : items ≠ [])
    (h : ofItems kind items = .ok demand) : demand.IsCanonical := by
  cases kind with
  | node =>
    obtain ⟨ids, hids, rfl⟩ := map_eq_ok_iff.1 h
    obtain ⟨hvalid, -, hmem⟩ := readIds_eq_ok_iff.1 hids
    have hids {id : String} (hid : id ∈ ids) : id ∈ items :=
      ((hmem id).1 hid).resolve_left (IdSet.not_mem_empty id)
    refine ⟨?_, fun id hid => (hvalid id (hids hid)).1⟩
    rintro rfl
    obtain ⟨item, rest, rfl⟩ := List.exists_cons_of_ne_nil hitems
    exact IdSet.not_mem_empty item ((hmem item).2 (.inr List.mem_cons_self))
  | runnerType =>
    obtain ⟨types, htypes, rfl⟩ := map_eq_ok_iff.1 h
    exact ⟨Vocabulary.inOrder_ne_nil (ne_nil_of_readWords htypes hitems),
      Vocabulary.inOrder_inOrder types⟩
  | runnerStat =>
    obtain ⟨stats, hstats, rfl⟩ := map_eq_ok_iff.1 h
    exact ⟨Vocabulary.inOrder_ne_nil (ne_nil_of_readWords hstats hitems),
      Vocabulary.inOrder_inOrder stats⟩

theorem kind_of_ofItems {kind : GateKind} {items : List String}
    (h : ofItems kind items = .ok demand) : demand.kind = kind := by
  cases kind <;> obtain ⟨_, -, rfl⟩ := map_eq_ok_iff.1 h <;> rfl

/-- A blank list of items is one blank item, and nothing has a blank name. -/
theorem ofItems_blank (kind : GateKind) : ofItems kind [""] ≠ .ok demand := by
  cases kind <;> exact nofun

theorem read_eq_ok_iff {head : String} :
    read head = .ok demand ↔ ∃ before after kind, Text.cut ':' head = some (before, after) ∧
      Vocabulary.read? (Text.trim before) = some kind ∧
        ofItems kind ((Text.split ',' (Text.trim after)).map Text.trim) = .ok demand := by
  have hblank : (Vocabulary.read? "" : Option GateKind) = none := by decide
  unfold read
  cases hcut : Text.cut ':' head with
  | none => simp
  | some halves =>
    obtain ⟨before, after⟩ := halves
    simp only [Option.some.injEq, Prod.mk.injEq, and_assoc]
    by_cases hword : Text.trim before = ""
    · simp [hword, hblank]
    · by_cases hparams : Text.trim after = ""
      · have hitems : (Text.split ',' "").map Text.trim = [""] := by decide
        simp [hword, hparams, hitems, ofItems_blank]
      · cases hkind : (Vocabulary.read? (Text.trim before) : Option GateKind) with
        | none => simp [hword, hparams, hkind]
        | some kind => simp [hword, hparams, hkind]

end GateDemand

/-! ## Parts -/

/-- The parts of a gate text, trimmed. -/
structure GateParts where
  /-- What stands in front of the colon. -/
  word : String
  items : List String
  threshold : String

/-- The parts of a text `word:item,item;threshold`. -/
def GateParts.of? (raw : String) : Option GateParts :=
  match Text.split ';' (Text.trim raw) with
  | [head, threshold] =>
    (Text.cut ':' (Text.trim head)).map fun halves =>
      { word := Text.trim halves.1
        items := (Text.split ',' (Text.trim halves.2)).map Text.trim
        threshold := Text.trim threshold }
  | _ => none

theorem GateParts.of?_eq_some_iff {raw : String} {parts : GateParts} :
    GateParts.of? raw = some parts ↔ ∃ head last before after,
      Text.split ';' (Text.trim raw) = [head, last] ∧
        Text.cut ':' (Text.trim head) = some (before, after) ∧
        parts.word = Text.trim before ∧
        parts.items = (Text.split ',' (Text.trim after)).map Text.trim ∧
        parts.threshold = Text.trim last := by
  obtain ⟨word, items, threshold⟩ := parts
  dsimp only
  unfold of?
  constructor
  · intro h
    split at h
    · rename_i head last hsplit
      obtain ⟨⟨before, after⟩, hcut, heq⟩ := Option.map_eq_some_iff.1 h
      obtain ⟨rfl, rfl, rfl⟩ := GateParts.mk.inj heq
      exact ⟨head, last, before, after, hsplit, hcut, rfl, rfl, rfl⟩
    · cases h
  · rintro ⟨head, last, before, after, hsplit, hcut, hword, hitems, hthreshold⟩
    rw [hsplit, hword, hitems, hthreshold]
    simp only [hcut, Option.map_some]

section Parts

variable {raw : String} {parts : GateParts} (h : GateParts.of? raw = some parts)
include h

theorem GateParts.trim_word : Text.trim parts.word = parts.word := by
  obtain ⟨_, _, before, _, -, -, hword, -, -⟩ := GateParts.of?_eq_some_iff.1 h
  rw [hword, Text.trim_trim]

theorem GateParts.items_ne_nil : parts.items ≠ [] := by
  obtain ⟨_, _, _, _, -, -, -, hitems, -⟩ := GateParts.of?_eq_some_iff.1 h
  rw [hitems]
  exact fun hnil => Text.split_ne_nil _ _ (List.map_eq_nil_iff.1 hnil)

theorem GateParts.trim_item {item : String} (hitem : item ∈ parts.items) :
    Text.trim item = item := by
  obtain ⟨_, _, _, _, -, -, -, hitems, -⟩ := GateParts.of?_eq_some_iff.1 h
  rw [hitems] at hitem
  obtain ⟨field, -, rfl⟩ := List.mem_map.1 hitem
  exact Text.trim_trim field

end Parts

namespace GateRule

theorem readThreshold_eq_ok_iff {field : String} {threshold : Nat} :
    readThreshold field = .ok threshold ↔
      Text.readInt? field = some (threshold : Int) ∧ threshold < 0x100000000 := by
  unfold readThreshold Points.read?
  cases hread : Text.readInt? field with
  | none => simp
  | some n =>
    cases hpoints : Points.ofInt? n with
    | none =>
      have hrange := Points.ofInt?_eq_none_iff.1 hpoints
      simp only [Option.bind_some, hpoints, Option.some.injEq]
      refine ⟨nofun, fun ⟨hvalue, hlt⟩ => ?_⟩
      omega
    | some points =>
      obtain rfl := Points.ofInt?_eq_some_iff.1 hpoints
      simp only [Option.bind_some, hpoints, Option.some.injEq]
      constructor
      · intro h
        split at h
        · cases h
        · split at h
          · cases h
            omega
          · cases h
      · rintro ⟨hvalue, hlt⟩
        rw [if_neg (by omega), if_pos (by omega), hvalue]
        rfl

variable {rule twin : GateRule} {raw other : String}

/-- A text denotes a rule if its parts denote the parts of the rule. -/
theorem read_eq_ok_iff :
    read raw = .ok rule ↔ ∃ parts kind, GateParts.of? raw = some parts ∧
      readThreshold parts.threshold = .ok rule.threshold ∧
      Vocabulary.read? parts.word = some kind ∧
      GateDemand.ofItems kind parts.items = .ok rule.demand := by
  constructor
  · intro h
    unfold read at h
    simp only at h
    split at h
    · rename_i head last hsplit
      obtain ⟨threshold, hthreshold, h⟩ := bind_eq_ok_iff.1 h
      obtain ⟨demand, hdemand, h⟩ := bind_eq_ok_iff.1 h
      obtain ⟨before, after, kind, hcut, hkind, hitems⟩ := GateDemand.read_eq_ok_iff.1 hdemand
      cases h
      -- by its fields: a field of a written record would be compared by evaluating the text
      have hparts : ∃ parts : GateParts, parts.word = Text.trim before ∧
          parts.items = (Text.split ',' (Text.trim after)).map Text.trim ∧
          parts.threshold = Text.trim last :=
        ⟨⟨_, _, _⟩, by dsimp only, by dsimp only, by dsimp only⟩
      obtain ⟨parts, hword, hlist, hlast⟩ := hparts
      rw [← hword] at hkind
      rw [← hlist] at hitems
      rw [← hlast] at hthreshold
      exact ⟨parts, kind, GateParts.of?_eq_some_iff.2
        ⟨head, last, before, after, hsplit, hcut, hword, hlist, hlast⟩, hthreshold, hkind, hitems⟩
    · cases h
  · rintro ⟨parts, kind, hparts, hthreshold, hkind, hitems⟩
    obtain ⟨head, last, before, after, hsplit, hcut, hword, hlist, hlast⟩ :=
      GateParts.of?_eq_some_iff.1 hparts
    rw [hword] at hkind
    rw [hlist] at hitems
    rw [hlast] at hthreshold
    have hdemand : GateDemand.read (Text.trim head) = .ok rule.demand :=
      GateDemand.read_eq_ok_iff.2 ⟨before, after, kind, hcut, hkind, hitems⟩
    unfold read
    simp only [hsplit]
    exact bind_eq_ok_iff.2 ⟨_, hthreshold, bind_eq_ok_iff.2 ⟨_, hdemand, rfl⟩⟩

/-! ## Canonical rules -/

/-- A rule that some text denotes. -/
structure IsCanonical (rule : GateRule) : Prop where
  demand : rule.demand.IsCanonical
  threshold : rule.threshold < 0x100000000

theorem isCanonical_of_read (h : read raw = .ok rule) : rule.IsCanonical := by
  obtain ⟨parts, kind, hparts, hthreshold, -, hitems⟩ := read_eq_ok_iff.1 h
  exact ⟨GateDemand.isCanonical_of_ofItems (GateParts.items_ne_nil hparts) hitems,
    (readThreshold_eq_ok_iff.1 hthreshold).2⟩

/-- What stands in front of the semicolon in a rule's text. -/
def head (rule : GateRule) : String :=
  Vocabulary.name rule.demand.kind ++ String.singleton ':' ++ Text.join "," rule.demand.items

theorem text_eq_join (rule : GateRule) :
    rule.text = Text.join (String.singleton ';') [rule.head, Text.showNat rule.threshold] := rfl

theorem isSolid_join_items (h : rule.IsCanonical) :
    Text.IsSolid (Text.join "," rule.demand.items) :=
  Text.isSolid_join (GateDemand.items_ne_nil h.demand) fun _ hx =>
    isSolid_of_isNodeId (GateDemand.isNodeId_of_mem_items h.demand hx)

theorem isSolid_head (h : rule.IsCanonical) : Text.IsSolid rule.head :=
  (isSolid_of_isNodeId (Vocabulary.IsLegible.isNodeId_name rule.demand.kind)).append _
    (isSolid_join_items h)

theorem not_mem_head (h : rule.IsCanonical) : ';' ∉ rule.head.toList := by
  have hword {s : String} (hs : isNodeId s = true) : ';' ∉ s.toList :=
    not_mem_of_isNodeId hs (by decide)
  intro hmem
  simp only [head, String.toList_append, String.toList_singleton, List.mem_append] at hmem
  rcases hmem with (hmem | hmem) | hmem
  · exact hword (Vocabulary.IsLegible.isNodeId_name rule.demand.kind) hmem
  · exact absurd hmem (by decide)
  · rcases Text.mem_toList_join hmem with hsep | ⟨item, hitem, hmem⟩
    · exact absurd hsep (by decide)
    · exact hword (GateDemand.isNodeId_of_mem_items h.demand hitem) hmem

theorem parts_text (h : rule.IsCanonical) :
    GateParts.of? rule.text =
      some ⟨Vocabulary.name rule.demand.kind, rule.demand.items, Text.showNat rule.threshold⟩ := by
  have hnumeral := isNodeId_showNat rule.threshold
  have hname := Vocabulary.IsLegible.isNodeId_name rule.demand.kind
  have hsolid : ∀ x ∈ [rule.head, Text.showNat rule.threshold], Text.IsSolid x := by
    simp only [List.forall_mem_cons]
    exact ⟨isSolid_head h, isSolid_of_isNodeId hnumeral, nofun⟩
  have hsemicolon : ∀ x ∈ [rule.head, Text.showNat rule.threshold], ';' ∉ x.toList := by
    simp only [List.forall_mem_cons]
    exact ⟨not_mem_head h, not_mem_of_isNodeId hnumeral (by decide), nofun⟩
  have hitems : (Text.split ',' (Text.trim (Text.join "," rule.demand.items))).map Text.trim =
      rule.demand.items := by
    rw [(isSolid_join_items h).trimmed]
    have hsplit : Text.split ',' (Text.join "," rule.demand.items) = rule.demand.items :=
      Text.split_join (GateDemand.items_ne_nil h.demand) fun _ hx =>
        not_mem_of_isNodeId (GateDemand.isNodeId_of_mem_items h.demand hx) (by decide)
    rw [hsplit]
    exact Text.map_trim_eq_self fun _ hx =>
      isSolid_of_isNodeId (GateDemand.isNodeId_of_mem_items h.demand hx)
  rw [GateParts.of?_eq_some_iff]
  refine ⟨rule.head, Text.showNat rule.threshold, Vocabulary.name rule.demand.kind,
    Text.join "," rule.demand.items, ?_, ?_, ?_, hitems.symm, ?_⟩
  · rw [text_eq_join, (Text.isSolid_join (List.cons_ne_nil _ _) hsolid).trimmed]
    exact Text.split_join (List.cons_ne_nil _ _) hsemicolon
  · rw [(isSolid_head h).trimmed, Text.cut_eq_some_iff]
    exact ⟨rfl, not_mem_of_isNodeId hname (by decide)⟩
  · exact (isSolid_of_isNodeId hname).trimmed.symm
  · exact (isSolid_of_isNodeId hnumeral).trimmed.symm

/-- A canonical rule is read back from its text. -/
theorem read_text (h : rule.IsCanonical) : read rule.text = .ok rule := by
  have hthreshold : readThreshold (Text.showNat rule.threshold) = .ok rule.threshold := by
    refine readThreshold_eq_ok_iff.2 ⟨?_, h.threshold⟩
    have hshow : Text.showInt rule.threshold = Text.showNat rule.threshold := by
      rw [Text.showInt, if_neg (by omega), Int.natAbs_natCast]
    rw [← hshow, Text.readInt?_showInt]
  exact read_eq_ok_iff.2 ⟨_, rule.demand.kind, parts_text h, hthreshold,
    Vocabulary.IsLegible.read?_name _, GateDemand.ofItems_items h.demand⟩

theorem exists_read_iff : (∃ raw, read raw = .ok rule) ↔ rule.IsCanonical :=
  ⟨fun ⟨_, h⟩ => isCanonical_of_read h, fun h => ⟨_, read_text h⟩⟩

end GateRule

/-! ## Texts of one rule -/

/-- Two items of a list name the same thing. Ids are compared letter for letter. -/
def GateKind.SameItem : GateKind → String → String → Prop
  | .node, item, other => item = other
  | .runnerType, item, other | .runnerStat, item, other => Text.sameLetters item other = true

/-- The others name everything that the items name. -/
def GateKind.Covers (kind : GateKind) (others items : List String) : Prop :=
  ∀ item ∈ items, ∃ other ∈ others, kind.SameItem item other

section Words

variable {α : Type} [Vocabulary α] {items others : List String} {words twins : List α}

theorem forall_words_mem_iff [Vocabulary.IsLegible α] (hone : ∀ a : α, Vocabulary.aliases a = [])
    (hitems : ∀ item ∈ items, Text.trim item = item)
    (hothers : ∀ other ∈ others, Text.trim other = other)
    (h : items.map Vocabulary.read? = words.map some)
    (h' : others.map Vocabulary.read? = twins.map some) :
    (∀ a ∈ words, a ∈ twins) ↔
      ∀ item ∈ items, ∃ other ∈ others, Text.sameLetters item other = true := by
  constructor
  · intro hsub item hitem
    obtain ⟨a, ha, hread⟩ := exists_word_of_mem h hitem
    obtain ⟨other, hother, hread'⟩ := (mem_words_iff h').1 (hsub a ha)
    have hsame := (Vocabulary.eq_iff_sameLetters hone hread hread').1 rfl
    rw [hitems item hitem, hothers other hother] at hsame
    exact ⟨other, hother, hsame⟩
  · intro hall a ha
    obtain ⟨item, hitem, hread⟩ := (mem_words_iff h).1 ha
    obtain ⟨other, hother, hsame⟩ := hall item hitem
    obtain ⟨b, hb, hread'⟩ := exists_word_of_mem h' hother
    rw [← hitems item hitem, ← hothers other hother] at hsame
    rwa [(Vocabulary.eq_iff_sameLetters hone hread hread').2 hsame]

theorem inOrder_eq_iff_sameLetters [Vocabulary.IsLegible α] [DecidableEq α]
    (hone : ∀ a : α, Vocabulary.aliases a = []) (hitems : ∀ item ∈ items, Text.trim item = item)
    (hothers : ∀ other ∈ others, Text.trim other = other)
    (h : items.map Vocabulary.read? = words.map some)
    (h' : others.map Vocabulary.read? = twins.map some) :
    Vocabulary.inOrder words = Vocabulary.inOrder twins ↔
      (∀ item ∈ items, ∃ other ∈ others, Text.sameLetters item other = true) ∧
        ∀ other ∈ others, ∃ item ∈ items, Text.sameLetters other item = true := by
  rw [Vocabulary.inOrder_eq_inOrder_iff, ← forall_words_mem_iff hone hitems hothers h h',
    ← forall_words_mem_iff hone hothers hitems h' h]
  exact ⟨fun hiff => ⟨fun a => (hiff a).1, fun a => (hiff a).2⟩,
    fun ⟨hsub, hsup⟩ a => ⟨hsub a, hsup a⟩⟩

end Words

theorem GateDemand.eq_iff_covers {kind : GateKind} {items others : List String}
    {demand twin : GateDemand} (hitems : ∀ item ∈ items, Text.trim item = item)
    (hothers : ∀ other ∈ others, Text.trim other = other) (h : ofItems kind items = .ok demand)
    (h' : ofItems kind others = .ok twin) :
    demand = twin ↔ kind.Covers others items ∧ kind.Covers items others := by
  cases kind with
  | node =>
    obtain ⟨ids, hids, rfl⟩ := map_eq_ok_iff.1 h
    obtain ⟨ids', hids', rfl⟩ := map_eq_ok_iff.1 h'
    have hmem {id : String} : id ∈ ids ↔ id ∈ items := by
      rw [(readIds_eq_ok_iff.1 hids).2.2, or_iff_right (IdSet.not_mem_empty id)]
    have hmem' {id : String} : id ∈ ids' ↔ id ∈ others := by
      rw [(readIds_eq_ok_iff.1 hids').2.2, or_iff_right (IdSet.not_mem_empty id)]
    simp only [nodes.injEq, GateKind.Covers, GateKind.SameItem, exists_eq_right']
    constructor
    · rintro rfl
      exact ⟨fun item hitem => hmem'.1 (hmem.2 hitem), fun item hitem => hmem.1 (hmem'.2 hitem)⟩
    · rintro ⟨hsub, hsup⟩
      exact IdSet.ext fun id =>
        ⟨fun hid => hmem'.2 (hsub id (hmem.1 hid)), fun hid => hmem.2 (hsup id (hmem'.1 hid))⟩
  | runnerType =>
    obtain ⟨types, htypes, rfl⟩ := map_eq_ok_iff.1 h
    obtain ⟨types', htypes', rfl⟩ := map_eq_ok_iff.1 h'
    rw [readWords_eq_ok_iff] at htypes htypes'
    rw [runnerTypes.injEq]
    exact inOrder_eq_iff_sameLetters (fun _ => rfl) hitems hothers htypes htypes'
  | runnerStat =>
    obtain ⟨stats, hstats, rfl⟩ := map_eq_ok_iff.1 h
    obtain ⟨stats', hstats', rfl⟩ := map_eq_ok_iff.1 h'
    rw [readWords_eq_ok_iff] at hstats hstats'
    rw [runnerStats.injEq]
    exact inOrder_eq_iff_sameLetters (fun _ => rfl) hitems hothers hstats hstats'

namespace GateRule

variable {rule twin : GateRule} {raw other : String}

/-- Two texts denote one rule if and only if their parts name the same things. -/
theorem eq_iff_parts {parts others : GateParts} (hparts : GateParts.of? raw = some parts)
    (hothers : GateParts.of? other = some others) (h : read raw = .ok rule)
    (h' : read other = .ok twin) :
    rule = twin ↔ Text.sameLetters parts.word others.word = true ∧
      Text.readInt? parts.threshold = Text.readInt? others.threshold ∧
      rule.demand.kind.Covers others.items parts.items ∧
      rule.demand.kind.Covers parts.items others.items := by
  obtain ⟨_, kind, heq, hthreshold, hkind, hitems⟩ := read_eq_ok_iff.1 h
  obtain rfl := Option.some.inj (hparts.symm.trans heq)
  obtain ⟨_, kind', heq', hthreshold', hkind', hitems'⟩ := read_eq_ok_iff.1 h'
  obtain rfl := Option.some.inj (hothers.symm.trans heq')
  have hword : kind = kind' ↔ Text.sameLetters parts.word others.word = true := by
    rw [Vocabulary.eq_iff_sameLetters (fun _ => rfl) hkind hkind', GateParts.trim_word hparts,
      GateParts.trim_word hothers]
  have hnumber : rule.threshold = twin.threshold ↔
      Text.readInt? parts.threshold = Text.readInt? others.threshold := by
    rw [(readThreshold_eq_ok_iff.1 hthreshold).1, (readThreshold_eq_ok_iff.1 hthreshold').1,
      Option.some.injEq, Int.natCast_inj]
  have hdemand (hsame : kind = kind') : rule.demand = twin.demand ↔
      kind.Covers others.items parts.items ∧ kind.Covers parts.items others.items := by
    subst hsame
    exact GateDemand.eq_iff_covers (fun _ => GateParts.trim_item hparts)
      (fun _ => GateParts.trim_item hothers) hitems hitems'
  rw [GateDemand.kind_of_ofItems hitems, ← hword, ← hnumber]
  constructor
  · rintro rfl
    have hsame : kind = kind' :=
      (GateDemand.kind_of_ofItems hitems).symm.trans (GateDemand.kind_of_ofItems hitems')
    exact ⟨hsame, rfl, (hdemand hsame).1 rfl⟩
  · rintro ⟨hsame, hvalue, hcovers⟩
    obtain ⟨demand, threshold⟩ := rule
    obtain ⟨demand', threshold'⟩ := twin
    exact (GateRule.mk.injEq ..).mpr ⟨(hdemand hsame).2 hcovers, hvalue⟩

/-! ## The main statement -/

/-- **Canonical texts identify gate rules.** What a text denotes, its canonical text denotes too, and that
text is canonical for itself; two texts denote one rule if and only if they have one canonical text. That
they denote one rule depends on their parts alone: on the word and the listed types or stats up to letter
case, order and repetition, on the listed ids letter for letter up to order, and on the value of the
threshold. The rules that texts denote are the canonical ones. -/
theorem text_identifies_rule :
    (∀ raw rule, read raw = .ok rule → read rule.text = .ok rule ∧
      RuleCheck.ofGate rule.text = .valid rule rule.text) ∧
    (∀ raw other rule twin, read raw = .ok rule → read other = .ok twin →
      (rule = twin ↔ rule.text = twin.text)) ∧
    (∀ raw other rule twin, read raw = .ok rule → read other = .ok twin →
      ∃ parts others, GateParts.of? raw = some parts ∧ GateParts.of? other = some others ∧
        (rule = twin ↔ Text.sameLetters parts.word others.word = true ∧
          Text.readInt? parts.threshold = Text.readInt? others.threshold ∧
          rule.demand.kind.Covers others.items parts.items ∧
          rule.demand.kind.Covers parts.items others.items)) ∧
    ∀ rule, (∃ raw, read raw = .ok rule) ↔ rule.IsCanonical := by
  have hback {raw : String} {rule : GateRule} (h : read raw = .ok rule) :
      read rule.text = .ok rule := read_text (isCanonical_of_read h)
  refine ⟨fun raw rule h => ⟨hback h, ?_⟩, fun raw other rule twin h h' => ⟨?_, fun heq => ?_⟩,
    fun raw other rule twin h h' => ?_, fun rule => exists_read_iff⟩
  · rw [RuleCheck.ofGate, hback h]
  · rintro rfl
    rfl
  · have hread := hback h
    rw [heq, hback h'] at hread
    cases hread
    rfl
  · obtain ⟨parts, -, hparts, -⟩ := read_eq_ok_iff.1 h
    obtain ⟨others, -, hothers, -⟩ := read_eq_ok_iff.1 h'
    exact ⟨parts, others, hparts, hothers, eq_iff_parts hparts hothers h h'⟩

end GateRule

end PerkGraph
