import Mathlib.Data.List.Basic
import PerkGraph.Proofs.JsonText
import PerkGraph.Stored.Contract
import PerkGraph.Stored.Session

/-!
# Stored forms are lossless

What is stored is decoded again: node records, contract files (`ContractFile.ofText_toText`), assignments,
rosters and sessions (`Session.ofText_toText`). A record is written as an object with its fields in the order
of their declaration, so decoding it folds over the fields, each of them taken once
(`fields_record`); a field that is left out keeps its default.
-/

namespace PerkGraph

namespace Json

variable {ε σ α : Type}

/-! ## Decoding what is written -/

@[simp] theorem text_string (s : String) : (Json.string s).text = (.ok s : Except (Fault ε) String) :=
  rfl

theorem natBelow_nat {n bound : Nat} (h : n < bound) :
    (Json.nat n).natBelow bound = (.ok n : Except (Fault ε) Nat) := by
  have hrange : 0 ≤ (n : Int) ∧ (n : Int) < bound := by omega
  rw [nat, natBelow, if_pos hrange, Int.toNat_natCast]

@[simp] theorem word32_nat (n : UInt32) :
    (Json.nat n.toNat).word32 = (.ok n : Except (Fault ε) UInt32) := by
  rw [word32, natBelow_nat n.toNat_lt]
  exact congrArg Except.ok UInt32.ofNat_toNat

theorem list_array {decode : Json → Except (Fault ε) α} {encode : α → Json} {xs : List α}
    (h : ∀ x ∈ xs, decode (encode x) = .ok x) :
    (Json.array (xs.map encode)).list decode = .ok xs := by
  rw [list]
  induction xs with
  | nil => rfl
  | cons x rest ih =>
    rw [List.map_cons, List.mapM_cons, h x List.mem_cons_self,
      ih fun y hy => h y (List.mem_cons_of_mem _ hy)]
    rfl

@[simp] theorem list_strings (xs : List String) :
    (strings xs).list text = (.ok xs : Except (Fault ε) (List String)) :=
  list_array fun _ _ => rfl

/-! ## Records -/

section Records

variable {take : String → Json → σ → Except (Fault ε) σ} {names : List String}
  {given : List (String × Json)}

theorem takeFields_record {seen : List String} {state : σ}
    (hknown : ∀ field ∈ given, field.1 ∈ names) (hnodup : (given.map Prod.fst).Nodup)
    (hnew : ∀ field ∈ given, field.1 ∉ seen) :
    takeFields names take (given.map fun field => (some field.1, field.2)) seen state =
      given.foldlM (fun state field => take field.1 field.2 state) state := by
  induction given generalizing seen state with
  | nil => rfl
  | cons field rest ih =>
    obtain ⟨hfirst, hrest⟩ := List.nodup_cons.1 hnodup
    rw [List.map_cons, takeFields, if_pos (hknown field List.mem_cons_self),
      if_neg (hnew field List.mem_cons_self), List.foldlM_cons]
    refine bind_congr fun next => ih (fun other hother => hknown other (List.mem_cons_of_mem _ hother))
      hrest fun other hother => ?_
    rw [List.mem_cons, not_or]
    refine ⟨fun heq => hfirst ?_, hnew other (List.mem_cons_of_mem _ hother)⟩
    exact List.mem_map.2 ⟨other, hother, heq⟩

theorem map_of_ok {result : Except (Fault ε) σ} {a : σ} (h : result = .ok a) (f : σ → α) :
    result.map f = .ok (f a) := by
  rw [h]
  rfl

theorem ok_bind (state : σ) (next : σ → Except (Fault ε) α) :
    ((.ok state : Except (Fault ε) σ) >>= next) = next state :=
  rfl

/-- **A record written in the order of its declaration** is decoded field by field. -/
theorem fields_record {start : σ} (hnodup : names.Nodup) (h : (given.map Prod.fst).Sublist names) :
    (record given).fields names take start =
      given.foldlM (fun state field => take field.1 field.2 state) start :=
  takeFields_record (fun field hfield => h.subset (List.mem_map.2 ⟨field, hfield, rfl⟩))
    (hnodup.sublist h) fun _ _ => List.not_mem_nil

end Records

/-! ## Printable trees -/

theorem isPrintable_record {given : List (String × Json)}
    (h : ∀ field ∈ given, field.2.isPrintable = true) : (record given).isPrintable = true := by
  change fieldsArePrintable _ = true
  induction given with
  | nil => rfl
  | cons field rest ih =>
    simp only [List.map_cons, fieldsArePrintable, Option.isSome_some, Bool.true_and, Bool.and_eq_true]
    exact ⟨h field List.mem_cons_self, ih fun other hother => h other (List.mem_cons_of_mem _ hother)⟩

theorem isPrintable_array {items : List Json} (h : ∀ item ∈ items, item.isPrintable = true) :
    (Json.array items).isPrintable = true := by
  change arePrintable items = true
  induction items with
  | nil => rfl
  | cons item rest ih =>
    rw [arePrintable, h item List.mem_cons_self, Bool.true_and]
    exact ih fun other hother => h other (List.mem_cons_of_mem _ hother)

theorem isPrintable_strings (texts : List String) : (strings texts).isPrintable = true := by
  refine isPrintable_array fun item hitem => ?_
  obtain ⟨text, -, rfl⟩ := List.mem_map.1 hitem
  rfl

end Json

/-! ## Words -/

/-- A vocabulary whose words are read from their names, letter for letter. -/
class Vocabulary.IsNamed (α : Type) [Vocabulary α] : Prop where
  named?_name (a : α) : Vocabulary.named? (Vocabulary.name a) = some a

instance : Vocabulary.IsNamed NodeKind := ⟨fun a => by cases a <;> decide⟩

instance : Vocabulary.IsNamed NodeColor := ⟨fun a => by cases a <;> decide⟩

instance : Vocabulary.IsNamed RunnerType := ⟨fun a => by cases a <;> decide⟩

@[simp] theorem Json.word_name {ε α : Type} [Vocabulary α] [Vocabulary.IsNamed α] (a : α) :
    (Json.string (Vocabulary.name a)).word = (.ok a : Except (Json.Fault ε) α) := by
  rw [word, Vocabulary.IsNamed.named?_name]
  rfl

/-! ## Contracts -/

namespace NodeRecord

variable {ε : Type}

theorem names_optionalField (name : String) (value : Option String) :
    ((optionalField name value).map Prod.fst).Sublist [name] := by
  cases value with
  | none => exact List.nil_sublist _
  | some text => exact List.Sublist.refl _

/-- The fields of a record are written in the order of their declaration, some left out. -/
theorem ofJson_toJson (record : NodeRecord) :
    ofJson record.toJson = (.ok record : Except (Json.Fault ε) NodeRecord) := by
  rw [ofJson, toJson, Json.fields_record (by decide)]
  · obtain ⟨id, kind, color, effect1, effect2, gate, connections⟩ := record
    cases effect1 <;> cases effect2 <;> cases gate <;>
      simp [optionalField, takeField, Json.optional, Except.map, bind, Except.bind, pure,
        Except.pure]
  · simp only [List.map_append]
    have hfirst : ["id", "kind", "color"].Sublist ["id", "kind", "color"] := .refl _
    have hlast : ["connections"].Sublist ["connections"] := .refl _
    exact (((hfirst.append (names_optionalField "effect1" _)).append
      (names_optionalField "effect2" _)).append (names_optionalField "gate" _)).append hlast

theorem isPrintable_toJson (record : NodeRecord) : record.toJson.isPrintable = true := by
  have hoptional (name : String) (value : Option String) :
      ∀ field ∈ optionalField name value, field.2.isPrintable = true := by
    cases value with
    | none => simp [optionalField]
    | some text => simp [optionalField, Json.isPrintable]
  refine Json.isPrintable_record fun field hfield => ?_
  simp only [List.mem_append, List.mem_cons, List.not_mem_nil, or_false] at hfield
  rcases hfield with ((((rfl | rfl | rfl) | h) | h) | h) | rfl
  · rfl
  · rfl
  · rfl
  · exact hoptional _ _ field h
  · exact hoptional _ _ field h
  · exact hoptional _ _ field h
  · exact Json.isPrintable_strings _

end NodeRecord

namespace ContractFile

variable {ε : Type}

theorem ofJson_toJson (file : ContractFile) :
    ofJson file.toJson = (.ok file : Except (Json.Fault ε) ContractFile) := by
  have hnodes : (Json.array (file.nodes.map NodeRecord.toJson)).list NodeRecord.ofJson =
      (.ok file.nodes : Except (Json.Fault ε) (List NodeRecord)) :=
    Json.list_array fun record _ => NodeRecord.ofJson_toJson record
  rw [ofJson, toJson, Json.fields_record (by decide)]
  · simp [takeField, hnodes, Except.map, bind, Except.bind, pure, Except.pure]
  · exact .refl _

theorem isPrintable_toJson (file : ContractFile) : file.toJson.isPrintable = true := by
  refine Json.isPrintable_record fun field hfield => ?_
  simp only [List.mem_cons, List.not_mem_nil, or_false] at hfield
  rcases hfield with rfl | rfl
  · rfl
  · refine Json.isPrintable_array fun item hitem => ?_
    obtain ⟨record, -, rfl⟩ := List.mem_map.1 hitem
    exact record.isPrintable_toJson

/-- **A contract file is read back from its text.** -/
theorem ofText_toText (file : ContractFile) :
    ofText file.toText = (.ok file : Except (Json.Fault ε) ContractFile) := by
  rw [ofText, toText, Json.read_printLine file.isPrintable_toJson]
  simp only [Json.decodeWhole, ofJson_toJson]
  rfl

end ContractFile

/-! ## Sessions -/

namespace Assignment

variable {ε : Type}

theorem ofJson_toJson {assignment : Assignment} (h : assignment.slot < 0x10000000000000000) :
    ofJson assignment.toJson = (.ok assignment : Except (Json.Fault ε) Assignment) := by
  rw [ofJson, toJson, Json.fields_record (by decide)]
  -- fields are taken by rewriting: the bounds of numbers are too large to be reached by reduction
  · simp only [List.foldlM_cons, takeField, Json.map_of_ok (Json.natBelow_nat h),
      Json.map_of_ok (Json.word_name _), Json.map_of_ok (Json.word32_nat _), Json.ok_bind]
    rfl
  · exact .refl _

theorem isPrintable_toJson (assignment : Assignment) : assignment.toJson.isPrintable = true := by
  refine Json.isPrintable_record fun field hfield => ?_
  simp only [List.mem_cons, List.not_mem_nil, or_false] at hfield
  rcases hfield with rfl | rfl | rfl | rfl | rfl | rfl <;> rfl

end Assignment

namespace Roster

/-- A roster is filled again from its own assignments. -/
theorem ofList_toList (roster : Roster) : ofList roster.toList = .ok roster := by
  obtain ⟨⟨⟨runners⟩, hsize⟩⟩ := roster
  obtain ⟨first, second, third, rfl⟩ := List.length_eq_three.1 hsize
  rfl

theorem ofJson_toJson (roster : Roster) : ofJson roster.toJson = .ok roster := by
  have hlist : (Json.array (roster.toList.map Assignment.toJson)).list Assignment.ofJson =
      (.ok roster.toList : Except (Json.Fault RosterError) (List Assignment)) := by
    refine Json.list_array fun assignment hassignment => Assignment.ofJson_toJson ?_
    obtain ⟨slot, -, rfl⟩ := List.mem_map.1 hassignment
    exact Nat.lt_trans slot.isLt (by decide)
  rw [ofJson, toJson, hlist]
  change (ofList roster.toList).mapError Json.Fault.refused = _
  rw [ofList_toList]
  rfl

theorem isPrintable_toJson (roster : Roster) : roster.toJson.isPrintable = true := by
  refine Json.isPrintable_array fun item hitem => ?_
  obtain ⟨assignment, -, rfl⟩ := List.mem_map.1 hitem
  exact assignment.isPrintable_toJson

end Roster

namespace Selection

theorem ids_foldl_insert {s : Selection} {xs : List String} (hnodup : xs.Nodup)
    (hnew : ∀ x ∈ xs, x ∉ s) : (xs.foldl insert s).ids = s.ids ++ xs := by
  induction xs generalizing s with
  | nil => rw [List.foldl_nil, List.append_nil]
  | cons x rest ih =>
    obtain ⟨hx, hrest⟩ := List.nodup_cons.1 hnodup
    have hids : (s.insert x).ids = s.ids ++ [x] :=
      ids_insert_of_not_mem (hnew x List.mem_cons_self)
    rw [List.foldl_cons, ih hrest, hids, List.append_assoc]
    · rfl
    · intro y hy hmem
      rcases mem_insert.1 hmem with hs | rfl
      · exact hnew y (List.mem_cons_of_mem _ hy) hs
      · exact hx hy

/-- Distinct ids are a selection as they stand. -/
theorem ofList_ids (s : Selection) : ofList s.ids = s :=
  Selection.ext (ids_foldl_insert s.nodup fun _ _ => List.not_mem_nil)

theorem ofJson_strings {ε : Type} (s : Selection) :
    ofJson (.strings s.ids) = (.ok s : Except (Json.Fault ε) Selection) := by
  rw [ofJson, Json.list_strings]
  exact congrArg Except.ok s.ofList_ids

end Selection

namespace Session

theorem ofJson_toJson (session : Session) : ofJson session.toJson = .ok session := by
  rw [ofJson, toJson, Json.fields_record (by decide)]
  · simp [takeField, Roster.ofJson_toJson, Selection.ofJson_strings, Except.map, bind, Except.bind,
      pure, Except.pure]
  · exact .refl _

theorem isPrintable_toJson (session : Session) : session.toJson.isPrintable = true := by
  refine Json.isPrintable_record fun field hfield => ?_
  simp only [List.mem_cons, List.not_mem_nil, or_false] at hfield
  rcases hfield with rfl | rfl
  · exact session.roster.isPrintable_toJson
  · exact Json.isPrintable_strings _

/-- **A session is read back from its text.** -/
theorem ofText_toText (session : Session) : ofText session.toText = .ok session := by
  rw [ofText, toText, Json.read_printLine session.isPrintable_toJson]
  simp only [Json.decodeWhole, ofJson_toJson]
  rfl

end Session

end PerkGraph
