import PerkGraph.Toml.Reader
import PerkGraph.Text.Fields

/-!
# Plain documents are read back

A plain document is a list of sections: a header, settings with numbers and words as their values, an empty line. It
is read as the table of its sections (`read?_text`), if its keys are bare and distinct, its numbers fit in 128 bits
and nothing in its words has a meaning of its own.

The proof follows the reader. Scanned line by line, the text gives the tokens of its lines (`scan_lines`), these give
one statement for each line that is not empty (`statements?_lines`), and the statements build one table for each
header and put the settings behind it into that table (`build?_parts`).
-/

namespace PerkGraph.Toml

/-! ## Lines -/

/-- A value of a plain document. -/
inductive Plain where
  | number (n : Nat)
  | word (s : String)

namespace Plain

def text : Plain → String
  | .number n => Text.showNat n
  | .word s => "\"" ++ s ++ "\""

def token : Plain → Token
  | .number n => .atom (Text.showNat n)
  | .word s => .string s

def value : Plain → Toml
  | .number n => .integer n
  | .word s => .string s

end Plain

/-- A character that stands for itself between double quotation marks. -/
def isPlainChar (c : Char) : Bool :=
  c != '"' && c != '\\' && !isControl c

/-- The value means what is written. -/
def Plain.IsPlain : Plain → Prop
  | .number n => n < 0x100000000000000000000000000000000
  | .word s => s ≠ "" ∧ s.toList.all isPlainChar = true

/-- A key that needs no quotation marks. -/
def IsBareKey (key : String) : Prop :=
  key ≠ "" ∧ key.toList.all isBareChar = true

instance (key : String) : Decidable (IsBareKey key) :=
  inferInstanceAs (Decidable (_ ∧ _))

theorem exists_toList_eq_cons {s : String} (h : s ≠ "") : ∃ c cs, s.toList = c :: cs :=
  List.exists_cons_of_ne_nil (mt String.toList_eq_nil_iff.1 h)

theorem IsBareKey.exists_cons {key : String} (h : IsBareKey key) :
    ∃ c cs, key.toList = c :: cs ∧ isBareChar c = true ∧ ∀ d ∈ cs, isBareChar d = true := by
  obtain ⟨hne, hbare⟩ := h
  obtain ⟨c, cs, hcs⟩ := exists_toList_eq_cons hne
  rw [hcs, List.all_eq_true] at hbare
  exact ⟨c, cs, hcs, List.forall_mem_cons.1 hbare⟩

/-- A line of a plain document. -/
inductive Line where
  | blank
  | header (key : String)
  | setting (key : String) (value : Plain)

namespace Line

def text : Line → String
  | .blank => ""
  | .header key => "[" ++ key ++ "]"
  | .setting key value => key ++ " = " ++ value.text

def tokens : Line → List Token
  | .blank => []
  | .header key => [.openBracket, .atom key, .closeBracket]
  | .setting key value => [.atom key, .space, .equals, .space, value.token]

def statement? : Line → Option Statement
  | .blank => none
  | .header key => some (.header [key])
  | .setting key value => some (.assign [key] value.value)

def IsPlain : Line → Prop
  | .blank => True
  | .header key => IsBareKey key
  | .setting key value => IsBareKey key ∧ value.IsPlain

end Line

/-! ## Scanning -/

/-- A character that ends the atom in front of it. -/
def endsAtom (c : Char) : Bool :=
  (punctuation? c).isSome || c == '#' || c == '\r'

theorem endsAtom_of_isBareChar {c : Char} (h : isBareChar c = true) : endsAtom c = false := by
  rw [← Bool.not_eq_true]
  intro hends
  simp only [endsAtom, punctuation?, Bool.or_eq_true, beq_iff_eq] at hends
  rcases hends with (hpunctuation | rfl) | rfl
  · split at hpunctuation <;> first | exact absurd h (by decide) | exact absurd hpunctuation (by decide)
  · cases h
  · cases h

theorem begin_of_isBareChar {c : Char} (h : isBareChar c = true) : begin c = ([], .atom [c]) := by
  have hends := endsAtom_of_isBareChar h
  simp only [endsAtom, Bool.or_eq_false_iff, Option.isSome_eq_false_iff, Option.isNone_iff_eq_none] at hends
  have hquote : (c == '"' || c == '\'') = false := by
    rw [← Bool.not_eq_true]
    intro hquote
    simp only [Bool.or_eq_true, beq_iff_eq] at hquote
    rcases hquote with rfl | rfl <;> cases h
  simp [begin, hends, hquote]

theorem scan_atom {cs : List Char} (hcs : ∀ c ∈ cs, endsAtom c = false) (text : List Char) {c : Char}
    (hc : endsAtom c = true) (rest : List Char) :
    scan (.atom text) (cs ++ c :: rest) =
      .atom (String.ofList (text.reverse ++ cs)) :: scan .between (c :: rest) := by
  induction cs generalizing text with
  | nil =>
    rw [endsAtom] at hc
    simp [scan, Lexing.next?, hc]
  | cons d cs ih =>
    obtain ⟨hd, hcs⟩ := List.forall_mem_cons.1 hcs
    rw [endsAtom] at hd
    rw [List.cons_append, scan, Lexing.next?]
    simp only [hd]
    rw [ih hcs, List.reverse_cons, List.append_assoc]
    rfl

/-- A word of bare characters is one atom. -/
theorem scan_bare {s : String} (h : IsBareKey s) {c : Char} (hc : endsAtom c = true) (rest : List Char) :
    scan .between (s.toList ++ c :: rest) = .atom s :: scan .between (c :: rest) := by
  obtain ⟨d, cs, hcs, hd, hrest⟩ := h.exists_cons
  rw [hcs, List.cons_append, scan, Lexing.next?, begin_of_isBareChar hd]
  simp only [List.nil_append]
  rw [scan_atom (fun e he => endsAtom_of_isBareChar (hrest e he)) [d] hc, List.reverse_singleton,
    List.singleton_append, ← hcs, String.ofList_toList]

theorem scan_inside {cs : List Char} (hcs : ∀ c ∈ cs, isPlainChar c = true)
    (content rest : List Char) :
    scan (.inside { mark := '"', triple := false } content) (cs ++ '"' :: rest) =
      .string (String.ofList (content.reverse ++ cs)) :: scan .between rest := by
  induction cs generalizing content with
  | nil =>
    rw [List.append_nil]
    rfl
  | cons c cs ih =>
    obtain ⟨hc, hcs⟩ := List.forall_mem_cons.1 hcs
    obtain ⟨⟨hquote, hbackslash⟩, hcontrol⟩ : (c ≠ '"' ∧ c ≠ '\\') ∧ isControl c = false := by
      simpa [isPlainChar] using hc
    have hnext : Lexing.insideNext? { mark := '"', triple := false } content c =
        some ([], .inside { mark := '"', triple := false } (c :: content)) := by
      simp [Lexing.insideNext?, hquote, hbackslash, hcontrol]
    rw [List.cons_append, scan, Lexing.next?, hnext]
    simp only [List.nil_append]
    rw [ih hcs, List.reverse_cons, List.append_assoc]
    rfl

/-- A word between quotation marks is one string. -/
theorem scan_quoted {s : String} (h : (Plain.word s).IsPlain) (rest : List Char) :
    scan .between ('"' :: s.toList ++ '"' :: rest) = .string s :: scan .between rest := by
  obtain ⟨hne, hchars⟩ := h
  obtain ⟨c, cs, hcs⟩ := exists_toList_eq_cons hne
  rw [List.all_eq_true] at hchars
  have hc : c ≠ '"' := by
    rintro rfl
    exact absurd (hchars _ (hcs ▸ List.mem_cons_self)) (by decide)
  -- the first character decides that the mark before it opens a string on one line
  have hopening : scan .between ('"' :: s.toList ++ '"' :: rest) =
      scan (.inside { mark := '"', triple := false } []) (s.toList ++ '"' :: rest) := by
    have hbegin : begin '"' = ([], .opening '"' false) := rfl
    rw [List.cons_append, scan, Lexing.next?, hbegin, hcs]
    simp [scan, Lexing.next?, hc]
  rw [hopening, scan_inside hchars, List.reverse_nil, List.nil_append, String.ofList_toList]

theorem isBareKey_showNat (n : Nat) : IsBareKey (Text.showNat n) := by
  refine ⟨fun h => Text.digits_ne_nil n ?_, List.all_eq_true.2 fun c hc => ?_⟩
  · exact (String.toList_ofList).symm.trans (String.toList_eq_nil_iff.2 h)
  · rw [Text.showNat, String.toList_ofList] at hc
    simp [isBareChar, Char.isAlphanum, Text.isDigit_of_mem_digits n c hc]

theorem scan_value {value : Plain} (h : value.IsPlain) (rest : List Char) :
    scan .between (value.text.toList ++ '\n' :: rest) = value.token :: scan .between ('\n' :: rest) := by
  cases value with
  | number n => exact scan_bare (isBareKey_showNat n) (by decide) rest
  | word s =>
    have htext : (Plain.word s).text.toList ++ '\n' :: rest = '"' :: s.toList ++ '"' :: '\n' :: rest := by
      simp [Plain.text]
    rw [htext]
    exact scan_quoted h _

/-- **A line gives its tokens**, and the newline behind it one more. -/
theorem scan_line {line : Line} (h : line.IsPlain) (rest : List Char) :
    scan .between (line.text.toList ++ '\n' :: rest) = line.tokens ++ .newline :: scan .between rest := by
  have hnewline : scan .between ('\n' :: rest) = .newline :: scan .between rest := rfl
  cases line with
  | blank => exact hnewline
  | header key =>
    have htext : (Line.header key).text.toList ++ '\n' :: rest = '[' :: (key.toList ++ ']' :: '\n' :: rest) := by
      simp [Line.text]
    have hopen (cs : List Char) : scan .between ('[' :: cs) = .openBracket :: scan .between cs := rfl
    have hclose (cs : List Char) : scan .between (']' :: cs) = .closeBracket :: scan .between cs := rfl
    rw [htext, hopen, scan_bare h (by decide), hclose, hnewline]
    rfl
  | setting key value =>
    have htext : (Line.setting key value).text.toList ++ '\n' :: rest =
        key.toList ++ ' ' :: '=' :: ' ' :: (value.text.toList ++ '\n' :: rest) := by
      simp [Line.text]
    have hequals (cs : List Char) : scan .between (' ' :: '=' :: ' ' :: cs) =
        .space :: .equals :: .space :: scan .between cs := rfl
    rw [htext, scan_bare h.1 (by decide), hequals, scan_value h.2, hnewline]
    rfl

/-- The tokens of lines, each ended by a newline. -/
def lineTokens (lines : List Line) : List Token :=
  lines.flatMap fun line => line.tokens ++ [.newline]

theorem lineTokens_cons (line : Line) (rest : List Line) :
    lineTokens (line :: rest) = line.tokens ++ .newline :: lineTokens rest := by
  simp [lineTokens]

theorem scan_lines {lines : List Line} (h : ∀ line ∈ lines, line.IsPlain) :
    scan .between (Text.lines (lines.map Line.text)).toList = lineTokens lines := by
  induction lines with
  | nil => rfl
  | cons line rest ih =>
    obtain ⟨hline, hrest⟩ := List.forall_mem_cons.1 h
    have htext : (Text.lines ((line :: rest).map Line.text)).toList =
        line.text.toList ++ '\n' :: (Text.lines (rest.map Line.text)).toList := by
      simp [Text.lines]
    rw [htext, scan_line hline, ih hrest, lineTokens_cons]

/-- A plain document does not begin with a byte order mark. -/
theorem tokens_lines {lines : List Line} (h : ∀ line ∈ lines, line.IsPlain) :
    tokens (Text.lines (lines.map Line.text)) = lineTokens lines := by
  have hmark : (Text.lines (lines.map Line.text)).toList.head? ≠ some '\uFEFF' := by
    cases lines with
    | nil => simp [Text.lines]
    | cons line rest =>
      have hline := h line List.mem_cons_self
      cases line with
      | blank => simp [Text.lines, Line.text]
      | header key => simp [Text.lines, Line.text]
      | setting key value =>
        obtain ⟨c, cs, hcs, hc, -⟩ := hline.1.exists_cons
        simp only [Text.lines, Line.text, List.map_cons, String.toList_append, hcs, List.cons_append,
          List.head?_cons, ne_eq, Option.some.injEq]
        rintro rfl
        exact absurd hc (by decide)
  rw [← scan_lines h, tokens]
  split
  · rename_i heq
    exact absurd (by rw [heq, List.head?_cons]) hmark
  · rfl

/-! ## Numbers -/

theorem isSeparated_of_not_mem {p : Char → Bool} {cs : List Char} (h : '_' ∉ cs) : isSeparated p cs = true := by
  fun_induction isSeparated p cs <;> simp_all

theorem separated?_digits (n : Nat) : separated? Char.isDigit (Text.digits n) = some (Text.digits n) := by
  have hdigit := Text.isDigit_of_mem_digits n
  have hmark : '_' ∉ Text.digits n := fun h => absurd (hdigit _ h) (by decide)
  have hfilter : (Text.digits n).filter (fun c => c != '_') = Text.digits n := by
    rw [List.filter_eq_self]
    rintro c hc
    simp only [bne_iff_ne]
    rintro rfl
    exact hmark hc
  rw [separated?, hfilter, if_pos ⟨Text.digits_ne_nil n, List.all_eq_true.2 hdigit, isSeparated_of_not_mem hmark⟩]

theorem unsign_digits (n : Nat) : unsign (Text.digits n) = (false, Text.digits n) := by
  unfold unsign
  split
  · rename_i heq
    exact absurd (Text.isDigit_of_mem_digits n '-' (heq ▸ List.mem_cons_self)) (by decide)
  · rename_i heq
    exact absurd (Text.isDigit_of_mem_digits n '+' (heq ▸ List.mem_cons_self)) (by decide)
  · rfl

theorem decimalDigits?_digits (n : Nat) : decimalDigits? (Text.digits n) = some (Text.digits n) := by
  unfold decimalDigits?
  split
  · rename_i heq
    rcases Nat.eq_zero_or_pos n with rfl | hn
    · rw [Text.digits, if_pos (by decide)] at heq
      cases heq
    · obtain ⟨c, rest, hdigits, hc⟩ := Text.digits_eq_cons hn
      exact absurd (List.cons.inj (hdigits.symm.trans heq)).1 hc
  · exact separated?_digits n

/-- A numeral names no base, since it is all digits. -/
theorem unboundedInteger?_digits (n : Nat) : unboundedInteger? (Text.digits n) = some (n : Int) := by
  have hbase {mark : Char} {rest : List Char} (hmark : mark.isDigit = false) :
      Text.digits n ≠ '0' :: mark :: rest := fun heq => by
    have hdigit := Text.isDigit_of_mem_digits n mark (heq ▸ List.mem_cons_of_mem _ List.mem_cons_self)
    exact absurd hdigit (by simp [hmark])
  unfold unboundedInteger?
  split
  · exact absurd ‹_› (hbase rfl)
  · exact absurd ‹_› (hbase rfl)
  · exact absurd ‹_› (hbase rfl)
  · simp [unsign_digits, decimalDigits?_digits, signed, Text.digitsValue_digits]

theorem scalar?_digits {n : Nat} (h : (Plain.number n).IsPlain) : scalar? (Text.digits n) = some (.integer n) := by
  have hword {c : Char} {rest : List Char} (hc : c.isDigit = false) : Text.digits n ≠ c :: rest := fun heq => by
    exact absurd (Text.isDigit_of_mem_digits n c (heq ▸ List.mem_cons_self)) (by simp [hc])
  have hbound : n < 0x100000000000000000000000000000000 := h
  rw [scalar?, if_neg (hword rfl), if_neg (hword rfl), unboundedInteger?_digits]
  simp only [ofInteger]
  rw [if_pos (by omega)]

/-! ## Statements -/

theorem dottedKey?_bare {key : String} (h : IsBareKey key) : dottedKey? [.atom key] = some [key] := by
  have hkey : (Token.atom key).key? = some key := if_pos h.2
  have hpath : path? [.atom key] = some [key] := by rw [path?, hkey, Option.map_some]
  have htrimmed : dottedKey? [.atom key] =
      (path? [.atom key]).filter fun path => path.length ≤ keyLimit := rfl
  rw [htrimmed, hpath]
  rfl

theorem value?_token {value : Plain} (h : value.IsPlain) (bound : Nat) (rest : List Token) :
    value? (bound + 1) nestingLimit (value.token :: .newline :: rest) = some (value.value, .newline :: rest) := by
  cases value with
  | number n =>
    have hscalar : value? (bound + 1) nestingLimit ((Plain.number n).token :: .newline :: rest) =
        (scalar? ((Text.showNat n).toList ++ [])).map fun value => (value, .newline :: rest) := rfl
    rw [hscalar, List.append_nil, Text.showNat, String.toList_ofList, scalar?_digits h]
    rfl
  | word s => rfl

/-- The statement of a line is in front of its newline. -/
theorem statement?_tokens {line : Line} {statement : Statement} (h : line.IsPlain)
    (hline : line.statement? = some statement) (rest : List Token) :
    Toml.statement? (line.tokens ++ .newline :: rest) = some (statement, .newline :: rest) := by
  cases line with
  | blank => cases hline
  | header key =>
    obtain rfl := Option.some.inj hline
    have hheader : headerKey? (.atom key :: .closeBracket :: .newline :: rest) =
        (dottedKey? [.atom key]).bind fun path => some (path, .newline :: rest) := rfl
    rw [dottedKey?_bare h] at hheader
    have hstatement : Toml.statement? ((Line.header key).tokens ++ .newline :: rest) =
        (headerKey? (.atom key :: .closeBracket :: .newline :: rest)).map fun found =>
          (.header found.1, found.2) := rfl
    rw [hstatement, hheader]
    rfl
  | setting key value =>
    obtain rfl := Option.some.inj hline
    have hblank : skipBlanks (value.token :: .newline :: rest) = value.token :: .newline :: rest := by
      cases value <;> rfl
    have hequals : keyEquals? skipBlanks ((Line.setting key value).tokens ++ .newline :: rest) =
        (dottedKey? [.atom key]).bind fun path =>
          some (path, skipBlanks (value.token :: .newline :: rest)) := rfl
    rw [dottedKey?_bare h.1, Option.bind_some, hblank] at hequals
    have hstatement : Toml.statement? ((Line.setting key value).tokens ++ .newline :: rest) =
        (keyEquals? skipBlanks ((Line.setting key value).tokens ++ .newline :: rest)).bind fun found =>
          (value? (2 * found.2.length + 1) nestingLimit found.2).bind fun found' =>
            some (.assign found.1 found'.1, found'.2) := rfl
    rw [hstatement, hequals, Option.bind_some, value?_token h.2]
    rfl

theorem statements?_newline (bound : Nat) (rest : List Token) :
    statements? bound (.newline :: rest) = statements? bound rest := by
  cases bound <;> rfl

theorem statements?_succ {token : Token} {tokens after : List Token} {statement : Statement}
    (hfront : skipBreaks (token :: tokens) = token :: tokens)
    (h : Toml.statement? (token :: tokens) = some (statement, .newline :: after)) (bound : Nat) :
    statements? (bound + 1) (token :: tokens) = (statements? bound after).map (statement :: ·) := by
  have hbreak : skipBlanks (.newline :: after) = .newline :: after := rfl
  rw [statements?, hfront]
  simp only [h, bind, Option.bind_some, hbreak]
  cases statements? bound after <;> rfl

theorem statements?_line {line : Line} (h : line.IsPlain) (bound : Nat) (rest : List Token) :
    statements? (bound + 1) (line.tokens ++ .newline :: rest) =
      match line.statement? with
      | none => statements? (bound + 1) rest
      | some statement => (statements? bound rest).map (statement :: ·) := by
  cases line with
  | blank => exact statements?_newline (bound + 1) rest
  | header key => exact statements?_succ rfl (statement?_tokens h rfl rest) bound
  | setting key value => exact statements?_succ rfl (statement?_tokens h rfl rest) bound

/-- **Every line that is not empty is one statement.** -/
theorem statements?_lines {lines : List Line} (h : ∀ line ∈ lines, line.IsPlain) {bound : Nat}
    (hbound : lines.length ≤ bound) :
    statements? bound (lineTokens lines) = some (lines.filterMap Line.statement?) := by
  induction lines generalizing bound with
  | nil => cases bound <;> rfl
  | cons line rest ih =>
    obtain ⟨hline, hrest⟩ := List.forall_mem_cons.1 h
    obtain ⟨bound, rfl⟩ : ∃ left, bound = left + 1 := ⟨bound - 1, by simp at hbound; omega⟩
    rw [List.length_cons, Nat.add_le_add_iff_right] at hbound
    rw [lineTokens_cons, statements?_line hline, List.filterMap_cons]
    cases line.statement? with
    | none => exact ih hrest (by omega)
    | some statement =>
      simp only [ih hrest hbound]
      rfl

/-! ## Tables -/

namespace Fields

variable {fields more : Fields} {key : String}

theorem entry?_append (h : key ∉ fields.map Prod.fst) :
    Fields.entry? (fields ++ more) key = more.entry? key := by
  have hnone : List.find? (fun field => field.1 == key) fields = none := by
    rw [List.find?_eq_none]
    intro field hfield
    simp only [beq_iff_eq]
    rintro rfl
    exact h (List.mem_map_of_mem hfield)
  unfold entry?
  rw [List.find?_append, hnone, Option.none_or]

theorem entry?_eq_none (h : key ∉ fields.map Prod.fst) : fields.entry? key = none := by
  rw [← List.append_nil fields]
  exact entry?_append h

theorem put_append (h : key ∉ fields.map Prod.fst) (entry : Entry) :
    Fields.put (fields ++ more) key entry = fields ++ more.put key entry := by
  induction fields with
  | nil => rfl
  | cons field rest ih =>
    rw [List.map_cons, List.mem_cons, not_or] at h
    rw [List.cons_append, put, if_neg (Ne.symm h.1), ih h.2]
    rfl

theorem put_eq (h : key ∉ fields.map Prod.fst) (entry : Entry) :
    fields.put key entry = fields ++ [(key, entry)] := by
  rw [← List.append_nil fields, put_append h, List.append_nil]
  rfl

end Fields

theorem build?_header {fields : Fields} {key : String} (h : key ∉ fields.map Prod.fst)
    (rest : List Statement) (current : List String) :
    build? (.header [key] :: rest) current fields =
      build? rest [key] (fields ++ [(key, .table .header [])]) := by
  have hdefine : fields.define? key = some (fields ++ [(key, .table .header [])]) := by
    rw [Fields.define?, Fields.entry?_eq_none h, Fields.put_eq h]
  have hbuild : build? (.header [key] :: rest) current fields =
      (fields.define? key).bind fun fields => build? rest [key] fields := rfl
  rw [hbuild, hdefine, Option.bind_some]

/-- A setting goes to the end of the table that the last header began. -/
theorem build?_setting {fields inner : Fields} {name key : String} (hname : name ∉ fields.map Prod.fst)
    (hkey : key ∉ inner.map Prod.fst) (value : Toml) (rest : List Statement) :
    build? (.assign [key] value :: rest) [name] (fields ++ [(name, .table .header inner)]) =
      build? rest [name] (fields ++ [(name, .table .header (inner ++ [(key, .value value)]))]) := by
  have hassign : inner.assign? [key] value = some (inner ++ [(key, .value value)]) := by
    simp only [Fields.assign?, Fields.assignFrom?, Fields.entry?_eq_none hkey, Fields.put_eq hkey]
  have hentry : Fields.entry? (fields ++ [(name, .table .header inner)]) name = some (.table .header inner) := by
    rw [Fields.entry?_append hname]
    unfold Fields.entry?
    simp
  have hput (entry : Entry) : Fields.put (fields ++ [(name, .table .header inner)]) name entry =
      fields ++ [(name, entry)] := by
    rw [Fields.put_append hname]
    simp [Fields.put]
  rw [build?, Fields.descend?, hentry]
  simp only [Fields.descend?, hassign, hput, Option.map_some, bind, Option.bind_some]

/-- A section of a plain document. -/
structure Part where
  name : String
  settings : List (String × Plain)

namespace Part

/-- The lines of a section, of which the last one is empty. -/
def lines (part : Part) : List Line :=
  .header part.name :: part.settings.map (fun setting => .setting setting.1 setting.2) ++ [.blank]

def statements (part : Part) : List Statement :=
  .header [part.name] :: part.settings.map fun setting => .assign [setting.1] setting.2.value

/-- The section can be written without quoting a key or escaping a character. -/
structure IsPlain (part : Part) : Prop where
  name : IsBareKey part.name
  settings : ∀ setting ∈ part.settings, IsBareKey setting.1 ∧ setting.2.IsPlain
  distinct : (part.settings.map Prod.fst).Nodup

/-- The table under construction that settings make. -/
def fields (settings : List (String × Plain)) : Fields :=
  settings.map fun setting => (setting.1, .value setting.2.value)

def entries (parts : List Part) : Fields :=
  parts.map fun part => (part.name, .table .header (fields part.settings))

theorem filterMap_lines (part : Part) : part.lines.filterMap Line.statement? = part.statements := by
  have hsettings : (part.settings.map fun setting => Line.setting setting.1 setting.2).filterMap Line.statement? =
      part.settings.map fun setting => .assign [setting.1] setting.2.value := by
    rw [List.filterMap_map, ← List.filterMap_eq_map]
    rfl
  rw [lines, List.filterMap_append, List.filterMap_cons, hsettings]
  simp [statements, Line.statement?]

theorem isPlain_of_mem_lines {part : Part} (h : part.IsPlain) : ∀ line ∈ part.lines, line.IsPlain := by
  intro line hline
  rw [lines, List.mem_append, List.mem_cons, List.mem_map, List.mem_singleton] at hline
  rcases hline with (rfl | ⟨setting, hsetting, rfl⟩) | rfl
  · exact h.name
  · exact h.settings setting hsetting
  · trivial

theorem map_fst_fields (settings : List (String × Plain)) :
    (fields settings).map Prod.fst = settings.map Prod.fst := by
  simp [fields]

theorem map_fst_entries (parts : List Part) : (entries parts).map Prod.fst = parts.map name := by
  simp [entries]

end Part

private theorem not_mem_of_nodup_map {α : Type} {key : α → String} {before rest : List α} {x : α}
    (h : ((before ++ x :: rest).map key).Nodup) : key x ∉ before.map key := by
  rw [List.map_append, List.map_cons] at h
  exact fun hin => (List.nodup_append.1 h).2.2 _ hin _ List.mem_cons_self rfl

theorem build?_settings {fields : Fields} {name : String} (hname : name ∉ fields.map Prod.fst)
    (before : List (String × Plain)) {settings : List (String × Plain)}
    (h : ((before ++ settings).map Prod.fst).Nodup)
    (rest : List Statement) :
    build? (settings.map (fun setting => .assign [setting.1] setting.2.value) ++ rest) [name]
        (fields ++ [(name, .table .header (Part.fields before))]) =
      build? rest [name] (fields ++ [(name, .table .header (Part.fields (before ++ settings)))]) := by
  induction settings generalizing before with
  | nil => rw [List.append_nil]; rfl
  | cons setting settings ih =>
    have hmove : before ++ setting :: settings = before ++ [setting] ++ settings := by simp
    have hkey : setting.1 ∉ (Part.fields before).map Prod.fst := by
      rw [Part.map_fst_fields]
      exact not_mem_of_nodup_map h
    have hnext : Part.fields before ++ [(setting.1, .value setting.2.value)] =
        Part.fields (before ++ [setting]) := by
      simp [Part.fields]
    rw [hmove] at h ⊢
    rw [List.map_cons, List.cons_append, build?_setting hname hkey, hnext, ih _ h]

/-- **Sections build their tables.** -/
theorem build?_parts (before : List Part) {parts : List Part} (hnames : ((before ++ parts).map Part.name).Nodup)
    (hparts : ∀ part ∈ parts, part.IsPlain) (current : List String) :
    build? (parts.flatMap Part.statements) current (Part.entries before) =
      some (Part.entries (before ++ parts)) := by
  induction parts generalizing before current with
  | nil => rw [List.append_nil]; rfl
  | cons part rest ih =>
    obtain ⟨hpart, hrest⟩ := List.forall_mem_cons.1 hparts
    have hmove : before ++ part :: rest = before ++ [part] ++ rest := by simp
    have hname : part.name ∉ (Part.entries before).map Prod.fst := by
      rw [Part.map_fst_entries]
      exact not_mem_of_nodup_map hnames
    have hnext : Part.entries before ++ [(part.name, .table .header (Part.fields part.settings))] =
        Part.entries (before ++ [part]) := by
      simp [Part.entries]
    have hsettings := build?_settings hname [] hpart.distinct (rest.flatMap Part.statements)
    rw [List.nil_append, hnext] at hsettings
    rw [hmove] at hnames ⊢
    rw [List.flatMap_cons, Part.statements, List.cons_append, build?_header hname]
    exact hsettings.trans (ih _ hnames hrest _)

/-! ## Documents -/

namespace Part

/-- The text of a plain document. -/
def text (parts : List Part) : String :=
  Text.lines ((parts.flatMap lines).map Line.text)

/-- What a section is read as. -/
def toToml (part : Part) : Toml :=
  .table (part.settings.map fun setting => (setting.1, setting.2.value))

end Part

theorem fieldsToToml_eq (fields : Fields) :
    fieldsToToml fields = fields.map fun field => (field.1, field.2.toToml) := by
  induction fields with
  | nil => rfl
  | cons field rest ih => rw [fieldsToToml, ih, List.map_cons]

theorem fieldsToToml_entries (parts : List Part) :
    fieldsToToml (Part.entries parts) = parts.map fun part => (part.name, part.toToml) := by
  simp [fieldsToToml_eq, Part.entries, Part.fields, Part.toToml, Entry.toToml]

theorem length_le_lineTokens (lines : List Line) : lines.length ≤ (lineTokens lines).length := by
  induction lines with
  | nil => exact Nat.le_refl 0
  | cons line rest ih =>
    rw [lineTokens_cons, List.length_append, List.length_cons, List.length_cons]
    omega

/-- **A plain document is read as the table of its sections.** -/
theorem read?_text {parts : List Part} (hparts : ∀ part ∈ parts, part.IsPlain)
    (hnames : (parts.map Part.name).Nodup) :
    read? (Part.text parts) = some (parts.map fun part => (part.name, part.toToml)) := by
  have hlines : ∀ line ∈ parts.flatMap Part.lines, line.IsPlain := by
    intro line hline
    obtain ⟨part, hpart, hmem⟩ := List.mem_flatMap.1 hline
    exact Part.isPlain_of_mem_lines (hparts part hpart) line hmem
  have hstatements : (parts.flatMap Part.lines).filterMap Line.statement? = parts.flatMap Part.statements := by
    rw [List.filterMap_flatMap]
    simp only [Part.filterMap_lines]
  have hbuild : build? (parts.flatMap Part.statements) [] [] = some (Part.entries parts) :=
    build?_parts [] hnames hparts []
  rw [read?, Part.text, tokens_lines hlines]
  simp only [statements?_lines hlines (length_le_lineTokens _), hstatements, hbuild, bind, Option.bind_some]
  exact congrArg some (fieldsToToml_entries parts)

end PerkGraph.Toml
