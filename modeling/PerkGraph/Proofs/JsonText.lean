import Mathlib.Data.List.TakeWhile
import PerkGraph.Json.Printer
import PerkGraph.Json.Reader

/-!
# JSON texts read back

The text of a tree denotes the tree (`read_printLine`), if all of the tree has a text (`isPrintable`). The
tokens of the tree stand between: scanning its text gives its tokens (`scan_chars`), and these put together
give the tree (`run_toTokens`). Only numbers and words need to know what follows them, for nothing else
marks their end; what follows a value in a text never goes on with one (`EndsLexeme`).
-/

namespace PerkGraph.Json

/-! ## Trees with a text -/

mutual

/-- Every leaf and every key of the tree has a text of its own. Numbers must be whole. -/
def isPrintable : Json → Bool
  | .decimal _ | .loneSurrogate | .garbled => false
  | .array items => arePrintable items
  | .object fields => fieldsArePrintable fields
  | .null | .bool _ | .integer _ | .string _ => true

def arePrintable : List Json → Bool
  | [] => true
  | item :: rest => item.isPrintable && arePrintable rest

def fieldsArePrintable : List (Option String × Json) → Bool
  | [] => true
  | (key, value) :: rest => key.isSome && value.isPrintable && fieldsArePrintable rest

end

mutual

/-- The tokens of the text of a tree. -/
def toTokens : Json → List Token
  | .null => [.null]
  | .bool value => [.bool value]
  | .integer value => [.integer value]
  | .string value => [.string value]
  | .array [] => [.openArray, .closeArray]
  | .array (item :: rest) => .openArray :: (item.toTokens ++ itemTokens rest ++ [.closeArray])
  | .object [] => [.openObject, .closeObject]
  | .object ((key, value) :: rest) =>
    .openObject :: .string (key.getD "") :: .colon ::
      (value.toTokens ++ fieldTokens rest ++ [.closeObject])
  | .decimal _ | .loneSurrogate | .garbled => []

def itemTokens : List Json → List Token
  | [] => []
  | item :: rest => .comma :: (item.toTokens ++ itemTokens rest)

def fieldTokens : List (Option String × Json) → List Token
  | [] => []
  | (key, value) :: rest =>
    .comma :: .string (key.getD "") :: .colon :: (value.toTokens ++ fieldTokens rest)

end

/-! ## Scanning numbers and words -/

/-- Whatever number or word stands in front of these characters ends there. -/
def EndsLexeme (cs : List Char) : Prop :=
  ∀ c, cs.head? = some c → isNumberChar c = false ∧ c.isLower = false

theorem endsLexeme_cons {c : Char} {rest : List Char} (hnumber : isNumberChar c = false)
    (hlower : c.isLower = false) : EndsLexeme (c :: rest) := by
  intro d hd
  cases hd
  exact ⟨hnumber, hlower⟩

/-- A lexeme that ends gives its token, and the scan goes on between lexemes. -/
theorem map_begin?_scan (token : Token) (c : Char) (rest : List Char) :
    (match (begin? c).map fun next => (token :: next.1, next.2) with
      | some (tokens, next) => tokens ++ scan next rest
      | none => [token, .garbled]) = token :: scan .between (c :: rest) := by
  rw [scan, Lexing.next?]
  cases begin? c with
  | none => rfl
  | some next => rfl

theorem scan_number {lexeme cs rest : List Char} (hcs : ∀ c ∈ cs, isNumberChar c = true)
    (hrest : EndsLexeme rest) :
    scan (.number lexeme) (cs ++ rest) = numberToken (lexeme.reverse ++ cs) :: scan .between rest := by
  induction cs generalizing lexeme with
  | nil =>
    rw [List.nil_append, List.append_nil]
    cases rest with
    | nil => rfl
    | cons c rest =>
      rw [← map_begin?_scan, scan, Lexing.next?, (hrest c rfl).1]
      rfl
  | cons c cs ih =>
    have hc := hcs c List.mem_cons_self
    rw [List.cons_append, scan, Lexing.next?, hc]
    simp only [if_true, List.nil_append]
    rw [ih fun d hd => hcs d (List.mem_cons_of_mem _ hd), List.reverse_cons, List.append_assoc]
    rfl

theorem scan_word (lexeme cs : List Char) {rest : List Char} (hcs : cs.all Char.isLower = true)
    (hrest : EndsLexeme rest) :
    scan (.word lexeme) (cs ++ rest) = wordToken (lexeme.reverse ++ cs) :: scan .between rest := by
  induction cs generalizing lexeme with
  | nil =>
    rw [List.nil_append, List.append_nil]
    cases rest with
    | nil => rfl
    | cons c rest =>
      rw [← map_begin?_scan, scan, Lexing.next?, (hrest c rfl).2]
      rfl
  | cons c cs ih =>
    obtain ⟨hc, hcs⟩ := Bool.and_eq_true_iff.1 (List.all_cons ▸ hcs)
    rw [List.cons_append, scan, Lexing.next?, hc]
    simp only [if_true, List.nil_append]
    rw [ih (c :: lexeme) hcs, List.reverse_cons, List.append_assoc]
    rfl

/-! ## Whole numbers -/

/-- Digits without leading zeros are the whole part of a number. -/
theorem isWholePart_digits (n : Nat) : isWholePart (Text.digits n) = true := by
  rcases Nat.eq_zero_or_pos n with rfl | hn
  · rw [Text.digits]
    rfl
  · obtain ⟨c, rest, hdigits, hc⟩ := Text.digits_eq_cons hn
    simp [hdigits, isWholePart, hc]

theorem takeWhile_isDigit_digits (n : Nat) : (Text.digits n).takeWhile Char.isDigit = Text.digits n :=
  List.takeWhile_eq_self_iff.2 (Text.isDigit_of_mem_digits n)

theorem dropWhile_isDigit_digits (n : Nat) : (Text.digits n).dropWhile Char.isDigit = [] :=
  List.dropWhile_eq_nil_iff.2 (Text.isDigit_of_mem_digits n)

theorem numberToken_showInt (value : Int) :
    numberToken (Text.showInt value).toList = .integer value := by
  have hread : Text.intOfChars? (Text.showInt value).toList = some value :=
    Text.readInt?_showInt value
  rcases Int.lt_or_le value 0 with hneg | hnonneg
  · have hchars : (Text.showInt value).toList = '-' :: Text.digits value.natAbs := by
      rw [Text.showInt, if_pos hneg, String.toList_ofList]
    -- a negative number is not written as a signed zero
    have hzero : Text.digits value.natAbs ≠ ['0'] := by
      obtain ⟨c, rest, hdigits, hc⟩ := Text.digits_eq_cons (n := value.natAbs) (by omega)
      rw [hdigits]
      simp [hc]
    rw [hchars] at hread ⊢
    simp [numberToken, takeWhile_isDigit_digits, dropWhile_isDigit_digits, isWholePart_digits,
      hzero, hread]
  · have hchars : (Text.showInt value).toList = Text.digits value.natAbs := by
      rw [Text.showInt, if_neg (Int.not_lt.2 hnonneg), Text.showNat, String.toList_ofList]
    rw [hchars] at hread ⊢
    unfold numberToken
    split
    · rename_i rest hminus
      have hdigit := Text.isDigit_of_mem_digits value.natAbs '-' (hminus ▸ List.mem_cons_self)
      cases hdigit
    · rename_i hminus
      have hzero : Text.digits value.natAbs ≠ ['-', '0'] := hminus ['0']
      simp [takeWhile_isDigit_digits, dropWhile_isDigit_digits, isWholePart_digits, hzero, hread]

/-! ## Scanning strings -/

theorem hexValue?_hexDigit {d : Nat} (h : d < 16) : hexValue? (hexDigit d) = some d := by
  have hall : ∀ d < 16, hexValue? (hexDigit d) = some d := by decide
  exact hall d h

theorem ofUnit_toNat {c : Char} (h : c.toNat < 0x20) : StringPart.ofUnit c.toNat = .char c := by
  unfold StringPart.ofUnit
  rw [if_neg (by omega), Char.ofNat_toNat]

/-- A character as it is written is read as that character. -/
theorem scan_escape (c : Char) (parts : List StringPart) (rest : List Char) :
    scan (.string parts) (escape c ++ rest) = scan (.string (.char c :: parts)) rest := by
  unfold escape
  split
  · subst c
    rfl
  split
  · subst c
    rfl
  split
  · subst c
    rfl
  split
  · subst c
    rfl
  split
  · subst c
    rfl
  split
  · subst c
    rfl
  split
  · subst c
    rfl
  split
  · rename_i hcontrol
    have hhigh := hexValue?_hexDigit (d := c.toNat / 16) (by omega)
    have hlow := hexValue?_hexDigit (d := c.toNat % 16) (by omega)
    have hvalue : (c.toNat / 16) * 16 + c.toNat % 16 = c.toNat := by omega
    have hzero : hexValue? '0' = some 0 := rfl
    simp [scan, Lexing.next?, hzero, hhigh, hlow, hvalue, ofUnit_toNat hcontrol]
  · rename_i hquote hbackslash _ _ _ _ _ hcontrol
    simp [scan, Lexing.next?, hquote, hbackslash, hcontrol]

theorem assemble?_map_char (cs : List Char) :
    StringPart.assemble? (cs.map .char) = some cs := by
  induction cs with
  | nil => rfl
  | cons c rest ih => rw [List.map_cons, StringPart.assemble?, ih, Option.map_some]

theorem scan_string (cs : List Char) (parts : List StringPart) (rest : List Char) :
    scan (.string parts) (cs.flatMap escape ++ '"' :: rest) =
      stringToken (parts.reverse ++ cs.map .char) :: scan .between rest := by
  induction cs generalizing parts with
  | nil =>
    rw [List.flatMap_nil, List.map_nil, List.append_nil]
    rfl
  | cons c cs ih =>
    rw [List.flatMap_cons, List.append_assoc, scan_escape, ih, List.reverse_cons,
      List.append_assoc]
    rfl

theorem scan_quote (s : String) (rest : List Char) :
    scan .between (quote s ++ rest) = .string s :: scan .between rest := by
  have hopen : scan .between (quote s ++ rest) =
      scan (.string []) (s.toList.flatMap escape ++ '"' :: rest) := by
    rw [quote, List.cons_append, List.cons_append, List.append_assoc]
    rfl
  rw [hopen, scan_string, List.reverse_nil, List.nil_append, stringToken, assemble?_map_char]
  simp only [String.ofList_toList]

/-! ## Scanning values -/

theorem scan_newline (depth : Nat) (rest : List Char) :
    scan .between (newline depth ++ rest) = scan .between rest := by
  have hblanks : ∀ n, scan .between (List.replicate n ' ' ++ rest) = scan .between rest := by
    intro n
    induction n with
    | zero => rfl
    | succ n ih =>
      rw [List.replicate_succ, List.cons_append, scan]
      exact ih
  rw [newline, List.cons_append, scan]
  exact hblanks _

theorem begin?_of_isDigit {c : Char} (h : c.isDigit = true) : begin? c = some ([], .number [c]) := by
  have hspace : isSpace c = false := by
    rw [← Bool.not_eq_true]
    intro hspace
    simp only [isSpace, Bool.or_eq_true, beq_iff_eq] at hspace
    rcases hspace with ((rfl | rfl) | rfl) | rfl <;> cases h
  have hpunctuation : punctuation? c = none := by
    unfold punctuation?
    split <;> first | rfl | cases h
  have hquote : (c == '"') = false := by
    rw [beq_eq_false_iff_ne]
    rintro rfl
    cases h
  simp [begin?, hspace, hpunctuation, hquote, h]

theorem isNumberChar_of_isDigit {c : Char} (h : c.isDigit = true) : isNumberChar c = true := by
  simp [isNumberChar, h]

theorem scan_showInt (value : Int) {rest : List Char} (hrest : EndsLexeme rest) :
    scan .between ((Text.showInt value).toList ++ rest) = .integer value :: scan .between rest := by
  -- the first character begins a number, and all others go on with it
  have hchars : ∃ c cs, (Text.showInt value).toList = c :: cs ∧
      begin? c = some ([], .number [c]) ∧ ∀ d ∈ cs, isNumberChar d = true := by
    rcases Int.lt_or_le value 0 with hneg | hnonneg
    · refine ⟨'-', Text.digits value.natAbs, ?_, rfl, fun d hd => ?_⟩
      · rw [Text.showInt, if_pos hneg, String.toList_ofList]
      · exact isNumberChar_of_isDigit (Text.isDigit_of_mem_digits _ d hd)
    · obtain ⟨c, cs, hdigits⟩ := List.exists_cons_of_ne_nil (Text.digits_ne_nil value.natAbs)
      have hall := Text.isDigit_of_mem_digits value.natAbs
      rw [hdigits] at hall
      refine ⟨c, cs, ?_, begin?_of_isDigit (hall c List.mem_cons_self), fun d hd => ?_⟩
      · rw [Text.showInt, if_neg (Int.not_lt.2 hnonneg), Text.showNat, String.toList_ofList,
          hdigits]
      · exact isNumberChar_of_isDigit (hall d (List.mem_cons_of_mem _ hd))
  obtain ⟨c, cs, hcs, hbegin, hall⟩ := hchars
  have htoken := numberToken_showInt value
  rw [hcs] at htoken ⊢
  rw [List.cons_append, scan, Lexing.next?, hbegin]
  change scan (.number [c]) (cs ++ rest) = _
  rw [scan_number hall hrest]
  exact congrArg (· :: _) htoken

theorem endsLexeme_newline (depth : Nat) (rest : List Char) : EndsLexeme (newline depth ++ rest) :=
  endsLexeme_cons rfl rfl

theorem endsLexeme_itemChars {depth : Nat} {items : List Json} {rest : List Char}
    (h : EndsLexeme rest) : EndsLexeme (itemChars depth items ++ rest) := by
  cases items with
  | nil => exact h
  | cons item others => exact endsLexeme_cons rfl rfl

theorem endsLexeme_fieldChars {depth : Nat} {fields : List (Option String × Json)}
    {rest : List Char} (h : EndsLexeme rest) : EndsLexeme (fieldChars depth fields ++ rest) := by
  cases fields with
  | nil => exact h
  | cons field others => exact endsLexeme_cons rfl rfl

mutual

/-- **Scanning the text of a tree gives its tokens**, at any depth and whatever follows it. -/
theorem scan_chars : ∀ (json : Json), json.isPrintable = true → ∀ (depth : Nat) (rest : List Char),
    EndsLexeme rest →
      scan .between (chars depth json ++ rest) = json.toTokens ++ scan .between rest
  | .null, _, depth, rest, hrest => by
    exact scan_word ['n'] ['u', 'l', 'l'] rfl hrest
  | .bool true, _, depth, rest, hrest => by
    exact scan_word ['t'] ['r', 'u', 'e'] rfl hrest
  | .bool false, _, depth, rest, hrest => by
    exact scan_word ['f'] ['a', 'l', 's', 'e'] rfl hrest
  | .integer value, _, depth, rest, hrest => scan_showInt value hrest
  | .string value, _, depth, rest, _ => scan_quote value rest
  | .array [], _, depth, rest, _ => rfl
  | .array (item :: others), h, depth, rest, hrest => by
    obtain ⟨hitem, hothers⟩ := Bool.and_eq_true_iff.1 h
    have hclose : EndsLexeme (newline depth ++ ']' :: rest) := endsLexeme_newline depth _
    calc scan .between (chars depth (.array (item :: others)) ++ rest)
        = .openArray :: scan .between (newline (depth + 1) ++ (chars (depth + 1) item ++
            (itemChars (depth + 1) others ++ (newline depth ++ ']' :: rest)))) := by
          simp only [chars, List.cons_append, List.append_assoc, List.nil_append]
          rfl
      _ = .openArray :: (item.toTokens ++ (itemTokens others ++ scan .between (']' :: rest))) := by
          rw [scan_newline, scan_chars item hitem _ _ (endsLexeme_itemChars hclose),
            scan_itemChars others hothers _ _ hclose, scan_newline]
      _ = (Json.array (item :: others)).toTokens ++ scan .between rest := by
          simp only [toTokens, List.cons_append, List.append_assoc, List.nil_append]
          rfl
  | .object [], _, depth, rest, _ => rfl
  | .object ((key, value) :: others), h, depth, rest, hrest => by
    obtain ⟨hfirst, hothers⟩ := Bool.and_eq_true_iff.1 h
    obtain ⟨-, hvalue⟩ := Bool.and_eq_true_iff.1 hfirst
    have hclose : EndsLexeme (newline depth ++ '}' :: rest) := endsLexeme_newline depth _
    calc scan .between (chars depth (.object ((key, value) :: others)) ++ rest)
        = .openObject :: scan .between (newline (depth + 1) ++ (quote (key.getD "") ++ ':' :: ' ' ::
            (chars (depth + 1) value ++
              (fieldChars (depth + 1) others ++ (newline depth ++ '}' :: rest))))) := by
          simp only [chars, List.cons_append, List.append_assoc, List.nil_append]
          rfl
      _ = .openObject :: .string (key.getD "") :: .colon :: scan .between
            (chars (depth + 1) value ++
              (fieldChars (depth + 1) others ++ (newline depth ++ '}' :: rest))) := by
          rw [scan_newline, scan_quote]
          rfl
      _ = .openObject :: .string (key.getD "") :: .colon ::
            (value.toTokens ++ (fieldTokens others ++ scan .between ('}' :: rest))) := by
          rw [scan_chars value hvalue _ _ (endsLexeme_fieldChars hclose),
            scan_fieldChars others hothers _ _ hclose, scan_newline]
      _ = (Json.object ((key, value) :: others)).toTokens ++ scan .between rest := by
          simp only [toTokens, List.cons_append, List.append_assoc, List.nil_append]
          rfl

theorem scan_itemChars : ∀ (items : List Json), arePrintable items = true →
    ∀ (depth : Nat) (rest : List Char), EndsLexeme rest →
      scan .between (itemChars depth items ++ rest) = itemTokens items ++ scan .between rest
  | [], _, depth, rest, _ => rfl
  | item :: others, h, depth, rest, hrest => by
    obtain ⟨hitem, hothers⟩ := Bool.and_eq_true_iff.1 h
    calc scan .between (itemChars depth (item :: others) ++ rest)
        = .comma :: scan .between
            (newline depth ++ (chars depth item ++ (itemChars depth others ++ rest))) := by
          simp only [itemChars, List.cons_append, List.append_assoc]
          rfl
      _ = .comma :: (item.toTokens ++ (itemTokens others ++ scan .between rest)) := by
          rw [scan_newline, scan_chars item hitem _ _ (endsLexeme_itemChars hrest),
            scan_itemChars others hothers _ _ hrest]
      _ = itemTokens (item :: others) ++ scan .between rest := by
          simp only [itemTokens, List.cons_append, List.append_assoc]

theorem scan_fieldChars : ∀ (fields : List (Option String × Json)),
    fieldsArePrintable fields = true → ∀ (depth : Nat) (rest : List Char), EndsLexeme rest →
      scan .between (fieldChars depth fields ++ rest) = fieldTokens fields ++ scan .between rest
  | [], _, depth, rest, _ => rfl
  | (key, value) :: others, h, depth, rest, hrest => by
    obtain ⟨hfirst, hothers⟩ := Bool.and_eq_true_iff.1 h
    obtain ⟨-, hvalue⟩ := Bool.and_eq_true_iff.1 hfirst
    calc scan .between (fieldChars depth ((key, value) :: others) ++ rest)
        = .comma :: scan .between (newline depth ++ (quote (key.getD "") ++ ':' :: ' ' ::
            (chars depth value ++ (fieldChars depth others ++ rest)))) := by
          simp only [fieldChars, List.cons_append, List.append_assoc]
          rfl
      _ = .comma :: .string (key.getD "") :: .colon ::
            scan .between (chars depth value ++ (fieldChars depth others ++ rest)) := by
          rw [scan_newline, scan_quote]
          rfl
      _ = .comma :: .string (key.getD "") :: .colon ::
            (value.toTokens ++ (fieldTokens others ++ scan .between rest)) := by
          rw [scan_chars value hvalue _ _ (endsLexeme_fieldChars hrest),
            scan_fieldChars others hothers _ _ hrest]
      _ = fieldTokens ((key, value) :: others) ++ scan .between rest := by
          simp only [fieldTokens, List.cons_append, List.append_assoc]

end

/-! ## Putting tokens together -/

namespace Reading

/-- A value that may stand first in an array is read like any other. -/
theorem run_beforeFirstItem : ∀ (json : Json), json.isPrintable = true →
    ∀ (stack : List Frame) (rest : List Token),
      run (.beforeFirstItem stack) (json.toTokens ++ rest) =
        run (.beforeValue (.items [] :: stack)) (json.toTokens ++ rest)
  | .null, _, _, _ | .bool _, _, _, _ | .integer _, _, _, _ | .string _, _, _, _
  | .array [], _, _, _ | .array (_ :: _), _, _, _ | .object [], _, _, _ | .object (_ :: _), _, _, _ =>
    rfl

mutual

/-- **The tokens of a tree put together give the tree**, inside whatever containers it stands. -/
theorem run_toTokens : ∀ (json : Json), json.isPrintable = true →
    ∀ (stack : List Frame) (rest : List Token),
      run (.beforeValue stack) (json.toTokens ++ rest) = run (complete json stack) rest
  | .null, _, _, _ | .bool _, _, _, _ | .integer _, _, _, _ | .string _, _, _, _
  | .array [], _, _, _ | .object [], _, _, _ => rfl
  | .array (item :: others), h, stack, rest => by
    obtain ⟨hitem, hothers⟩ := Bool.and_eq_true_iff.1 h
    calc run (.beforeValue stack) ((Json.array (item :: others)).toTokens ++ rest)
        = run (.beforeFirstItem stack)
            (item.toTokens ++ (itemTokens others ++ .closeArray :: rest)) := by
          simp only [toTokens, List.cons_append, List.append_assoc, List.nil_append]
          rfl
      _ = run (.afterItem [item] stack) (itemTokens others ++ .closeArray :: rest) := by
          rw [run_beforeFirstItem item hitem, run_toTokens item hitem]
          rfl
      _ = run (complete (.array (item :: others)) stack) rest :=
          run_itemTokens others hothers [item] stack rest
  | .object ((key, value) :: others), h, stack, rest => by
    obtain ⟨hfirst, hothers⟩ := Bool.and_eq_true_iff.1 h
    obtain ⟨hkey, hvalue⟩ := Bool.and_eq_true_iff.1 hfirst
    obtain ⟨name, rfl⟩ := Option.isSome_iff_exists.1 hkey
    calc run (.beforeValue stack) ((Json.object ((some name, value) :: others)).toTokens ++ rest)
        = run (.beforeValue (.fields [] (some name) :: stack))
            (value.toTokens ++ (fieldTokens others ++ .closeObject :: rest)) := by
          simp only [toTokens, List.cons_append, List.append_assoc, List.nil_append]
          rfl
      _ = run (.afterField [(some name, value)] stack)
            (fieldTokens others ++ .closeObject :: rest) := by
          rw [run_toTokens value hvalue]
          rfl
      _ = run (complete (.object ((some name, value) :: others)) stack) rest :=
          run_fieldTokens others hothers [(some name, value)] stack rest

theorem run_itemTokens : ∀ (items : List Json), arePrintable items = true →
    ∀ (done : List Json) (stack : List Frame) (rest : List Token),
      run (.afterItem done stack) (itemTokens items ++ .closeArray :: rest) =
        run (complete (.array (done.reverse ++ items)) stack) rest
  | [], _, done, stack, rest => by
    rw [List.append_nil]
    rfl
  | item :: others, h, done, stack, rest => by
    obtain ⟨hitem, hothers⟩ := Bool.and_eq_true_iff.1 h
    calc run (.afterItem done stack) (itemTokens (item :: others) ++ .closeArray :: rest)
        = run (.beforeValue (.items done :: stack))
            (item.toTokens ++ (itemTokens others ++ .closeArray :: rest)) := by
          simp only [itemTokens, List.cons_append, List.append_assoc]
          rfl
      _ = run (.afterItem (item :: done) stack) (itemTokens others ++ .closeArray :: rest) := by
          rw [run_toTokens item hitem]
          rfl
      _ = run (complete (.array (done.reverse ++ item :: others)) stack) rest := by
          rw [run_itemTokens others hothers, List.reverse_cons, List.append_assoc]
          rfl

theorem run_fieldTokens : ∀ (fields : List (Option String × Json)),
    fieldsArePrintable fields = true →
    ∀ (done : List (Option String × Json)) (stack : List Frame) (rest : List Token),
      run (.afterField done stack) (fieldTokens fields ++ .closeObject :: rest) =
        run (complete (.object (done.reverse ++ fields)) stack) rest
  | [], _, done, stack, rest => by
    rw [List.append_nil]
    rfl
  | (key, value) :: others, h, done, stack, rest => by
    obtain ⟨hfirst, hothers⟩ := Bool.and_eq_true_iff.1 h
    obtain ⟨hkey, hvalue⟩ := Bool.and_eq_true_iff.1 hfirst
    obtain ⟨name, rfl⟩ := Option.isSome_iff_exists.1 hkey
    calc run (.afterField done stack)
          (fieldTokens ((some name, value) :: others) ++ .closeObject :: rest)
        = run (.beforeValue (.fields done (some name) :: stack))
            (value.toTokens ++ (fieldTokens others ++ .closeObject :: rest)) := by
          simp only [fieldTokens, List.cons_append, List.append_assoc]
          rfl
      _ = run (.afterField ((some name, value) :: done) stack)
            (fieldTokens others ++ .closeObject :: rest) := by
          rw [run_toTokens value hvalue]
          rfl
      _ = run (complete (.object (done.reverse ++ (some name, value) :: others)) stack) rest := by
          rw [run_fieldTokens others hothers, List.reverse_cons, List.append_assoc]
          rfl

end

end Reading

/-! ## The main statement -/

/-- **A text is read back as the tree it was printed from**, all of it. -/
theorem read_printLine {json : Json} (h : json.isPrintable = true) :
    read json.printLine = { value := json, complete := true } := by
  have hline : json.printLine.toList = chars 0 json ++ ['\n'] := by
    rw [printLine, print, String.toList_append, String.toList_ofList]
    rfl
  have htokens : tokens json.printLine = json.toTokens ++ [] := by
    rw [tokens, hline, scan_chars json h 0 _ (endsLexeme_cons rfl rfl)]
    rfl
  rw [read, htokens, Reading.run_toTokens json h]
  rfl

end PerkGraph.Json
