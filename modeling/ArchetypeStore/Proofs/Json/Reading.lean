import ArchetypeStore.Json.Document
import ArchetypeStore.Json.Spelling
import Mathlib.Tactic.IntervalCases

/-! # Reading what is spelled

  Every text that spells an object is read as this object, and the pretty text is one of
  them. A number ends only at the character behind it, so what is said of a value is said of
  its text together with that character. The members of an object are then read one by one.
-/

namespace ArchetypeStore.Json

/-! ### Numbers -/

namespace Scanner

theorem run_append (s : Scanner) (first rest : List Char) :
    s.run (first ++ rest) = (s.run first).bind (·.run rest) :=
  List.foldlM_append ..

theorem run_cons (s : Scanner) (c : Char) (rest : List Char) :
    s.run (c :: rest) = (s.step c).bind (·.run rest) :=
  List.foldlM_cons ..

@[simp] theorem run_nil (s : Scanner) : s.run [] = some s := rfl

theorem run_singleton (s : Scanner) (c : Char) : s.run [c] = s.step c := by
  rw [run_cons]
  cases s.step c <;> rfl

/-- What the scanner is in the middle of behind the digits of a number. -/
def numberMode (n : Nat) : Mode := if n = 0 then .zero false else .integer false n

theorem isDigit_digitChar {d : Nat} (h : d < 10) : isDigit (Nat.digitChar d) = true := by
  interval_cases d <;> rfl

theorem digitValue_digitChar {d : Nat} (h : d < 10) : digitValue (Nat.digitChar d) = d := by
  interval_cases d <;> rfl

theorem begin_digitChar {d : Nat} (h : d < 10) (tokens : List Token) :
    begin tokens (Nat.digitChar d) = some ⟨numberMode d, tokens⟩ := by
  interval_cases d <;> rfl

/-- A number in decimal is read digit by digit. -/
theorem run_digits (tokens : List Token) (n : Nat) :
    run ⟨.between, tokens⟩ (Nat.toDigits 10 n) = some ⟨numberMode n, tokens⟩ := by
  induction n using Nat.strongRecOn with
  | ind n ih =>
    by_cases hsmall : n < 10
    · rw [Nat.toDigits_of_lt_base hsmall, run_singleton]
      exact begin_digitChar hsmall tokens
    · -- The last digit comes behind those of the tenth, which is no zero.
      have hmod : n % 10 < 10 := Nat.mod_lt n (by decide)
      have htenth : n / 10 ≠ 0 := by omega
      rw [Nat.toDigits_eq_if (by decide), if_neg hsmall, run_append, ih (n / 10) (by omega),
        Option.bind_some, run_singleton, numberMode, if_neg htenth, numberMode,
        if_neg (by omega), step]
      simp only
      rw [if_pos (isDigit_digitChar hmod), digitValue_digitChar hmod, Nat.div_add_mod]

/-- The characters that end a number. -/
def EndsNumber (c : Char) : Prop := isDigit c = false ∧ c ≠ '.' ∧ c ≠ 'e' ∧ c ≠ 'E'

instance (c : Char) : Decidable (EndsNumber c) := inferInstanceAs (Decidable (_ ∧ _))

/-! ### Values -/

/-- The text is read as one token, once a character behind it ends a number. -/
def Writes (text : List Char) (token : Token) : Prop :=
  ∀ tokens c, EndsNumber c →
    run ⟨.between, tokens⟩ (text ++ [c]) = begin (token :: tokens) c

theorem writes_natural (n : Nat) : Writes (toString n).toList (.natural n) := by
  intro tokens c hc
  obtain ⟨hdigit, hpoint, he, hE⟩ := hc
  have hexponent : ¬ (c = 'e' ∨ c = 'E') := not_or.mpr ⟨he, hE⟩
  rw [Nat.toString_eq_repr, Nat.toList_repr, run_append, run_digits, Option.bind_some,
    run_singleton, numberMode]
  split
  · rename_i hzero
    subst hzero
    simp only [step, hdigit, Bool.false_eq_true, if_false, afterInteger, hpoint, hexponent]
    rfl
  · simp only [step, hdigit, Bool.false_eq_true, if_false, afterInteger, hpoint, hexponent]
    rfl

theorem writes_null : Writes "null".toList .null := by
  intro tokens c _
  have hword : run ⟨.between, tokens⟩ ['n', 'u', 'l', 'l'] = some ⟨.between, .null :: tokens⟩ :=
    rfl
  have hletters : "null".toList = ['n', 'u', 'l', 'l'] := rfl
  rw [hletters, run_append, hword, Option.bind_some, run_singleton]
  rfl

/-- The token of a value. -/
def valueToken : Value → Token
  | none => .null
  | some n => .natural n

theorem writes_value (value : Value) : Writes (valueText value).toList (valueToken value) := by
  cases value with
  | none => exact writes_null
  | some n => exact writes_natural n

theorem run_value (value : Value) (tokens : List Token) {c : Char} (hc : EndsNumber c)
    (rest : List Char) : run ⟨.between, tokens⟩ ((valueText value).toList ++ c :: rest) =
      run ⟨.between, valueToken value :: tokens⟩ (c :: rest) := by
  rw [show (valueText value).toList ++ c :: rest = ((valueText value).toList ++ [c]) ++ rest by
    simp, run_append, writes_value value tokens c hc, run_cons]
  rfl

/-! ### Blanks -/

theorem isBlank_of {c : Char} (h : IsBlank c) : isBlank c = true := by
  rcases h with rfl | rfl | rfl | rfl <;> rfl

theorem endsNumber_of_blank {c : Char} (h : IsBlank c) : EndsNumber c := by
  rcases h with rfl | rfl | rfl | rfl <;> decide

/-- Blanks are passed over. -/
theorem run_blanks {text : List Char} (h : Blanks text) (tokens : List Token)
    (rest : List Char) :
    run ⟨.between, tokens⟩ (text ++ rest) = run ⟨.between, tokens⟩ rest := by
  induction text with
  | nil => rfl
  | cons c text ih =>
    have hbegin : begin tokens c = some ⟨.between, tokens⟩ :=
      if_pos (isBlank_of (h c (List.mem_cons_self ..)))
    have hstep : step ⟨.between, tokens⟩ c = some ⟨.between, tokens⟩ := hbegin
    rw [List.cons_append, run_cons, hstep, Option.bind_some,
      ih fun c' hc' => h c' (List.mem_cons_of_mem _ hc')]

/-- Behind a value there is a character that ends it, be it a blank or another one. -/
theorem exists_cons_of_blanks {text : List Char} (h : Blanks text) {c : Char}
    (hc : EndsNumber c) (rest : List Char) :
    ∃ c' rest', text ++ c :: rest = c' :: rest' ∧ EndsNumber c' := by
  cases text with
  | nil => exact ⟨c, rest, rfl, hc⟩
  | cons blank text =>
    exact ⟨blank, text ++ c :: rest, rfl, endsNumber_of_blank (h blank (List.mem_cons_self ..))⟩

/-! ### Strings -/

theorem run_text {text : List Char} (hplain : ∀ c ∈ text, IsPlain c) (pieces : List Piece)
    (tokens : List Token) (rest : List Char) :
    run ⟨.text pieces, tokens⟩ (text ++ '"' :: rest) =
      run (emit tokens (.string (pieces.reverse ++ text.map .char))) rest := by
  induction text generalizing pieces with
  | nil => simp [run_cons, step]
  | cons c text ih =>
    obtain ⟨hquote, hslash, hcontrol⟩ := hplain c (List.mem_cons_self ..)
    rw [List.cons_append, run_cons, step]
    simp only [hquote, hslash, Nat.not_lt.mpr hcontrol, if_false, Option.bind_some]
    rw [ih fun c' hc' => hplain c' (List.mem_cons_of_mem _ hc')]
    simp

/-! ### Members -/

/-- The tokens of a member. -/
def memberTokens (m : String × Value) : List Token :=
  [.string (m.1.toList.map .char), .colon, valueToken m.2]

theorem run_member {m : String × Value} {text : List Char} (h : SpellsMember m text)
    (before : List Token) {c : Char} (hc : EndsNumber c) (rest : List Char) :
    run ⟨.between, before⟩ (text ++ c :: rest) =
      run ⟨.between, (memberTokens m).reverse ++ before⟩ (c :: rest) := by
  obtain @⟨first, second, third, fourth, hplain, hfirst, hsecond, hthird, hfourth⟩ := h
  obtain ⟨c', rest', hbehind, hc'⟩ := exists_cons_of_blanks hfourth hc rest
  have hquote : ∀ text, run ⟨.between, before⟩ ('"' :: text) = run ⟨.text [], before⟩ text :=
    fun _ => rfl
  have hcolon : ∀ tokens text,
      run ⟨.between, tokens⟩ (':' :: text) = run ⟨.between, .colon :: tokens⟩ text :=
    fun _ _ => rfl
  simp only [List.append_assoc, List.cons_append]
  rw [run_blanks hfirst, hquote, run_text hplain, List.reverse_nil, List.nil_append, emit,
    run_blanks hsecond, hcolon, run_blanks hthird, hbehind, run_value m.2 _ hc', ← hbehind,
    run_blanks hfourth]
  rfl

/-- The tokens behind a member. -/
def tokensBehind : List (String × Value) → List Token
  | [] => [.closeBrace]
  | m :: rest => .comma :: (memberTokens m ++ tokensBehind rest)

/-- The members of an object are scanned one by one. -/
theorem run_members {m : String × Value} {rest : List (String × Value)} {text : List Char}
    (h : SpellsMembers m rest text) (before : List Token) (behind : List Char) :
    run ⟨.between, before⟩ (text ++ '}' :: behind) =
      run ⟨.between, (memberTokens m ++ tokensBehind rest).reverse ++ before⟩ behind := by
  induction h generalizing before with
  | last member =>
    rw [run_member member before (by decide), tokensBehind, List.reverse_append]
    rfl
  | @more m next rest text texts member others ih =>
    have hcomma : ∀ tokens text,
        run ⟨.between, tokens⟩ (',' :: text) = run ⟨.between, .comma :: tokens⟩ text :=
      fun _ _ => rfl
    rw [List.append_assoc, List.cons_append, run_member member before (by decide), hcomma, ih,
      tokensBehind]
    simp

end Scanner

/-! ### Objects -/

/-- The characters of a string without escapes. -/
theorem chars?_map_char (text : List Char) : chars? (text.map .char) = some text := by
  induction text with
  | nil => rfl
  | cons c rest ih =>
    rw [List.map_cons, chars?, ih]
    rfl

/-- What a document keeps of a value. -/
def valueScalar : Value → Scalar
  | none => .null
  | some n => .natural n

/-- What a document keeps of a member. -/
def memberScalar (m : String × Value) : String × Scalar := (m.1, valueScalar m.2)

namespace Reader

theorem run_append (r : Reader) (first rest : List Token) :
    r.run (first ++ rest) = (r.run first).bind (·.run rest) :=
  List.foldlM_append ..

theorem value_valueToken (r : Reader) (value : Value) :
    r.value (Scanner.valueToken value) = r.ended (valueScalar value) := by
  cases value <;> rfl

/-- The name is a key, and the value is kept under it. -/
theorem run_member (m : String × Value) {expect : Expect}
    (hkey : expect = .key ∨ expect = .keyOrEnd) (key : String)
    (entries : List (String × Scalar)) :
    run ⟨[.object], expect, key, entries, none⟩ (Scanner.memberTokens m) =
      some ⟨[.object], .commaOrEnd, m.1, memberScalar m :: entries, none⟩ := by
  have hname : step ⟨[.object], expect, key, entries, none⟩ (.string (m.1.toList.map .char)) =
      some ⟨[.object], .colon, m.1, entries, none⟩ := by
    rcases hkey with rfl | rfl <;> simp [step, keyed, chars?_map_char]
  have hvalue : step ⟨[.object], .value, m.1, entries, none⟩ (Scanner.valueToken m.2) =
      some ⟨[.object], .commaOrEnd, m.1, memberScalar m :: entries, none⟩ :=
    value_valueToken _ m.2
  show (step _ _).bind (fun r => (step r .colon).bind fun r =>
    (step r (Scanner.valueToken m.2)).bind some) = _
  rw [hname]
  exact congrArg (Option.bind · some) hvalue

/-- The members of an object are read one by one. -/
theorem run_tokensBehind (rest : List (String × Value)) (key : String)
    (entries : List (String × Scalar)) :
    (run ⟨[.object], .commaOrEnd, key, entries, none⟩ (Scanner.tokensBehind rest)).bind finish =
      some (.object (entries.reverse ++ rest.map memberScalar)) := by
  induction rest generalizing key entries with
  | nil =>
    rw [List.map_nil, List.append_nil]
    rfl
  | cons m rest ih =>
    have hcomma : ∀ tokens, run ⟨[.object], .commaOrEnd, key, entries, none⟩ (.comma :: tokens) =
        run ⟨[.object], .key, key, entries, none⟩ tokens :=
      fun _ => rfl
    rw [Scanner.tokensBehind, hcomma, run_append, run_member m (.inl rfl), Option.bind_some, ih,
      List.reverse_cons, List.append_assoc, List.map_cons, List.singleton_append]

end Reader

/-- A text that spells an object is read as this object, member by member. -/
theorem Document.parse?_of_spells {members : List (String × Value)} {text : String}
    (h : Spells members text) : parse? text = some (.object (members.map memberScalar)) := by
  obtain @⟨m, rest, text, first, inside, last, hfirst, hinside, hlast, htext⟩ := h
  have hbrace : ∀ chars, Scanner.run ⟨.between, []⟩ ('{' :: chars) =
      Scanner.run ⟨.between, [.openBrace]⟩ chars := fun _ => rfl
  have htokens : tokens? text =
      some (.openBrace :: (Scanner.memberTokens m ++ Scanner.tokensBehind rest)) := by
    rw [tokens?, htext, Scanner.start, Scanner.run_blanks hfirst, hbrace,
      Scanner.run_members hinside, ← List.append_nil last, Scanner.run_blanks hlast]
    simp [Scanner.finish]
  have hopened : ∀ tokens, Reader.start.run (.openBrace :: tokens) =
      Reader.run ⟨[.object], .keyOrEnd, "", [], none⟩ tokens := fun _ => rfl
  rw [parse?, htokens]
  show (Reader.start.run
    (.openBrace :: (Scanner.memberTokens m ++ Scanner.tokensBehind rest))).bind Reader.finish = _
  rw [hopened, Reader.run_append, Reader.run_member m (.inr rfl), Option.bind_some,
    Reader.run_tokensBehind]
  rfl

/-! ### The pretty text -/

theorem spellsMember_line {m : String × Value} (hplain : Plain m.1) {behind : List Char}
    (hbehind : Blanks behind) : SpellsMember m ((line m).toList ++ behind) := by
  have hline : (line m).toList ++ behind = ['\n', ' ', ' '] ++ '"' :: (m.1.toList ++
      '"' :: ([] ++ ':' :: ([' '] ++ ((valueText m.2).toList ++ behind)))) := by
    simp [line]
  rw [hline]
  refine .spelled hplain ?_ ?_ ?_ hbehind <;> simp [Blanks, IsBlank]

theorem spellsMembers_lines {m : String × Value} {rest : List (String × Value)}
    (hplain : ∀ m' ∈ m :: rest, Plain m'.1) : SpellsMembers m rest (lines m rest).toList := by
  induction rest generalizing m with
  | nil =>
    rw [lines, String.toList_append]
    refine .last (spellsMember_line (hplain m (List.mem_cons_self ..)) ?_)
    simp [Blanks, IsBlank]
  | cons next rest ih =>
    have hmember : SpellsMember m (line m).toList := by
      rw [← List.append_nil (line m).toList]
      exact spellsMember_line (hplain m (List.mem_cons_self ..)) (by simp [Blanks])
    have htext : (lines m (next :: rest)).toList =
        (line m).toList ++ ',' :: (lines next rest).toList := by
      simp [lines]
    rw [htext]
    exact .more hmember (ih fun m' hm' => hplain m' (List.mem_cons_of_mem _ hm'))

/-- The pretty text of an object spells the object. -/
theorem spells_pretty {m : String × Value} {rest : List (String × Value)}
    (hplain : ∀ m' ∈ m :: rest, Plain m'.1) : Spells (m :: rest) (pretty (m :: rest)) := by
  have hblanks : Blanks [] := by simp [Blanks]
  refine .object hblanks (spellsMembers_lines hplain) hblanks ?_
  simp [pretty]

end ArchetypeStore.Json
