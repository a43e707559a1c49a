import CrossChain.Json.Value
import CrossChain.Proofs.Basic

/-!
# How a list of tokens can be spelled

A list of tokens has many texts: blanks may stand around every token, and a character of a string
may be spelled as it is or escaped in one of several ways. The machine that cuts a text into tokens
takes one character at a time and sees none of this structure. Here the spellings are given by a
grammar, and the machine is shown to read every one of them.

Only one thing has to be said about neighbours. Nothing marks the end of a number, so that the token
after it has to start with a character that cannot continue it. The tokens of a value are always
separated in this way.

## Main statements

* `Number`, `Token.Spells`, `Spaced`: the grammar of numbers, of tokens, and of lists of tokens.
* `Lexer.run_spelling`: the machine reads one token.
* `tokens?_of_spaced`: it reads all of them.
* `spaced_flatMap`: the shortest spelling, with or without blanks, is one.
-/

namespace CrossChain.Json

/-! ## §1 The grammar -/

/-- One or more decimal digits. -/
def Digits (digits : List Char) : Prop :=
  digits ≠ [] ∧ ∀ c ∈ digits, c.isDigit = true

/-- What stands before the point of a number: no zero comes before other digits. -/
inductive Whole : List Char → Prop where
  | zero : Whole ['0']
  | digits {first : Char} {rest : List Char} (hzero : first ≠ '0')
      (hdigits : Digits (first :: rest)) : Whole (first :: rest)

inductive Fraction : List Char → Prop where
  | none : Fraction []
  | digits {digits : List Char} (hdigits : Digits digits) : Fraction ('.' :: digits)

inductive Exponent : List Char → Prop where
  | none : Exponent []
  | digits {e : Char} {sign digits : List Char} (he : e = 'e' ∨ e = 'E')
      (hsign : sign = [] ∨ sign = ['+'] ∨ sign = ['-']) (hdigits : Digits digits) :
      Exponent (e :: (sign ++ digits))

/-- A number as it may be written. -/
inductive Number : List Char → Prop where
  | intro {sign whole fraction exponent : List Char} (hsign : sign = [] ∨ sign = ['-'])
      (hwhole : Whole whole) (hfraction : Fraction fraction) (hexponent : Exponent exponent) :
      Number (sign ++ (whole ++ (fraction ++ exponent)))

/-- What a part of a string stands for: a character, or a 16-bit unit that is escaped. -/
inductive Symbol where
  | char (c : Char)
  | unit (value : Nat)

namespace Symbol

/-- The first half of a surrogate pair. -/
def IsHigh (value : Nat) : Prop := 0xd800 ≤ value ∧ value < 0xdc00

/-- The second half. -/
def IsLow (value : Nat) : Prop := 0xdc00 ≤ value ∧ value < 0xe000

instance (value : Nat) : Decidable (IsHigh value) := inferInstanceAs (Decidable (_ ∧ _))

instance (value : Nat) : Decidable (IsLow value) := inferInstanceAs (Decidable (_ ∧ _))

/-- The character of a surrogate pair. -/
def pair (high low : Nat) : Char :=
  Char.ofNat (0x10000 + (high - 0xd800) * 0x400 + (low - 0xdc00))

/-- The text of some symbols: units that are halves of a pair come in pairs. -/
def text : List Symbol → Option (List Char)
  | [] => some []
  | .char c :: rest => (text rest).map (c :: ·)
  | .unit high :: .unit low :: rest =>
    if IsHigh high then
      if IsLow low then (text rest).map (pair high low :: ·) else none
    else if IsLow high then none
    else (text (.unit low :: rest)).map (Char.ofNat high :: ·)
  | .unit value :: rest =>
    if IsHigh value ∨ IsLow value then none else (text rest).map (Char.ofNat value :: ·)

/-- The spellings of a symbol. -/
inductive Spells : Symbol → List Char → Prop where
  | plain {c : Char} (hquote : c ≠ '"') (hslash : c ≠ '\\') (hcontrol : ¬ c.toNat < 0x20) :
      Spells (.char c) [c]
  | escaped {letter c : Char} (h : escaped? letter = some c) : Spells (.char c) ['\\', letter]
  | unit {a b c d : Char} {i j k l : Nat} (ha : Hex.value? a = some i) (hb : Hex.value? b = some j)
      (hc : Hex.value? c = some k) (hd : Hex.value? d = some l) :
      Spells (.unit (16 * (16 * (16 * i + j) + k) + l)) ['\\', 'u', a, b, c, d]

end Symbol

namespace Token

/-- A token that is spelled in one way. -/
def Fixed : Token → Prop
  | number _ | text _ => False
  | _ => True

/-- The spellings of a token. -/
inductive Spells : Token → List Char → Prop where
  | fixed {token : Token} (h : token.Fixed) : Spells token token.spell
  | number {literal : List Char} (h : Number literal) : Spells (.number literal) literal
  | text {symbols : List Symbol} {pieces : List (List Char)}
      (h : List.Forall₂ Symbol.Spells symbols pieces) :
      Spells (.text (Symbol.text symbols)) ('"' :: (pieces.flatten ++ ['"']))

/-- A token that ends a number before it. -/
def Delimits : Token → Prop
  | comma | closeArray | closeObject => True
  | _ => False

/-- Two tokens that can stand next to each other: a number is not followed by anything that could
be a part of it. -/
def Apart : Token → Token → Prop
  | number _, next => next.Delimits
  | _, _ => True

end Token

/-- Characters that stand between tokens. -/
def Blank (blanks : List Char) : Prop :=
  ∀ c ∈ blanks, Lexer.isBlank c = true

/-- A text that some tokens can have: blanks may stand before each of them and at the end. -/
inductive Spaced : List Token → List Char → Prop where
  | nil {blanks : List Char} (hblanks : Blank blanks) : Spaced [] blanks
  | cons {token : Token} {tokens : List Token} {blanks spelling text : List Char}
      (hblanks : Blank blanks) (hspells : token.Spells spelling) (h : Spaced tokens text) :
      Spaced (token :: tokens) (blanks ++ (spelling ++ text))

/-! ## §2 The machine -/

namespace Lexer

variable {l : Lexer} {tokens : List Token}

/-- The machine after some characters. -/
def run (l : Lexer) (chars : List Char) : Option Lexer :=
  chars.foldlM step l

theorem run_nil : l.run [] = some l := rfl

theorem run_cons (c : Char) (chars : List Char) :
    l.run (c :: chars) = (l.step c).bind (·.run chars) := rfl

theorem run_append (front back : List Char) :
    l.run (front ++ back) = (l.run front).bind (·.run back) :=
  List.foldlM_append

theorem run_blank {blanks : List Char} (h : Blank blanks) :
    (⟨tokens, .between⟩ : Lexer).run blanks = some ⟨tokens, .between⟩ := by
  induction blanks with
  | nil => rfl
  | cons c rest ih =>
    obtain ⟨hc, hrest⟩ := List.forall_mem_cons.mp h
    have hstep : (⟨tokens, .between⟩ : Lexer).step c = some ⟨tokens, .between⟩ := by
      simp [step, begin, hc]
    rw [run_cons, hstep, Option.bind_some, ih hrest]

theorem run_fixed {token : Token} (h : token.Fixed) :
    (⟨tokens, .between⟩ : Lexer).run token.spell = some ⟨token :: tokens, .between⟩ := by
  cases token with
  | number => cases h
  | text => cases h
  | bool value => cases value <;> rfl
  | _ => rfl

end Lexer

/-! ## §3 Strings -/

/-- Adds a symbol to a text. -/
def TextSoFar.add (t : TextSoFar) : Symbol → TextSoFar
  | .char c => t.push c
  | .unit value => t.pushUnit value

namespace Lexer

theorem run_symbol {tokens : List Token} {t : TextSoFar} {symbol : Symbol} {piece : List Char}
    (h : symbol.Spells piece) :
    (⟨tokens, .string t⟩ : Lexer).run piece = some ⟨tokens, .string (t.add symbol)⟩ := by
  cases h with
  | plain hquote hslash hcontrol =>
    simp [run_cons, run_nil, step, hquote, hslash, hcontrol, TextSoFar.add]
  | @escaped letter c hescaped =>
    -- The letter for a number stands for no character.
    have hletter : letter ≠ 'u' := by
      rintro rfl
      cases hescaped
    simp [run_cons, run_nil, step, hletter, hescaped, TextSoFar.add]
  | unit ha hb hc hd =>
    simp [run_cons, run_nil, step, ha, hb, hc, hd, TextSoFar.add]

theorem run_symbols {tokens : List Token} {t : TextSoFar} {symbols : List Symbol}
    {pieces : List (List Char)} (h : List.Forall₂ Symbol.Spells symbols pieces) :
    (⟨tokens, .string t⟩ : Lexer).run pieces.flatten =
      some ⟨tokens, .string (symbols.foldl TextSoFar.add t)⟩ := by
  induction h generalizing t with
  | nil => rfl
  | cons hsymbol _ ih =>
    rw [List.flatten_cons, run_append, run_symbol hsymbol, Option.bind_some, ih, List.foldl_cons]

end Lexer

namespace Symbol

variable {value : Nat} {rest : List Symbol}

theorem not_isHigh_of_isLow (h : IsLow value) : ¬ IsHigh value :=
  fun hhigh => Nat.not_lt.mpr h.1 hhigh.2

/-- A unit that is no half of a pair is a character. -/
theorem text_unit (hhigh : ¬ IsHigh value) (hlow : ¬ IsLow value) :
    text (.unit value :: rest) = (text rest).map (Char.ofNat value :: ·) := by
  cases rest with
  | nil => simp [text, hhigh, hlow]
  | cons next rest => cases next <;> simp [text, hhigh, hlow]

/-- A second half without a first one has no text. -/
theorem text_low (hlow : IsLow value) : text (.unit value :: rest) = none := by
  have hhigh := not_isHigh_of_isLow hlow
  cases rest with
  | nil => simp [text, hlow]
  | cons next rest => cases next <;> simp [text, hhigh, hlow]

end Symbol

namespace TextSoFar

variable {t : TextSoFar} {value : Nat} {rest : List Symbol}

theorem pushUnit_high (h : Symbol.IsHigh value) :
    t.pushUnit value = ⟨t.chars, some value, t.paired && t.half.isNone⟩ := if_pos h

theorem pushUnit_low (h : Symbol.IsLow value) :
    t.pushUnit value = match t.half with
      | some high => ⟨Symbol.pair high value :: t.chars, none, t.paired⟩
      | none => ⟨t.chars, none, false⟩ :=
  (if_neg (Symbol.not_isHigh_of_isLow h)).trans (if_pos h)

theorem pushUnit_plain (hhigh : ¬ Symbol.IsHigh value) (hlow : ¬ Symbol.IsLow value) :
    t.pushUnit value = t.push (Char.ofNat value) :=
  (if_neg hhigh).trans (if_neg hlow)

/-- What waits for its second half is a first half. -/
def Waits (t : TextSoFar) : Prop :=
  ∀ high, t.half = some high → Symbol.IsHigh high

theorem waits_empty : empty.Waits := by
  intro high hhalf
  cases hhalf

theorem waits_add (symbol : Symbol) : (t.add symbol).Waits := by
  have hpush (c : Char) : (t.push c).Waits := fun _ hhalf => nomatch hhalf
  cases symbol with
  | char c => exact hpush c
  | unit value =>
    -- Only a first half is made to wait.
    rw [TextSoFar.add]
    by_cases hhigh : Symbol.IsHigh value
    · rw [pushUnit_high hhigh]
      intro high hhalf
      cases hhalf
      exact hhigh
    · by_cases hlow : Symbol.IsLow value
      · rw [pushUnit_low hlow]
        cases t.half <;> exact fun _ hhalf => nomatch hhalf
      · rw [pushUnit_plain hhigh hlow]
        exact hpush _

/-- The text of a string that was read in part, when the given symbols are still to come. -/
def textWith (t : TextSoFar) (rest : List Symbol) : Option (List Char) :=
  if t.paired then
    (Symbol.text ((t.half.map Symbol.unit).toList ++ rest)).map (t.chars.reverse ++ ·)
  else none

/-- Reading a symbol does not change the text. -/
theorem textWith_add (h : t.Waits) (symbol : Symbol) :
    (t.add symbol).textWith rest = t.textWith (symbol :: rest) := by
  obtain ⟨chars, half, paired⟩ := t
  -- The symbol is read alone, or after a first half that waits for its second one.
  cases half with
  | none =>
    cases symbol with
    | char c => simp [add, push, textWith, Symbol.text, Function.comp_def]
    | unit value =>
      rw [add]
      -- A first half is put aside, a second one has no text alone, and the rest are characters.
      by_cases hhigh : Symbol.IsHigh value
      · simp [pushUnit_high hhigh, textWith]
      · by_cases hlow : Symbol.IsLow value
        · simp [pushUnit_low hlow, textWith, Symbol.text_low hlow]
        · simp [pushUnit_plain hhigh hlow, push, textWith, Symbol.text_unit hhigh hlow,
            Function.comp_def]
  | some high =>
    have hfirst : Symbol.IsHigh high := h high rfl
    cases symbol with
    | char c => simp [add, push, textWith, Symbol.text, hfirst]
    | unit value =>
      rw [add]
      -- Only a second half completes it; after anything else it has no text.
      by_cases hhigh : Symbol.IsHigh value
      · have hlow : ¬ Symbol.IsLow value := fun h => Symbol.not_isHigh_of_isLow h hhigh
        simp [pushUnit_high hhigh, textWith, Symbol.text, hfirst, hlow]
      · by_cases hlow : Symbol.IsLow value
        · simp [pushUnit_low hlow, textWith, Symbol.text, hfirst, hlow, Function.comp_def]
        · simp [pushUnit_plain hhigh hlow, push, textWith, Symbol.text, hfirst, hlow]

/-- **The text of a string** is that of its symbols. -/
theorem content_foldl (h : t.Waits) (symbols : List Symbol) :
    (symbols.foldl add t).content = t.textWith symbols := by
  induction symbols generalizing t with
  | nil =>
    -- A first half that still waits at the end has no second one.
    obtain ⟨chars, half, paired⟩ := t
    cases half with
    | none => cases paired <;> simp [content, textWith, Symbol.text]
    | some high =>
      have hfirst : Symbol.IsHigh high := h high rfl
      cases paired <;> simp [content, textWith, Symbol.text, hfirst]
  | cons symbol rest ih => rw [List.foldl_cons, ih (waits_add symbol), textWith_add h]

end TextSoFar

theorem Lexer.run_text {tokens : List Token} {symbols : List Symbol} {pieces : List (List Char)}
    (h : List.Forall₂ Symbol.Spells symbols pieces) :
    (⟨tokens, .between⟩ : Lexer).run ('"' :: (pieces.flatten ++ ['"'])) =
      some ⟨.text (Symbol.text symbols) :: tokens, .between⟩ := by
  have hstart : (⟨tokens, .between⟩ : Lexer).step '"' = some ⟨tokens, .string .empty⟩ := rfl
  have hcontent : (symbols.foldl TextSoFar.add .empty).content = Symbol.text symbols := by
    rw [TextSoFar.content_foldl TextSoFar.waits_empty]
    simp [TextSoFar.textWith, TextSoFar.empty]
  rw [run_cons, hstart, Option.bind_some, run_append, run_symbols h, Option.bind_some, ← hcontent]
  rfl

/-! ## §4 Numbers -/

namespace NumberPart

/-- The part of a number that some characters lead to, if they continue it. -/
def follow? (part : NumberPart) (chars : List Char) : Option NumberPart :=
  chars.foldlM next? part

theorem follow?_append {part next : NumberPart} {front : List Char}
    (h : part.follow? front = some next) (back : List Char) :
    part.follow? (front ++ back) = next.follow? back := by
  rw [follow?, List.foldlM_append, ← follow?, h]
  rfl

/-- A part of a number that goes on for as long as there are digits. -/
theorem follow?_digits {part : NumberPart}
    (hpart : ∀ c : Char, c.isDigit = true → part.next? c = some part) {digits : List Char}
    (h : ∀ c ∈ digits, c.isDigit = true) : part.follow? digits = some part := by
  induction digits with
  | nil => rfl
  | cons c rest ih =>
    obtain ⟨hc, hrest⟩ := List.forall_mem_cons.mp h
    rw [follow?, List.foldlM_cons, hpart c hc]
    exact ih hrest

/-- A part of a number that digits lead to another part. -/
theorem follow?_first {part next : NumberPart}
    (hpart : ∀ c : Char, c.isDigit = true → part.next? c = some next)
    (hnext : ∀ c : Char, c.isDigit = true → next.next? c = some next) {digits : List Char}
    (h : Digits digits) : part.follow? digits = some next := by
  obtain ⟨hsome, hdigits⟩ := h
  cases digits with
  | nil => exact absurd rfl hsome
  | cons c rest =>
    obtain ⟨hc, hrest⟩ := List.forall_mem_cons.mp hdigits
    rw [follow?, List.foldlM_cons, hpart c hc]
    exact follow?_digits hnext hrest

/-- What may come before the fraction. -/
theorem follow?_whole {whole : List Char} (h : Whole whole) :
    ∃ part, (part = zero ∨ part = NumberPart.whole) ∧ sign.follow? whole = some part := by
  cases h with
  | zero => exact ⟨zero, .inl rfl, rfl⟩
  | @digits first rest hzero hdigits =>
    -- The first digit is no zero, so that any digits may follow.
    obtain ⟨hfirst, hrest⟩ := List.forall_mem_cons.mp hdigits.2
    refine ⟨.whole, .inr rfl, ?_⟩
    have hnext : sign.next? first = some .whole := by simp [next?, hzero, hfirst]
    rw [follow?, List.foldlM_cons, hnext]
    exact follow?_digits (by simp +contextual [next?]) hrest

/-- What may come before the exponent. -/
theorem follow?_fraction {fraction : List Char} (h : Fraction fraction) {part : NumberPart}
    (hpart : part = zero ∨ part = .whole) :
    ∃ next, (next = zero ∨ next = .whole ∨ next = .fraction) ∧
      part.follow? fraction = some next := by
  cases h with
  | none => exact ⟨part, by tauto, rfl⟩
  | @digits digits hdigits =>
    refine ⟨.fraction, .inr (.inr rfl), ?_⟩
    have hpoint : part.next? '.' = some point := by rcases hpart with rfl | rfl <;> rfl
    rw [follow?, List.foldlM_cons, hpoint]
    exact follow?_first (by simp +contextual [next?]) (by simp +contextual [next?]) hdigits

/-- What may come at the end. -/
theorem follow?_exponent {exponent : List Char} (h : Exponent exponent) {part : NumberPart}
    (hpart : part = zero ∨ part = .whole ∨ part = .fraction) :
    ∃ next, next.final = true ∧ part.follow? exponent = some next := by
  cases h with
  | none => exact ⟨part, by rcases hpart with rfl | rfl | rfl <;> rfl, rfl⟩
  | @digits e sign digits he hsign hdigits =>
    refine ⟨.exponentDigits, rfl, ?_⟩
    have hmark : part.next? e = some .exponent := by
      rcases hpart with rfl | rfl | rfl <;> rcases he with rfl | rfl <;> rfl
    rw [follow?, List.foldlM_cons, hmark]
    -- A sign may stand between the mark and the digits, and no digit is taken for one.
    have hdigit {c : Char} (hc : c.isDigit = true) : c ≠ '+' ∧ c ≠ '-' := by
      constructor <;> rintro rfl <;> cases hc
    rcases hsign with rfl | hsign
    · exact follow?_first (fun c hc => by simp [next?, hdigit hc, hc])
        (by simp +contextual [next?]) hdigits
    · have hsigned : NumberPart.exponent.follow? sign = some .exponentSign := by
        rcases hsign with rfl | rfl <;> rfl
      refine (follow?_append hsigned digits).trans ?_
      exact follow?_first (by simp +contextual [next?]) (by simp +contextual [next?]) hdigits

/-- **A number** leads from its sign to a part that may be the last. -/
theorem follow?_number {whole fraction exponent : List Char} (hwhole : Whole whole)
    (hfraction : Fraction fraction) (hexponent : Exponent exponent) :
    ∃ next, next.final = true ∧ sign.follow? (whole ++ (fraction ++ exponent)) = some next := by
  -- Each part leads to one from which the next may start.
  obtain ⟨part, hpart, hfirst⟩ := follow?_whole hwhole
  obtain ⟨part', hpart', hsecond⟩ := follow?_fraction hfraction hpart
  obtain ⟨next, hfinal, hlast⟩ := follow?_exponent hexponent hpart'
  refine ⟨next, hfinal, ?_⟩
  rw [follow?_append hfirst, follow?_append hsecond, hlast]

end NumberPart

namespace Lexer

variable {tokens : List Token}

theorem run_follow {part next : NumberPart} {read chars : List Char}
    (h : part.follow? chars = some next) :
    (⟨tokens, .number part read⟩ : Lexer).run chars =
      some ⟨tokens, .number next (chars.reverse ++ read)⟩ := by
  -- The machine keeps what it has read, the last character first.
  induction chars generalizing part read with
  | nil =>
    cases h
    rfl
  | cons c rest ih =>
    obtain ⟨part', hpart', hrest⟩ := Option.bind_eq_some_iff.mp h
    have hstep : (⟨tokens, .number part read⟩ : Lexer).step c =
        some ⟨tokens, .number part' (c :: read)⟩ := by
      simp only [step, hpart']
    rw [run_cons, hstep, Option.bind_some, ih hrest]
    simp

theorem exists_digitChar {c : Char} (h : c.isDigit = true) : ∃ n < 10, c = Nat.digitChar n := by
  obtain ⟨hlow, hhigh⟩ : 48 ≤ c.toNat ∧ c.toNat ≤ 57 := by
    simpa [Char.isDigit, UInt32.le_iff_toNat_le] using h
  refine ⟨c.toNat - 48, by omega, ?_⟩
  rw [← Char.ofNat_toNat c]
  generalize c.toNat = n at hlow hhigh
  interval_cases n <;> rfl

/-- A digit between tokens starts a number, as if there were a sign before it. -/
theorem step_digit {c : Char} (h : c.isDigit = true) :
    (⟨tokens, .between⟩ : Lexer).step c =
      (NumberPart.sign.next? c).map fun part => ⟨tokens, .number part [c]⟩ := by
  obtain ⟨n, hn, rfl⟩ := exists_digitChar h
  interval_cases n <;> rfl

/-- **A number** is read to its end, and not completed before the next character. -/
theorem run_number {literal : List Char} (h : Number literal) :
    ∃ part, part.final = true ∧
      (⟨tokens, .between⟩ : Lexer).run literal = some ⟨tokens, .number part literal.reverse⟩ := by
  obtain @⟨sign, whole, fraction, exponent, hsign, hwhole, hfraction, hexponent⟩ := h
  obtain ⟨part, hfinal, hfollow⟩ := NumberPart.follow?_number hwhole hfraction hexponent
  refine ⟨part, hfinal, ?_⟩
  rcases hsign with rfl | rfl
  · -- The first digit takes the place of the sign.
    obtain ⟨first, rest, rfl⟩ : ∃ first rest, whole = first :: rest := by
      cases hwhole <;> exact ⟨_, _, rfl⟩
    have hfirst : first.isDigit = true := by
      cases hwhole with
      | zero => rfl
      | digits _ hdigits => exact (List.forall_mem_cons.mp hdigits.2).1
    obtain ⟨part', hpart', hrest⟩ := Option.bind_eq_some_iff.mp hfollow
    have hrest : part'.follow? (rest ++ (fraction ++ exponent)) = some part := hrest
    rw [List.nil_append, List.cons_append, run_cons, step_digit hfirst, hpart', Option.map_some,
      Option.bind_some, run_follow hrest, List.reverse_cons]
  · -- A number that has a sign starts with it.
    have hminus : (⟨tokens, .between⟩ : Lexer).step '-' = some ⟨tokens, .number .sign ['-']⟩ := rfl
    rw [List.singleton_append, run_cons, hminus, Option.bind_some, run_follow hfollow,
      List.reverse_cons]

end Lexer

/-! ## §5 Lists of tokens -/

/-- A character that no number goes on with. -/
def Stops (c : Char) : Prop :=
  Lexer.isBlank c = true ∨ c = ',' ∨ c = ']' ∨ c = '\x7d'

theorem next?_of_stops {c : Char} (h : Stops c) (part : NumberPart) : part.next? c = none := by
  have hcases : c = ' ' ∨ c = '\t' ∨ c = '\n' ∨ c = '\r' ∨ c = ',' ∨ c = ']' ∨ c = '\x7d' := by
    simpa [Stops, Lexer.isBlank, or_assoc] using h
  rcases hcases with rfl | rfl | rfl | rfl | rfl | rfl | rfl <;>
    cases part <;> rfl

/-- What comes after a number starts with a character that ends it. -/
theorem Spaced.stops {tokens : List Token} {text : List Char} (h : Spaced tokens text)
    (hnext : ∀ next ∈ tokens.head?, next.Delimits) : ∀ c ∈ text.head?, Stops c := by
  cases h with
  | nil hblanks => exact fun c hc => .inl (hblanks c (List.mem_of_mem_head? hc))
  | @cons token tokens blanks spelling text hblanks hspells h =>
    -- A blank ends the number, and so does the next token if there is no blank before it.
    cases blanks with
    | cons c rest =>
      intro c' hc'
      cases hc'
      exact .inl (hblanks c List.mem_cons_self)
    | nil =>
      have hdelimits : token.Delimits := hnext token rfl
      -- The tokens that delimit have one spelling, of one character.
      cases hspells with
      | number | text => cases hdelimits
      | fixed =>
        cases token with
        | comma | closeArray | closeObject =>
          intro c hc
          cases hc
          simp [Stops]
        | _ => cases hdelimits

namespace Lexer

/-- The tokens after some more characters, which are the last. -/
def read? (l : Lexer) (text : List Char) : Option (List Token) :=
  (l.run text).bind finish

theorem read?_append {l l' : Lexer} {front : List Char} (h : l.run front = some l')
    (back : List Char) : l.read? (front ++ back) = l'.read? back := by
  rw [read?, run_append, h]
  rfl

/-- **A number is complete** once it is clear that it does not go on. -/
theorem read?_number {tokens : List Token} {part : NumberPart} {literal text : List Char}
    (hfinal : part.final = true) (htext : ∀ c ∈ text.head?, Stops c) :
    (⟨tokens, .number part literal.reverse⟩ : Lexer).read? text =
      (⟨.number literal :: tokens, .between⟩ : Lexer).read? text := by
  cases text with
  | nil => simp [read?, run_nil, finish, hfinal]
  | cons c rest =>
    have hnone := next?_of_stops (htext c rfl) part
    simp [read?, run_cons, step, hnone, hfinal, emit]

/-- **A list of tokens** is read from each of its texts, by induction on the tokens. -/
theorem read?_of_spaced {before tokens : List Token} {text : List Char} (h : Spaced tokens text)
    (hapart : tokens.IsChain Token.Apart) :
    (⟨before, .between⟩ : Lexer).read? text = some (before.reverse ++ tokens) := by
  induction h generalizing before with
  | nil hblanks =>
    rw [read?, run_blank hblanks]
    simp [finish]
  | @cons token tokens blanks spelling text hblanks hspells hspaced ih =>
    rw [read?_append (run_blank hblanks)]
    have hrest : tokens.IsChain Token.Apart := hapart.tail
    have hnext : (⟨token :: before, .between⟩ : Lexer).read? text =
        some (before.reverse ++ token :: tokens) := by
      rw [ih hrest]
      simp
    rw [← hnext]
    -- What is left to show is that this one token is read.
    cases hspells with
    | fixed hfixed => exact read?_append (run_fixed hfixed) _
    | text hpieces => exact read?_append (run_text hpieces) _
    | number hnumber =>
      -- A number is only complete with the character after it.
      obtain ⟨part, hfinal, hrun⟩ := run_number hnumber
      rw [read?_append hrun]
      exact read?_number hfinal (hspaced.stops (List.isChain_cons.mp hapart).1)

end Lexer

/-- **The tokens of a text.** Whatever way they are spelled, they are the ones that are read. -/
theorem tokens?_of_spaced {tokens : List Token} {text : List Char} (h : Spaced tokens text)
    (hapart : tokens.IsChain Token.Apart) : tokens? text = some tokens :=
  Lexer.read?_of_spaced h hapart

/-! ## §6 The shortest spelling -/

theorem value?_digit {n : Nat} (h : n < 16) : Hex.value? (Hex.digit n) = some n := by
  interval_cases n <;> rfl

theorem spells_unit {i j k l : Nat} (hi : i < 16) (hj : j < 16) (hk : k < 16) (hl : l < 16) :
    Symbol.Spells (.unit (16 * (16 * (16 * i + j) + k) + l))
      ['\\', 'u', Hex.digit i, Hex.digit j, Hex.digit k, Hex.digit l] :=
  .unit (value?_digit hi) (value?_digit hj) (value?_digit hk) (value?_digit hl)

/-- The spelling of a character, which is escaped if it has to be. -/
theorem exists_spells_spellChar (c : Char) :
    ∃ symbol : Symbol, symbol.Spells (spellChar c) ∧
      ∀ rest, Symbol.text (symbol :: rest) = (Symbol.text rest).map (c :: ·) := by
  unfold spellChar
  -- Seven characters have an escape of their own.
  split_ifs with hquote hslash hline hreturn htab hback hfeed hcontrol
  any_goals
    subst c
    exact ⟨_, .escaped rfl, fun _ => rfl⟩
  · -- A control character without a letter is told by its number, which is no half of a pair.
    have hvalue : 16 * (16 * (16 * 0 + 0) + c.toNat / 16) + c.toNat % 16 = c.toNat := by omega
    have hspells : Symbol.Spells (.unit _) _ :=
      spells_unit (i := 0) (j := 0) (k := c.toNat / 16) (l := c.toNat % 16) (by decide) (by decide)
        (by omega) (by omega)
    rw [hvalue] at hspells
    refine ⟨.unit c.toNat, hspells, fun rest => ?_⟩
    rw [Symbol.text_unit (by rw [Symbol.IsHigh]; omega) (by rw [Symbol.IsLow]; omega),
      Char.ofNat_toNat]
  · exact ⟨.char c, .plain hquote hslash hcontrol, fun _ => rfl⟩

/-- **The shortest spelling** of a text. -/
theorem exists_spells_flatMap (chars : List Char) :
    ∃ symbols pieces, List.Forall₂ Symbol.Spells symbols pieces ∧
      pieces.flatten = chars.flatMap spellChar ∧ Symbol.text symbols = some chars := by
  induction chars with
  | nil => exact ⟨[], [], .nil, rfl, rfl⟩
  | cons c rest ih =>
    obtain ⟨symbol, hspells, htext⟩ := exists_spells_spellChar c
    obtain ⟨symbols, pieces, hpieces, hflatten, hrest⟩ := ih
    refine ⟨symbol :: symbols, spellChar c :: pieces, .cons hspells hpieces, ?_, ?_⟩
    · rw [List.flatten_cons, hflatten, List.flatMap_cons]
    · rw [htext, hrest, Option.map_some]

theorem Token.spells_spell {token : Token}
    (h : ∀ literal, token = .number literal → Number literal) : token.Spells token.spell := by
  cases token with
  | number literal => exact .number (h literal rfl)
  | text content =>
    cases content with
    | none =>
      -- What has no text is spelled as half of a pair, which has none either.
      have hhalf : Symbol.Spells (.unit 0xd800) ['\\', 'u', 'd', '8', '0', '0'] :=
        spells_unit (i := 13) (j := 8) (k := 0) (l := 0) (by decide) (by decide) (by decide)
          (by decide)
      exact .text (.cons hhalf .nil)
    | some chars =>
      obtain ⟨symbols, pieces, hpieces, hflatten, htext⟩ := exists_spells_flatMap chars
      have hspells := Token.Spells.text hpieces
      rwa [htext, hflatten] at hspells
  | _ => exact .fixed trivial

/-- **The shortest spelling** of a list of tokens, with the same blanks before each of them. -/
theorem spaced_flatMap {tokens : List Token} {blanks : List Char} (hblanks : Blank blanks)
    (h : ∀ literal, .number literal ∈ tokens → Number literal) :
    Spaced tokens (tokens.flatMap fun token => blanks ++ token.spell) := by
  induction tokens with
  | nil => exact .nil fun _ hc => nomatch hc
  | cons token rest ih =>
    have hspells : token.Spells token.spell :=
      Token.spells_spell fun literal hliteral => h literal (hliteral ▸ List.mem_cons_self)
    have hrest := ih fun literal hliteral => h literal (List.mem_cons_of_mem _ hliteral)
    rw [List.flatMap_cons, List.append_assoc]
    exact .cons hblanks hspells hrest

/-- A positive number is written without a zero in front. -/
theorem exists_toDigits_eq_cons {n : Nat} (h : 0 < n) :
    ∃ first rest, Nat.toDigits 10 n = first :: rest ∧ first ≠ '0' := by
  induction n using Nat.strongRecOn with
  | ind n ih =>
    rcases Nat.lt_or_ge n 10 with hsmall | hlarge
    · refine ⟨Nat.digitChar n, [], Nat.toDigits_of_lt_base hsmall, ?_⟩
      interval_cases n <;> decide
    · obtain ⟨first, rest, hdigits, hfirst⟩ := ih (n / 10) (by omega) (by omega)
      refine ⟨first, rest ++ [Nat.digitChar (n % 10)], ?_, hfirst⟩
      rw [Nat.toDigits_of_base_le (by decide) hlarge, hdigits, List.cons_append]

theorem whole_toDigits (n : Nat) : Whole (Nat.toDigits 10 n) := by
  rcases Nat.eq_zero_or_pos n with rfl | hpos
  · exact .zero
  · obtain ⟨first, rest, hdigits, hfirst⟩ := exists_toDigits_eq_cons hpos
    have hall : ∀ c ∈ first :: rest, c.isDigit = true := by
      intro c hc
      rw [← hdigits] at hc
      exact Nat.isDigit_of_mem_toDigits (by decide) (by decide) hc
    rw [hdigits]
    exact .digits hfirst ⟨List.cons_ne_nil _ _, hall⟩

/-- **The shortest spelling** of an integer. -/
theorem number_toDigits {sign : List Char} (hsign : sign = [] ∨ sign = ['-']) (n : Nat) :
    Number (sign ++ Nat.toDigits 10 n) := by
  have h := Number.intro hsign (whole_toDigits n) .none .none
  rwa [List.append_nil, List.append_nil] at h

end CrossChain.Json
