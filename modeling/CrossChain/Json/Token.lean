import CrossChain.Bytes.Hex

/-!
# The tokens of a JSON text

A text is cut into tokens by a machine that takes one character at a time. Between tokens it
skips the four blank characters; a number ends where a character comes that cannot continue
it.

A string token holds the text that its escapes stand for. A string may escape half of a
surrogate pair without the other half: such a token is well formed and holds no text.
-/

namespace CrossChain.Json

/-- A token of a JSON text. -/
inductive Token where
  | openObject
  | closeObject
  | openArray
  | closeArray
  | colon
  | comma
  | null
  | bool (value : Bool)
  /-- A number as it is written. -/
  | number (literal : List Char)
  /-- The text of a string, if it has one. -/
  | text (content : Option (List Char))
deriving DecidableEq, Inhabited

/-! ## Strings -/

/-- A string that has been read in part. -/
structure TextSoFar where
  /-- The characters, the last one first. -/
  chars : List Char
  /-- The first half of a surrogate pair that waits for the second. -/
  half : Option Nat
  /-- Whether every surrogate so far belongs to a pair. -/
  paired : Bool
deriving DecidableEq, Inhabited

namespace TextSoFar

/-- Nothing read yet. -/
def empty : TextSoFar := ⟨[], none, true⟩

/-- Adds a character. -/
def push (t : TextSoFar) (c : Char) : TextSoFar :=
  ⟨c :: t.chars, none, t.paired && t.half.isNone⟩

/-- Adds a 16-bit unit that was escaped. -/
def pushUnit (t : TextSoFar) (unit : Nat) : TextSoFar :=
  if 0xd800 ≤ unit ∧ unit < 0xdc00 then
    ⟨t.chars, some unit, t.paired && t.half.isNone⟩
  else if 0xdc00 ≤ unit ∧ unit < 0xe000 then
    match t.half with
    | some high =>
      ⟨Char.ofNat (0x10000 + (high - 0xd800) * 0x400 + (unit - 0xdc00)) :: t.chars, none,
        t.paired⟩
    | none => ⟨t.chars, none, false⟩
  else t.push (Char.ofNat unit)

/-- The whole text, if every surrogate belongs to a pair. -/
def content (t : TextSoFar) : Option (List Char) :=
  if t.paired && t.half.isNone then some t.chars.reverse else none

end TextSoFar

/-- The character that a letter after a backslash stands for. -/
def escaped? : Char → Option Char
  | '"' => some '"'
  | '\\' => some '\\'
  | '/' => some '/'
  | 'b' => some '\x08'
  | 'f' => some '\x0c'
  | 'n' => some '\n'
  | 'r' => some '\r'
  | 't' => some '\t'
  | _ => none

/-! ## Numbers -/

/-- How far a number has been read. -/
inductive NumberPart where
  | sign
  | zero
  | whole
  | point
  | fraction
  | exponent
  | exponentSign
  | exponentDigits
deriving DecidableEq, Inhabited

namespace NumberPart

/-- The part of a number that a character leads to, if it continues the number. -/
def next? (part : NumberPart) (c : Char) : Option NumberPart :=
  match part with
  | sign => if c = '0' then some zero else if c.isDigit then some whole else none
  | zero => if c = '.' then some point else if c = 'e' ∨ c = 'E' then some exponent else none
  | whole =>
    if c.isDigit then some whole
    else if c = '.' then some point
    else if c = 'e' ∨ c = 'E' then some exponent
    else none
  | point => if c.isDigit then some fraction else none
  | fraction =>
    if c.isDigit then some fraction
    else if c = 'e' ∨ c = 'E' then some exponent
    else none
  | exponent =>
    if c = '+' ∨ c = '-' then some exponentSign
    else if c.isDigit then some exponentDigits
    else none
  | exponentSign => if c.isDigit then some exponentDigits else none
  | exponentDigits => if c.isDigit then some exponentDigits else none

/-- Whether a number may end here. -/
def final : NumberPart → Bool
  | zero | whole | fraction | exponentDigits => true
  | sign | point | exponent | exponentSign => false

end NumberPart

/-! ## The machine -/

/-- What the machine is in the middle of. -/
inductive Partial where
  /-- Nothing: the next character starts a token. -/
  | between
  /-- A literal: the characters still to come, and the token they complete. -/
  | literal (rest : List Char) (token : Token)
  /-- A number: its characters, the last one first. -/
  | number (part : NumberPart) (chars : List Char)
  | string (text : TextSoFar)
  /-- A string after a backslash. -/
  | escape (text : TextSoFar)
  /-- A string in an escaped unit: its value so far and the digits still to come. -/
  | unit (text : TextSoFar) (value missing : Nat)
deriving DecidableEq, Inhabited

/-- The state of the machine: the tokens read, the last one first, and what it is in the
middle of. -/
structure Lexer where
  tokens : List Token
  /-- What the machine is in the middle of. -/
  current : Partial
deriving DecidableEq, Inhabited

namespace Lexer

/-- Before the first character. -/
def start : Lexer := ⟨[], .between⟩

/-- Completes a token. -/
def emit (l : Lexer) (token : Token) : Lexer :=
  ⟨token :: l.tokens, .between⟩

/-- Whether a character separates tokens without being one. -/
def isBlank (c : Char) : Bool :=
  c = ' ' || c = '\t' || c = '\n' || c = '\r'

/-- Takes a character between tokens. -/
def begin (l : Lexer) (c : Char) : Option Lexer :=
  if isBlank c then some l
  else match c with
    | '\x7b' => some (l.emit .openObject)
    | '\x7d' => some (l.emit .closeObject)
    | '[' => some (l.emit .openArray)
    | ']' => some (l.emit .closeArray)
    | ':' => some (l.emit .colon)
    | ',' => some (l.emit .comma)
    | 'n' => some { l with current := .literal ['u', 'l', 'l'] .null }
    | 't' => some { l with current := .literal ['r', 'u', 'e'] (.bool true) }
    | 'f' => some { l with current := .literal ['a', 'l', 's', 'e'] (.bool false) }
    | '"' => some { l with current := .string .empty }
    | '-' => some { l with current := .number .sign [c] }
    | '0' => some { l with current := .number .zero [c] }
    | _ => if c.isDigit then some { l with current := .number .whole [c] } else none

/-- Takes one character. -/
def step (l : Lexer) (c : Char) : Option Lexer :=
  match l.current with
  | .between => l.begin c
  | .literal [] _ => none
  | .literal (expected :: rest) token =>
    if c ≠ expected then none
    else if rest = [] then some (l.emit token)
    else some { l with current := .literal rest token }
  | .number part chars =>
    match part.next? c with
    | some part => some { l with current := .number part (c :: chars) }
    -- The character that ends a number starts what follows.
    | none => if part.final then (l.emit (.number chars.reverse)).begin c else none
  | .string text =>
    if c = '"' then some (l.emit (.text text.content))
    else if c = '\\' then some { l with current := .escape text }
    -- Control characters must be escaped.
    else if c.toNat < 0x20 then none
    else some { l with current := .string (text.push c) }
  | .escape text =>
    if c = 'u' then some { l with current := .unit text 0 4 }
    else (escaped? c).map fun meant => { l with current := .string (text.push meant) }
  | .unit text value missing =>
    (Hex.value? c).map fun digit =>
      let value := 16 * value + digit
      if missing ≤ 1 then { l with current := .string (text.pushUnit value) }
      else { l with current := .unit text value (missing - 1) }

/-- The tokens of a text that ends here. -/
def finish (l : Lexer) : Option (List Token) :=
  match l.current with
  | .between => some l.tokens.reverse
  | .number part chars =>
    if part.final then some (Token.number chars.reverse :: l.tokens).reverse else none
  | _ => none

end Lexer

/-- The tokens of a text. -/
def tokens? (text : List Char) : Option (List Token) := do
  let l ← text.foldlM Lexer.step Lexer.start
  l.finish

/-! ## Spelling -/

/-- A character of a string, escaped if it has to be. -/
def spellChar (c : Char) : List Char :=
  if c = '"' then ['\\', '"']
  else if c = '\\' then ['\\', '\\']
  else if c = '\n' then ['\\', 'n']
  else if c = '\r' then ['\\', 'r']
  else if c = '\t' then ['\\', 't']
  else if c = '\x08' then ['\\', 'b']
  else if c = '\x0c' then ['\\', 'f']
  else if c.toNat < 0x20 then
    ['\\', 'u', '0', '0', Hex.digit (c.toNat / 16), Hex.digit (c.toNat % 16)]
  else [c]

/-- The shortest spelling of a token. A string without a text is spelled as half a surrogate
pair. -/
def Token.spell : Token → List Char
  | openObject => ['\x7b']
  | closeObject => ['\x7d']
  | openArray => ['[']
  | closeArray => [']']
  | colon => [':']
  | comma => [',']
  | null => ['n', 'u', 'l', 'l']
  | bool true => ['t', 'r', 'u', 'e']
  | bool false => ['f', 'a', 'l', 's', 'e']
  | number literal => literal
  | text (some chars) => '"' :: chars.flatMap spellChar ++ ['"']
  | text none => ['"', '\\', 'u', 'd', '8', '0', '0', '"']

end CrossChain.Json
