import CrossChain.Json.Token

/-!
# JSON values

A value is read from its tokens by a machine that keeps the arrays and objects that are still
open on a stack, so that values may be nested to any depth. A value is written without blanks,
the members of an object in the order in which they are given.
-/

namespace CrossChain

/-- A JSON value. -/
inductive Json where
  | null
  | bool (value : Bool)
  /-- A number as it is written. -/
  | number (literal : List Char)
  /-- A string: its text, if it has one. -/
  | text (content : Option (List Char))
  /-- A list of values. -/
  | array (items : List Json)
  /-- Values under names, which may be repeated. -/
  | object (members : List (Option (List Char) × Json))
deriving Inhabited

namespace Json

/-! ## Reading -/

/-- An array or object that is still open around a value. -/
inductive Frame where
  /-- An array: the items before, the last one first. -/
  | array (items : List Json)
  /-- An object: the members before, the last one first, and the name of the value. -/
  | object (members : List (Option (List Char) × Json)) (name : Option (List Char))

/-- What may come next. -/
inductive Reading where
  /-- A value. -/
  | awaitValue (stack : List Frame)
  /-- The first item of an array, or its end. -/
  | awaitFirstItem (stack : List Frame)
  /-- The first name of an object, or its end. -/
  | awaitFirstName (stack : List Frame)
  /-- A name after the given members. -/
  | awaitName (stack : List Frame) (members : List (Option (List Char) × Json))
  /-- The colon after a name. -/
  | awaitColon (stack : List Frame) (members : List (Option (List Char) × Json))
      (name : Option (List Char))
  /-- A comma after an item, or the end of the array. -/
  | afterItem (stack : List Frame) (items : List Json)
  /-- A comma after a member, or the end of the object. -/
  | afterMember (stack : List Frame) (members : List (Option (List Char) × Json))
  /-- Nothing more. -/
  | done (value : Json)

namespace Reading

/-- Gives a value that is complete to what is open around it. -/
def deliver (value : Json) : List Frame → Reading
  | [] => .done value
  | .array items :: stack => .afterItem stack (value :: items)
  | .object members name :: stack => .afterMember stack ((name, value) :: members)

/-- Takes the first token of a value. -/
def begin (stack : List Frame) : Token → Option Reading
  | .null => some (deliver .null stack)
  | .bool value => some (deliver (.bool value) stack)
  | .number literal => some (deliver (.number literal) stack)
  | .text content => some (deliver (.text content) stack)
  | .openArray => some (.awaitFirstItem stack)
  | .openObject => some (.awaitFirstName stack)
  | _ => none

/-- Takes one token. -/
def step : Reading → Token → Option Reading
  | .awaitValue stack, token => begin stack token
  | .awaitFirstItem stack, .closeArray => some (deliver (.array []) stack)
  | .awaitFirstItem stack, token => begin (.array [] :: stack) token
  | .awaitFirstName stack, .closeObject => some (deliver (.object []) stack)
  | .awaitFirstName stack, .text content => some (.awaitColon stack [] content)
  | .awaitName stack members, .text content => some (.awaitColon stack members content)
  | .awaitColon stack members name, .colon => some (.awaitValue (.object members name :: stack))
  | .afterItem stack items, .comma => some (.awaitValue (.array items :: stack))
  | .afterItem stack items, .closeArray => some (deliver (.array items.reverse) stack)
  | .afterMember stack members, .comma => some (.awaitName stack members)
  | .afterMember stack members, .closeObject => some (deliver (.object members.reverse) stack)
  | _, _ => none

/-- The value, if the tokens may end here. -/
def finish : Reading → Option Json
  | .done value => some value
  | _ => none

end Reading

/-- The value that a list of tokens forms. -/
def ofTokens? (tokens : List Token) : Option Json := do
  let reading ← tokens.foldlM Reading.step (.awaitValue [])
  reading.finish

/-- The value that a text stands for. -/
def parse? (text : List Char) : Option Json := do
  let tokens ← tokens? text
  ofTokens? tokens

/-! ## Writing -/

mutual

/-- The tokens of a value. -/
def toTokens : Json → List Token
  | .null => [.null]
  | .bool value => [.bool value]
  | .number literal => [.number literal]
  | .text content => [.text content]
  | .array items => .openArray :: itemTokens items ++ [.closeArray]
  | .object members => .openObject :: memberTokens members ++ [.closeObject]

/-- The tokens of the items of an array. -/
def itemTokens : List Json → List Token
  | [] => []
  | [item] => toTokens item
  | item :: rest => toTokens item ++ .comma :: itemTokens rest

/-- The tokens of the members of an object. -/
def memberTokens : List (Option (List Char) × Json) → List Token
  | [] => []
  | [(name, value)] => .text name :: .colon :: toTokens value
  | (name, value) :: rest =>
    .text name :: .colon :: toTokens value ++ .comma :: memberTokens rest

end

/-- The text of a value. -/
def render (value : Json) : List Char :=
  value.toTokens.flatMap Token.spell

/-! ## Parts of values -/

/-- A string with the given text. -/
def ofString (s : String) : Json := .text (some s.toList)

/-- A natural number. -/
def ofNat (n : Nat) : Json := .number (Nat.toDigits 10 n)

/-- An integer. -/
def ofInt : Int → Json
  | .ofNat n => ofNat n
  | .negSucc n => .number ('-' :: Nat.toDigits 10 (n + 1))

/-- An object with the given members. -/
def ofMembers (members : List (String × Json)) : Json :=
  .object (members.map fun m => (some m.1.toList, m.2))

/-- The number that a string of digits stands for. -/
def natOfDigits (digits : List Char) : Nat :=
  digits.foldl (fun n c => 10 * n + (c.toNat - '0'.toNat)) 0

/-- The integer that a number is written as: without fraction and exponent, and with a sign
only if it is negative. -/
def toInt? : Json → Option Int
  | .number ('-' :: digits) =>
    if digits.all Char.isDigit ∧ natOfDigits digits ≠ 0 then
      some (-(natOfDigits digits : Int))
    else none
  | .number digits => if digits.all Char.isDigit then some (natOfDigits digits) else none
  | _ => none

/-- The items of a list, each read in the same way. -/
def listOf? {α : Type} (read : Json → Option α) : Json → Option (List α)
  | .array items => items.mapM read
  | _ => none

/-- The text of a string. -/
def text? : Json → Option (List Char)
  | .text content => content
  | _ => none

/-- A truth value. -/
def bool? : Json → Option Bool
  | .bool value => some value
  | _ => none

/-- The value under a name: `some none` if there is no such member, and `none` if there are
several. -/
def unique? (members : List (Option (List Char) × Json)) (name : String) :
    Option (Option Json) :=
  match members.filter fun m => m.1 = some name.toList with
  | [] => some none
  | [m] => some (some m.2)
  | _ => none

/-- The fields of a record, each of which may be missing. An object gives them by name, in
any order and among other members, whose names must still have a text; an array gives them
in order and may leave out the last ones. -/
def fields? (names : List String) : Json → Option (List (Option Json))
  | .object members =>
    if members.all fun m => m.1.isSome then names.mapM (unique? members) else none
  | .array items =>
    if items.length ≤ names.length then
      some (items.map some ++ List.replicate (names.length - items.length) none)
    else none
  | _ => none

/-- The name of a case: a string, or an object with that name alone and the value `null`. -/
def case? : Json → Option String
  | .text content => content.map String.ofList
  | .object [(name, .null)] => name.map String.ofList
  | _ => none

end Json

end CrossChain
