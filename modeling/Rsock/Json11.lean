import Mathlib.Data.Char
import Mathlib.Data.List.Lex
import Rsock.RConfig
import Rsock.Lib.StdMap

/-!
# json11

The JSON library that `RConfig` is written and read with (thirdparty/json11.cpp): `dump` writes a value,
`parse` reads one. A `std::string` is the list of its bytes, with a character for each. `JsonParser` keeps a
position in the text and the first error; here its functions take the text from that position on and
give back what is left of it, or the error.

`double`s are the C library's: their text, their comparison and their conversion to `int` are given.
-/

namespace Rsock

namespace Json11

/-- A `std::string`. -/
abbrev Text := List Char

/-- The `double`s, and what json11 does with them. -/
class Doubles (D : Type) where
  isfinite : D → Bool
  /-- `snprintf` of `%.17g` -/
  print : D → Text
  /-- `strtod` of a text that is a number to its end. -/
  strtod : Text → D
  /-- The conversion of an `int` to `double`. -/
  ofInt : Int32 → D
  /-- `static_cast<int>` -/
  toInt : D → Int32
  /-- `==` -/
  eq : D → D → Bool

/-- `Json`; the members of an object are the entries of a `std::map`, in the order of their names. -/
inductive Value (D : Type) where
  | null
  | int (value : Int32)
  | double (value : D)
  | bool (value : Bool)
  | string (value : Text)
  | array (values : List (Value D))
  | object (values : List (Text × Value D))

variable {D : Type} [Doubles D]

/-! ## Serialization -/

/-- `%d` -/
def dumpInt : Int → Text
  | .ofNat n => Nat.toDigits 10 n
  | .negSucc n => '-' :: Nat.toDigits 10 (n + 1)

/-- `%.17g` of a `double`, or null for one that is not finite. -/
def dumpDouble (value : D) : Text :=
  if Doubles.isfinite value then Doubles.print value else "null".toList

/-- `%04x` -/
def hex4 (n : Nat) : Text :=
  let digits := Nat.toDigits 16 n
  List.replicate (4 - digits.length) '0' ++ digits

/-- The loop of `dump` over the bytes of a string. -/
def dumpChars : Text → Text
  | [] => []
  | ch :: rest =>
    if ch = '\x5c' then "\\\\".toList ++ dumpChars rest
    else if ch = '\x22' then "\\\"".toList ++ dumpChars rest
    else if ch = '\x08' then "\\b".toList ++ dumpChars rest
    else if ch = '\x0c' then "\\f".toList ++ dumpChars rest
    else if ch = '\n' then "\\n".toList ++ dumpChars rest
    else if ch = '\r' then "\\r".toList ++ dumpChars rest
    else if ch = '\t' then "\\t".toList ++ dumpChars rest
    else if ch.toNat ≤ 0x1f then "\\u".toList ++ hex4 ch.toNat ++ dumpChars rest
    else
      match rest with
      | ch₁ :: ch₂ :: rest' =>
        if ch.toNat = 0xe2 ∧ ch₁.toNat = 0x80 ∧ ch₂.toNat = 0xa8 then "\\u2028".toList ++ dumpChars rest'
        else if ch.toNat = 0xe2 ∧ ch₁.toNat = 0x80 ∧ ch₂.toNat = 0xa9 then
          "\\u2029".toList ++ dumpChars rest'
        else ch :: dumpChars (ch₁ :: ch₂ :: rest')
      -- past the end of the string is a 0
      | rest => ch :: dumpChars rest

def dumpString (value : Text) : Text := '\x22' :: dumpChars value ++ ['\x22']

/-- What stands before a value of an array or an object. -/
def separator (first : Bool) : Text := if first then [] else ", ".toList

mutual

/-- `dump` of the value. -/
def dump : Value D → Text
  | .null => "null".toList
  | .int value => dumpInt value.toInt
  | .double value => dumpDouble value
  | .bool value => if value then "true".toList else "false".toList
  | .string value => dumpString value
  | .array values => '[' :: dumpItems true values ++ [']']
  | .object values => '\x7b' :: dumpMembers true values ++ ['\x7d']

/-- The loop over the values of an array. -/
def dumpItems (first : Bool) : List (Value D) → Text
  | [] => []
  | value :: values => separator first ++ dump value ++ dumpItems false values

/-- The loop over the members of an object. -/
def dumpMembers (first : Bool) : List (Text × Value D) → Text
  | [] => []
  | (name, value) :: values =>
    separator first ++ dumpString name ++ ": ".toList ++ dump value ++ dumpMembers false values

end

/-! ## Comparison -/

def numberValue : Value D → D
  | .int value => Doubles.ofInt value
  | .double value => value
  | _ => Doubles.ofInt 0

mutual

/-- `operator==`, but for its first look at the two pointers. -/
def eq : Value D → Value D → Bool
  | .null, .null => true
  | .int value, other@(.int _) => Doubles.eq (Doubles.ofInt value : D) (numberValue other)
  | .int value, other@(.double _) => Doubles.eq (Doubles.ofInt value : D) (numberValue other)
  | .double value, other@(.int _) => Doubles.eq value (numberValue other)
  | .double value, other@(.double _) => Doubles.eq value (numberValue other)
  | .bool value, .bool other => value == other
  | .string value, .string other => value == other
  | .array values, .array others => eqItems values others
  | .object values, .object others => eqMembers values others
  | _, _ => false

/-- `==` of two vectors. -/
def eqItems : List (Value D) → List (Value D) → Bool
  | [], [] => true
  | value :: values, other :: others => eq value other && eqItems values others
  | _, _ => false

/-- `==` of two maps. -/
def eqMembers : List (Text × Value D) → List (Text × Value D) → Bool
  | [], [] => true
  | (name, value) :: values, (name', other) :: others =>
    (name == name' && eq value other) && eqMembers values others
  | _, _ => false

end

/-! ## Parsing -/

def max_depth : Nat := 200

/-- The `int` that a `char` is, for `%d`. -/
def charInt (c : Char) : Int := if c.toNat < 0x80 then c.toNat else c.toNat - 0x100

/-- Format `c` for an error message. -/
def esc (c : Char) : Text :=
  if 0x20 ≤ c.toNat ∧ c.toNat ≤ 0x7f then '\'' :: c :: "' (".toList ++ dumpInt (charInt c) ++ [')']
  else '(' :: dumpInt (charInt c) ++ [')']

/-- The strategies of the parser. -/
inductive JsonParse where
  | standard | comments
  deriving DecidableEq

/-- `JsonParser::fail`. Only the first error counts. -/
def fail {α : Type} (msg : Text) : Except Text α := .error msg

/-- `str[i]`; there is a 0 past the end. -/
def cur (str : Text) : Char := str.headD '\x00'

/-- `JsonParser::consume_whitespace` -/
def consumeWhitespace (str : Text) : Text :=
  str.dropWhile fun ch => ch == ' ' || ch == '\r' || ch == '\n' || ch == '\t'

/-- The loop over a multi-line comment. -/
def skipComment : Text → Except Text Text
  | '*' :: '/' :: rest => .ok rest
  | _ :: ch :: rest => skipComment (ch :: rest)
  | _ => fail "unexpected end of input inside multi-line comment".toList

/-- Whether there was a comment. -/
def consumeComment (str : Text) : Except Text (Bool × Text) :=
  match str with
  | '/' :: rest =>
    match rest with
    | [] => fail "unexpected end of input after start of comment".toList
    | '/' :: rest => .ok (true, rest.dropWhile (· ≠ '\n'))
    | '*' :: rest => do return (true, ← skipComment rest)
    | _ => fail "malformed comment".toList
  | _ => .ok (false, str)

/-- The loop of `consume_garbage`. A round that finds a comment takes two characters at least, which the
    fuel counts. -/
def consumeComments : (fuel : Nat) → Text → Except Text Text
  | 0, str => .ok str
  | fuel + 1, str => do
    let (comment_found, str) ← consumeComment str
    let str := consumeWhitespace str
    if comment_found then consumeComments fuel str else return str

variable (strategy : JsonParse)

/-- `JsonParser::consume_garbage`: blanks and, if they are allowed, comments. -/
def consumeGarbage (str : Text) : Except Text Text :=
  let str := consumeWhitespace str
  match strategy with
  | .standard => .ok str
  | .comments => consumeComments (str.length + 1) str

/-- `JsonParser::get_next_token` -/
def getNextToken (str : Text) : Except Text (Char × Text) := do
  match ← consumeGarbage strategy str with
  | [] => fail "unexpected end of input".toList
  | ch :: rest => return (ch, rest)

/-- `static_cast<char>` -/
def toChar (n : Nat) : Char := Char.ofNat (n % 256)

/-- What `encode_utf8` adds to the string. -/
def encodeUtf8 (pt : Int) : Text :=
  if pt < 0 then []
  else
    let pt := pt.toNat
    if pt < 0x80 then [toChar pt]
    else if pt < 0x800 then [toChar (pt >>> 6 ||| 0xC0), toChar (pt &&& 0x3F ||| 0x80)]
    else if pt < 0x10000 then
      [toChar (pt >>> 12 ||| 0xE0), toChar (pt >>> 6 &&& 0x3F ||| 0x80), toChar (pt &&& 0x3F ||| 0x80)]
    else
      [toChar (pt >>> 18 ||| 0xF0), toChar (pt >>> 12 &&& 0x3F ||| 0x80),
        toChar (pt >>> 6 &&& 0x3F ||| 0x80), toChar (pt &&& 0x3F ||| 0x80)]

/-- The value of a hexadecimal digit; `none` is the result `false` of the range checks. -/
def hexDigit (c : Char) : Option Nat :=
  if 'a' ≤ c ∧ c ≤ 'f' then some (c.toNat - 'a'.toNat + 10)
  else if 'A' ≤ c ∧ c ≤ 'F' then some (c.toNat - 'A'.toNat + 10)
  else if '0' ≤ c ∧ c ≤ '9' then some (c.toNat - '0'.toNat)
  else none

/-- `strtol` of four hexadecimal digits. -/
def codepointOf (c₁ c₂ c₃ c₄ : Char) : Option Int := do
  let a ← hexDigit c₁
  let b ← hexDigit c₂
  let c ← hexDigit c₃
  let d ← hexDigit c₄
  return (((a * 16 + b) * 16 + c) * 16 + d : Nat)

/-- The character of an escape with one letter. -/
def unescape (ch : Char) : Option Char :=
  if ch = 'b' then some '\x08'
  else if ch = 'f' then some '\x0c'
  else if ch = 'n' then some '\n'
  else if ch = 'r' then some '\r'
  else if ch = 't' then some '\t'
  else if ch = '\x22' ∨ ch = '\x5c' ∨ ch = '/' then some ch
  else none

/-- A code point that was escaped: what it adds to the string, together with the one before it, and the
    code point that has yet to be added. -/
def addCodepoint (last_escaped_codepoint codepoint : Int) : Text × Int :=
  if (0xD800 ≤ last_escaped_codepoint ∧ last_escaped_codepoint ≤ 0xDBFF) ∧
      (0xDC00 ≤ codepoint ∧ codepoint ≤ 0xDFFF) then
    let high := (last_escaped_codepoint - 0xD800).toNat
    let low := (codepoint - 0xDC00).toNat
    (encodeUtf8 ((high <<< 10 ||| low) + 0x10000 : Nat), -1)
  else (encodeUtf8 last_escaped_codepoint, codepoint)

/-- The loop of `parse_string`. -/
def parseChars (last_escaped_codepoint : Int) (out : Text) : Text → Except Text (Text × Text)
  | [] => fail "unexpected end of input in string".toList
  | ch :: str =>
    if ch = '\x22' then .ok (out ++ encodeUtf8 last_escaped_codepoint, str)
    else if ch.toNat ≤ 0x1f then fail ("unescaped ".toList ++ esc ch ++ " in string".toList)
    else if ch ≠ '\x5c' then parseChars (-1) (out ++ encodeUtf8 last_escaped_codepoint ++ [ch]) str
    else
      match str with
      | [] => fail "unexpected end of input in string".toList
      | ch :: str =>
        if ch = 'u' then
          match str with
          | c₁ :: c₂ :: c₃ :: c₄ :: rest =>
            match codepointOf c₁ c₂ c₃ c₄ with
            | none => fail ("bad \\u escape: ".toList ++ [c₁, c₂, c₃, c₄])
            | some codepoint =>
              let (added, last) := addCodepoint last_escaped_codepoint codepoint
              parseChars last (out ++ added) rest
          | str => fail ("bad \\u escape: ".toList ++ str)
        else
          match unescape ch with
          | none => fail ("invalid escape character ".toList ++ esc ch)
          | some c => parseChars (-1) (out ++ encodeUtf8 last_escaped_codepoint ++ [c]) str

/-- `JsonParser::parse_string`, past the first quote. -/
def parseString (str : Text) : Except Text (Text × Text) := parseChars (-1) [] str

/-- The number that digits are, with or without a minus. -/
def intOf : Text → Int
  | '-' :: digits => -(Nat.ofDigitChars 10 digits 0 : Nat)
  | digits => (Nat.ofDigitChars 10 digits 0 : Nat)

/-- `std::atoi` -/
def atoi (str : Text) : Int32 := Int32.ofInt (intOf str)

/-- The character at the front, if it is a sign. -/
def signPart (isSign : Char → Bool) (str : Text) : Text := if isSign (cur str) then str.take 1 else []

/-- The digits of the integer part. -/
def integerPart (str : Text) : Except Text (Text × Text) :=
  if cur str = '0' then
    if (cur str.tail).isDigit then fail "leading 0s not permitted in numbers".toList
    else .ok (['0'], str.tail)
  else if (cur str).isDigit then .ok (str.takeWhile Char.isDigit, str.dropWhile Char.isDigit)
  else fail ("invalid ".toList ++ esc (cur str) ++ " in number".toList)

/-- The point and the digits after it. -/
def decimalPart (str : Text) : Except Text (Text × Text) :=
  if cur str = '.' then
    if (cur str.tail).isDigit then
      .ok ('.' :: str.tail.takeWhile Char.isDigit, str.tail.dropWhile Char.isDigit)
    else fail "at least one digit required in fractional part".toList
  else .ok ([], str)

/-- The exponent, with its sign. -/
def exponentPart (str : Text) : Except Text (Text × Text) :=
  if cur str = 'e' ∨ cur str = 'E' then
    let sign := signPart (fun ch => ch == '+' || ch == '-') str.tail
    let rest := str.tail.drop sign.length
    if (cur rest).isDigit then
      .ok (cur str :: sign ++ rest.takeWhile Char.isDigit, rest.dropWhile Char.isDigit)
    else fail "at least one digit required in exponent".toList
  else .ok ([], str)

/-- `std::numeric_limits<int>::digits10` -/
def digits10 : Nat := 9

/-- `JsonParser::parse_number` -/
def parseNumber (str : Text) : Except Text (Value D × Text) := do
  let sign := signPart (· == '-') str
  let (digits, str) ← integerPart (str.drop sign.length)
  if (cur str ≠ '.' ∧ cur str ≠ 'e' ∧ cur str ≠ 'E') ∧ (sign ++ digits).length ≤ digits10 then
    return (.int (atoi (sign ++ digits)), str)
  else
    let (decimals, str) ← decimalPart str
    let (exponent, str) ← exponentPart str
    return (.double (Doubles.strtod (sign ++ digits ++ decimals ++ exponent)), str)

/-- `str` starts at the character that was just read. -/
def expect (expected : Text) (res : Value D) (str : Text) : Except Text (Value D × Text) :=
  if str.take expected.length = expected then .ok (res, str.drop expected.length)
  else fail ("parse error: expected ".toList ++ expected ++ ", got ".toList ++ str.take expected.length)

instance : IsStrictWeakOrder Text (· < ·) :=
  StdMap.isStrictWeakOrder_of_rank (f := id) fun _ _ => Iff.rfl

/-- `map<string, Json>` -/
abbrev Members (D : Type) := StdMap Text (Value D) (· < ·)

section Loops

-- `parse_json(depth + 1)`
variable (value : Text → Except Text (Value D × Text))

/-- The loop over the members of an object, with the token `ch` that was read last. Every round takes a
    character at least, which the fuel counts. -/
def parseMembers : (fuel : Nat) → (data : Members D) → (ch : Char) → Text → Except Text (Value D × Text)
  | 0, _, _, _ => fail "unexpected end of input".toList
  | fuel + 1, data, ch, str =>
    if ch ≠ '\x22' then fail ("expected '\"' in object, got ".toList ++ esc ch)
    else do
      let (key, str) ← parseString str
      let (ch, str) ← getNextToken strategy str
      if ch ≠ ':' then fail ("expected ':' in object, got ".toList ++ esc ch)
      else
        let (v, str) ← value str
        let data := data.assign key v
        let (ch, str) ← getNextToken strategy str
        if ch = '\x7d' then return (.object data.entries, str)
        else if ch ≠ ',' then fail ("expected ',' in object, got ".toList ++ esc ch)
        else
          let (ch, str) ← getNextToken strategy str
          parseMembers fuel data ch str

/-- The loop over the values of an array, from the token that was read last. -/
def parseItems : (fuel : Nat) → (data : List (Value D)) → Text → Except Text (Value D × Text)
  | 0, _, _ => fail "unexpected end of input".toList
  | fuel + 1, data, str => do
    let (v, str) ← value str
    let data := data ++ [v]
    let (ch, str) ← getNextToken strategy str
    if ch = ']' then return (.array data, str)
    else if ch ≠ ',' then fail ("expected ',' in list, got ".toList ++ esc ch)
    else
      let (ch, str) ← getNextToken strategy str
      parseItems fuel data (ch :: str)

end Loops

/-- `parse_json(depth)`, with `levels` for the levels of nesting that are left:
    `max_depth + 1 - depth`. -/
def parseJson : (levels : Nat) → Text → Except Text (Value D × Text)
  | 0, _ => fail "exceeded maximum nesting depth".toList
  | levels + 1, str => do
    let (ch, str) ← getNextToken strategy str
    if ch = '-' ∨ ch.isDigit then parseNumber (ch :: str)
    else if ch = 't' then expect "true".toList (.bool true) (ch :: str)
    else if ch = 'f' then expect "false".toList (.bool false) (ch :: str)
    else if ch = 'n' then expect "null".toList .null (ch :: str)
    else if ch = '\x22' then
      let (s, str) ← parseString str
      return (.string s, str)
    else if ch = '\x7b' then
      let (ch, str) ← getNextToken strategy str
      if ch = '\x7d' then return (.object [], str)
      else parseMembers strategy (parseJson levels) (str.length + 1) .empty ch str
    else if ch = '[' then
      let (ch, str) ← getNextToken strategy str
      if ch = ']' then return (.array [], str)
      else parseItems strategy (parseJson levels) (str.length + 1) [] (ch :: str)
    else fail ("expected value, got ".toList ++ esc ch)

/-- `Json::parse`: the value, and the error message. -/
def parse (str : Text) : Value D × Text :=
  match parseJson strategy (max_depth + 1) str with
  | .error err => (.null, err)
  | .ok (result, str) =>
    match consumeGarbage strategy str with
    | .error err => (.null, err)
    | .ok [] => (result, [])
    | .ok (ch :: _) => (.null, "unexpected trailing ".toList ++ esc ch)

/-! ## As the configuration uses it -/

mutual

/-- The value that `RConfig` builds. -/
def ofJson : Json → Value D
  | .null => .null
  | .number n => .int (Int32.ofInt n)
  | .bool b => .bool b
  | .string s => .string s.toList
  | .array items => .array (ofItems items)
  | .object members => .object (ofMembers members)

def ofItems : List Json → List (Value D)
  | [] => []
  | item :: items => ofJson item :: ofItems items

def ofMembers : List (String × Json) → List (Text × Value D)
  | [] => []
  | (name, value) :: members => (name.toList, ofJson value) :: ofMembers members

end

mutual

/-- What `RConfig` sees of a value, with `int_value` for a number. -/
def toJson : Value D → Json
  | .null => .null
  | .int value => .number value.toInt
  | .double value => .number (Doubles.toInt value).toInt
  | .bool value => .bool value
  | .string value => .string (String.ofList value)
  | .array values => .array (toItems values)
  | .object values => .object (toMembers values)

def toItems : List (Value D) → List Json
  | [] => []
  | value :: values => toJson value :: toItems values

def toMembers : List (Text × Value D) → List (String × Json)
  | [] => []
  | (name, value) :: values => (String.ofList name, toJson value) :: toMembers values

end

/-- The environment in which json11 is linked. -/
def confEnv (D : Type) [Doubles D] (devWithIpv4 : String → Option String) : ConfEnv where
  devWithIpv4 := devWithIpv4
  dump j := String.ofList (dump (ofJson j : Value D))
  parse s :=
    let (v, err) := (parse .standard s.toList : Value D × Text)
    (toJson v, String.ofList err)

end Json11

end Rsock
