import EntityForge.Json.Basic

/-!
The tokens of a JSON text. One pass over the characters keeps what has been read of the current
token; a string is checked while it is read, a number and a literal when they end.
-/

namespace EntityForge.Json

/-- A token. -/
inductive Token where
  | openArray | closeArray | openObject | closeObject | comma | colon
  | string (text : String)
  /-- A number or a literal. -/
  | scalar (value : Json)
deriving Repr

/-- What has been read of the current token; characters are kept last first. -/
inductive Reading where
  /-- Between two tokens. -/
  | outside
  | inString (read : List Char)
  /-- After a backslash. -/
  | escape (read : List Char)
  /-- Inside the digits of a code unit; `high` is a high surrogate that waits for its partner. -/
  | codeUnit (read : List Char) (high : Option Nat) (digits value : Nat)
  /-- After a high surrogate, where only another code unit may follow. -/
  | pairBackslash (read : List Char) (high : Nat)
  | pairLetter (read : List Char) (high : Nat)
  | inNumber (read : List Char)
  | inWord (read : List Char)
deriving Repr

/-- The digits of a number, absorbed into a significand below `2 ^ 64`, and how many digits did not
fit any more. -/
def absorb (significand : Nat) : List Char → Nat × Nat
  | [] => (significand, 0)
  | d :: rest =>
    let next := significand * 10 + (d.toNat - '0'.toNat)
    if next < 0x10000000000000000 then absorb next rest else (significand, rest.length + 1)

/-- The number `significand * 10 ^ exponent` has a double precision value. -/
def fitsDouble (significand : Nat) (exponent : Int) : Bool :=
  significand == 0 || exponent < 0 ||
    (exponent ≤ 308 &&
      !(Float.ofNat significand * Float.ofScientific 1 false exponent.toNat).isInf)

/-- The exponent part of a number: its value, or nothing if it is malformed. -/
def readExponent : List Char → Option Int
  | [] => some 0
  | e :: rest =>
    let (negative, digits) := match rest with
      | '+' :: digits => (false, digits)
      | '-' :: digits => (true, digits)
      | digits => (false, digits)
    if (e = 'e' ∨ e = 'E') ∧ digits ≠ [] ∧ digits.all Char.isDigit then
      let size := digits.foldl (fun n d => n * 10 + (d.toNat - '0'.toNat)) 0
      some (if negative then -(size : Int) else size)
    else none

/-- The number that a text writes. -/
def readNumber (text : List Char) : Option Json := do
  let (negative, text) := match text with
    | '-' :: rest => (true, rest)
    | rest => (false, rest)
  let whole := text.takeWhile Char.isDigit
  let rest := text.dropWhile Char.isDigit
  guard (whole ≠ [] ∧ (whole.head? = some '0' → whole.length = 1))
  let (significand, dropped) := absorb 0 whole
  let (fraction, rest) := match rest with
    | '.' :: rest => (some (rest.takeWhile Char.isDigit), rest.dropWhile Char.isDigit)
    | rest => (none, rest)
  guard (fraction ≠ some [])
  let exponent ← readExponent rest
  let (significand, unread) := absorb significand (fraction.getD [])
  let shift : Int := dropped - ((fraction.getD []).length - unread : Nat)
  guard (fitsDouble significand (shift + exponent))
  if fraction.isNone ∧ rest = [] ∧ !(negative ∧ significand = 0) then
    let size := whole.foldl (fun n d => n * 10 + (d.toNat - '0'.toNat)) 0
    return integer (if negative then -(size : Int) else size)
  else return decimal

/-- The literal that a word writes. -/
def readWord (word : List Char) : Option Json :=
  if word = "null".toList then some null
  else if word = "true".toList then some (bool true)
  else if word = "false".toList then some (bool false)
  else none

/-- A character that numbers are made of. -/
def isNumberChar (c : Char) : Bool :=
  c.isDigit || c == '-' || c == '+' || c == '.' || c == 'e' || c == 'E'

/-- The value of a hexadecimal digit. -/
def hexDigit? (c : Char) : Option Nat :=
  if c.isDigit then some (c.toNat - '0'.toNat)
  else if 'a' ≤ c ∧ c ≤ 'f' then some (c.toNat - 'a'.toNat + 10)
  else if 'A' ≤ c ∧ c ≤ 'F' then some (c.toNat - 'A'.toNat + 10)
  else none

/-- A character outside every token: blank, or the start of a token. -/
def start (c : Char) : Option (Reading × List Token) :=
  match c with
  | ' ' | '\n' | '\t' | '\r' => some (.outside, [])
  | '[' => some (.outside, [.openArray])
  | ']' => some (.outside, [.closeArray])
  | '{' => some (.outside, [.openObject])
  | '}' => some (.outside, [.closeObject])
  | ',' => some (.outside, [.comma])
  | ':' => some (.outside, [.colon])
  | '"' => some (.inString [], [])
  | c =>
    if c.isDigit || c == '-' then some (.inNumber [c], [])
    else if c.isAlpha then some (.inWord [c], [])
    else none

/-- The end of a four digit code unit: surrogates come in pairs, high before low. -/
def endCodeUnit (read : List Char) (high : Option Nat) (value : Nat) : Option Reading :=
  let isLow := 0xDC00 ≤ value ∧ value < 0xE000
  match high with
  | some h =>
    if isLow then
      some (.inString (Char.ofNat (0x10000 + (h - 0xD800) * 0x400 + (value - 0xDC00)) :: read))
    else none
  | none =>
    if isLow then none
    else if 0xD800 ≤ value ∧ value < 0xDC00 then some (.pairBackslash read value)
    else some (.inString (Char.ofNat value :: read))

/-- The character that a one letter escape writes. -/
def escapedChar? (c : Char) : Option Char :=
  match c with
  | '"' => some '"'
  | '\\' => some '\\'
  | '/' => some '/'
  | 'b' => some '\x08'
  | 'f' => some '\x0c'
  | 'n' => some '\n'
  | 'r' => some '\r'
  | 't' => some '\t'
  | _ => none

/-- Reads one character: what is being read afterwards, and the tokens that have ended. -/
def step (reading : Reading) (c : Char) : Option (Reading × List Token) :=
  match reading with
  | .outside => start c
  | .inString read =>
    if c = '"' then some (.outside, [.string (String.ofList read.reverse)])
    else if c = '\\' then some (.escape read, [])
    else if c.toNat < 0x20 then none
    else some (.inString (c :: read), [])
  | .escape read =>
    if c = 'u' then some (.codeUnit read none 0 0, [])
    else (escapedChar? c).map fun e => (.inString (e :: read), [])
  | .codeUnit read high digits value => do
    let value := value * 16 + (← hexDigit? c)
    if digits = 3 then return (← endCodeUnit read high value, [])
    else return (.codeUnit read high (digits + 1) value, [])
  | .pairBackslash read high => if c = '\\' then some (.pairLetter read high, []) else none
  | .pairLetter read high => if c = 'u' then some (.codeUnit read (some high) 0 0, []) else none
  | .inNumber read =>
    if isNumberChar c then some (.inNumber (c :: read), [])
    else do
      let value ← readNumber read.reverse
      let (next, tokens) ← start c
      return (next, .scalar value :: tokens)
  | .inWord read =>
    if c.isAlpha then some (.inWord (c :: read), [])
    else do
      let value ← readWord read.reverse
      let (next, tokens) ← start c
      return (next, .scalar value :: tokens)

/-- The tokens of a text, or nothing if some token is malformed. -/
def tokens (text : List Char) : Option (List Token) := do
  -- A final blank ends the last number or literal; a string that it would extend has no end.
  let (reading, found) ← (text ++ [' ']).foldlM (fun (reading, found) c => do
    let (reading, ended) ← step reading c
    return (reading, ended.reverse ++ found)) (Reading.outside, ([] : List Token))
  match reading with
  | .outside => return found.reverse
  | _ => none

end EntityForge.Json
