import Mathlib.Data.Int.Log
import Mathlib.Data.Rat.Floor
import StxShield.Library.Bytes

/-!
# JavaScript values

The values that JSON and loosely typed records hold, and the conversions of the
language that programs apply to them without looking: `Number(x)`, `x ?? y`,
truthiness, and Node's reading of a hexadecimal string.  A function that may throw
returns an `Except`.
-/

namespace StxShield.Library.JavaScript

/-! ## Numbers -/

/-- A number of the language; the two zeros are not told apart. -/
inductive Number where
  | nan
  | infinity (negative : Bool)
  | finite (value : ℚ)
  deriving DecidableEq

namespace Number

def isFinite : Number → Bool
  | .finite _ => true
  | _ => false

/-- `number > 0`. -/
def isPositive : Number → Bool
  | .nan => false
  | .infinity negative => !negative
  | .finite value => 0 < value

def ofNat (n : Nat) : Number := .finite n

/-- Whether the difference of two numbers is above zero. -/
def exceeds : Number → Number → Bool
  | .finite x, .finite y => y < x
  | .finite _, .infinity negative => negative
  | .infinity negative, .finite _ => !negative
  | .infinity negative, .infinity negative' => !negative && negative'
  | _, _ => false

/-- The nearest integer, to the even one between two. -/
def roundHalfEven (value : ℚ) : Int :=
  let below := ⌊value⌋
  if value - below < 1 / 2 then below
  else if 1 / 2 < value - below then below + 1
  else if below % 2 = 0 then below else below + 1

/-- The nearest number with 53 significant bits and an exponent of 11. -/
def round (value : ℚ) : Number :=
  let exponent := max (Int.log 2 |value| - 52) (-1074)
  let rounded : ℚ := roundHalfEven (value / 2 ^ exponent) * 2 ^ exponent
  if 2 ^ 1024 ≤ |rounded| then .infinity (value < 0) else .finite rounded

end Number

/-! ### Numerals -/

def isWhitespace (c : Char) : Bool :=
  c.toNat ∈ [9, 10, 11, 12, 13, 32, 0xa0, 0x1680, 0x2028, 0x2029, 0x202f, 0x205f, 0x3000, 0xfeff] ||
    (0x2000 ≤ c.toNat && c.toNat ≤ 0x200a)

def trim (text : List Char) : List Char :=
  ((text.dropWhile isWhitespace).reverse.dropWhile isWhitespace).reverse

def digitValue (c : Char) : Nat :=
  if '0' ≤ c ∧ c ≤ '9' then c.toNat - '0'.toNat
  else if 'a' ≤ c ∧ c ≤ 'z' then c.toNat - 'a'.toNat + 10
  else if 'A' ≤ c ∧ c ≤ 'Z' then c.toNat - 'A'.toNat + 10
  else 36

/-- A numeral of digits below the radix, at least one of them. -/
def digitsValue (radix : Nat) (digits : List Char) : Option Nat :=
  if digits ≠ [] ∧ digits.all (digitValue · < radix) then
    some (digits.foldl (fun value c => value * radix + digitValue c) 0)
  else none

/-- A sign and what follows it. -/
def signed : List Char → Int × List Char
  | '-' :: rest => (-1, rest)
  | '+' :: rest => (1, rest)
  | text => (1, text)

/-- The exponent part of a numeral, if it has one. -/
def exponentPart : List Char → Option Int
  | [] => some 0
  | _ :: text =>
      let (sign, digits) := signed text
      (digitsValue 10 digits).map fun value => sign * value

def decimal (text : List Char) : Option ℚ := do
  let (mantissa, exponentText) := text.span fun c => c ≠ 'e' ∧ c ≠ 'E'
  let (whole, fraction) := mantissa.span fun c => c ≠ '.'
  let exponent ← exponentPart exponentText
  let digits ← digitsValue 10 (whole ++ fraction.tail)
  pure (digits * 10 ^ (exponent - fraction.tail.length))

/-- A numeral in the grammar of the language, or not a number. -/
def numeral : List Char → Number
  | [] => .finite 0
  | '0' :: 'x' :: digits => ((digitsValue 16 digits).map fun n => Number.round n).getD .nan
  | '0' :: 'X' :: digits => ((digitsValue 16 digits).map fun n => Number.round n).getD .nan
  | '0' :: 'o' :: digits => ((digitsValue 8 digits).map fun n => Number.round n).getD .nan
  | '0' :: 'O' :: digits => ((digitsValue 8 digits).map fun n => Number.round n).getD .nan
  | '0' :: 'b' :: digits => ((digitsValue 2 digits).map fun n => Number.round n).getD .nan
  | '0' :: 'B' :: digits => ((digitsValue 2 digits).map fun n => Number.round n).getD .nan
  | text =>
      let (sign, unsigned) := signed text
      if unsigned = "Infinity".toList then .infinity (sign < 0)
      else ((decimal unsigned).map fun value => Number.round (sign * value)).getD .nan

def ofText (text : String) : Number := numeral (trim text.toList)

example : ofText " 12 " = .finite 12 := by decide +kernel

example : ofText "1,234" = .nan := by decide +kernel

/-! ## Values -/

inductive Value where
  | undefined
  | null
  | boolean (value : Bool)
  | number (value : Number)
  | bigint (value : Int)
  | string (text : String)
  | array (elements : List Value)
  /-- Any other object, by the text it converts to. -/
  | object (text : String)

namespace Value

def isNullish : Value → Bool
  | .undefined => true
  | .null => true
  | _ => false

/-- `value ?? other`. -/
def coalesce (value other : Value) : Value := if value.isNullish then other else value

def isTruthy : Value → Bool
  | .undefined => false
  | .null => false
  | .boolean value => value
  | .number value => value ≠ .nan ∧ value ≠ .finite 0
  | .bigint value => value ≠ 0
  | .string text => text ≠ ""
  | .array _ => true
  | .object _ => true

/-- `Number(String([value]))`: an array converts by way of the text of its
elements, and the comma between two of them is in no numeral. -/
def elementNumber : Value → Number
  | .undefined => .finite 0
  | .null => .finite 0
  | .boolean _ => .nan
  | .number value => value
  | .bigint value => Number.round value
  | .string text => ofText text
  | .array [] => .finite 0
  | .array [element] => elementNumber element
  | .array _ => .nan
  | .object text => ofText text

/-- `Number(value)`. -/
def toNumber : Value → Number
  | .undefined => .nan
  | .null => .finite 0
  | .boolean value => .finite (if value then 1 else 0)
  | .number value => value
  | .bigint value => Number.round value
  | .string text => ofText text
  | .array elements => elementNumber (.array elements)
  | .object text => ofText text

end Value

/-- A record: the value of each field, `undefined` where there is none. -/
abbrev Record : Type := String → Value

/-! ## Hexadecimal text -/

/-- `Buffer.from(text, "hex")`: pairs of digits up to the first that is not one. -/
def hexPairs : List Char → Bytes
  | high :: low :: rest =>
      if digitValue high < 16 ∧ digitValue low < 16 then
        UInt8.ofNat (16 * digitValue high + digitValue low) :: hexPairs rest
      else []
  | _ => []

/-! ## Code units -/

/-- The units a text is counted and cut in.  A character beyond the basic plane has two;
these are no digits, signs or spaces, and stand here as two that are none either. -/
def codeUnits (text : List Char) : List Char :=
  text.flatMap fun c => if 0xffff < c.toNat then ['\uffff', '\uffff'] else [c]

theorem codeUnits_of_basic {text : List Char} (h : ∀ c ∈ text, c.toNat ≤ 0xffff) :
    codeUnits text = text := by
  unfold codeUnits
  induction text with
  | nil => rfl
  | cons c rest ih =>
      have hc : ¬ 0xffff < c.toNat := Nat.not_lt.mpr (h c List.mem_cons_self)
      rw [List.flatMap_cons, if_neg hc, ih fun other hmem => h other (List.mem_cons_of_mem _ hmem)]
      rfl

/-! ## Throwing -/

section Throwing

variable {ε α β : Type} {x : Except ε α} {next : α → Except ε β} {a : α} {b : β}

theorem except_bind_ok : (x >>= next) = .ok b ↔ ∃ value, x = .ok value ∧ next value = .ok b := by
  cases x with
  | error e => simp [Bind.bind, Except.bind]
  | ok value => simp [Bind.bind, Except.bind]

theorem except_bind_error {message : ε} :
    (x >>= next) = .error message ↔
      x = .error message ∨ ∃ value, x = .ok value ∧ next value = .error message := by
  cases x with
  | error e => simp [Bind.bind, Except.bind]
  | ok value => simp [Bind.bind, Except.bind]

theorem except_pure_ok {other : α} : (pure a : Except ε α) = .ok other ↔ a = other := by
  simp [Pure.pure, Except.pure]

theorem except_pure_error {message : ε} : (pure a : Except ε α) = .error message ↔ False :=
  iff_of_false nofun id

theorem except_map_ok {f : α → β} : f <$> x = .ok b ↔ ∃ value, x = .ok value ∧ f value = b := by
  cases x with
  | error e => simp [Functor.map, Except.map]
  | ok value => simp [Functor.map, Except.map]

end Throwing

end StxShield.Library.JavaScript
