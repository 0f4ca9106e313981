import Mathlib.Data.List.TakeWhile
import StxShield.Library.Hexadecimal

/-!
# JSON text

`JSON.parse` reads a text into a value, or for an object into its members; objects
inside it are only known by the text they convert to.  `JSON.stringify` is defined on
objects whose members are strings and numerals, which is what is read back here.
-/

namespace StxShield.Library.Json

open JavaScript

/-! ## Characters -/

def isSpace (c : Char) : Bool := c.toNat ∈ [9, 10, 13, 32]

def skip (text : List Char) : List Char := text.dropWhile isSpace

def isDigit (c : Char) : Bool := '0' ≤ c && c ≤ '9'

/-- The character that `c` stands for after a backslash. -/
def escaped (c : Char) : Option Char :=
  if c ∈ ['\x22', '\\', '/'] then some c
  else if c = 'b' then some '\x08'
  else if c = 'f' then some '\x0c'
  else if c = 'n' then some '\n'
  else if c = 'r' then some '\x0d'
  else if c = 't' then some '\t'
  else none

/-! ## Parsing -/

def cons (c : Char) (read : List Char × List Char) : List Char × List Char := (c :: read.1, read.2)

/-- The characters of a string up to its closing quote, and what follows it.  Half of
a surrogate pair is read as the character zero. -/
def stringBody : List Char → Option (List Char × List Char)
  | [] => none
  | '\x22' :: rest => some ([], rest)
  | '\\' :: 'u' :: a :: b :: c :: d :: rest =>
      match digitsValue 16 [a, b, c, d] with
      | some code => (stringBody rest).map (cons (Char.ofNat code))
      | none => none
  | '\\' :: c :: rest =>
      match escaped c with
      | some plain => (stringBody rest).map (cons plain)
      | none => none
  | c :: rest => if c.toNat < 32 then none else (stringBody rest).map (cons c)

/-- Digits after a point or an exponent mark; there must be some. -/
def digitsAfter (mark : List Char) (text : List Char) : Option (List Char × List Char) :=
  let (digits, rest) := text.span isDigit
  if digits = [] then none else some (mark ++ digits, rest)

def fractionPart : List Char → Option (List Char × List Char)
  | '.' :: rest => digitsAfter ['.'] rest
  | text => some ([], text)

def exponentText : List Char → Option (List Char × List Char)
  | [] => some ([], [])
  | e :: rest =>
      if e = 'e' ∨ e = 'E' then
        match rest with
        | '-' :: digits => digitsAfter [e, '-'] digits
        | '+' :: digits => digitsAfter [e, '+'] digits
        | digits => digitsAfter [e] digits
      else some ([], e :: rest)

/-- A numeral without its sign; a zero in front is the whole of the integer part. -/
def unsignedToken (text : List Char) : Option (List Char × List Char) :=
  let (whole, rest) := text.span isDigit
  if whole = [] ∨ (whole.head? = some '0' ∧ 1 < whole.length) then none
  else do
    let (fraction, rest) ← fractionPart rest
    let (exponent, rest) ← exponentText rest
    some (whole ++ fraction ++ exponent, rest)

def numberToken : List Char → Option (List Char × List Char)
  | '-' :: rest => (unsignedToken rest).map (cons '-')
  | text => unsignedToken text

mutual

/-- A value, and what follows it. -/
def value : Nat → List Char → Option (Value × List Char)
  | 0, _ => none
  | fuel + 1, text =>
      match skip text with
      | '\x22' :: rest => (stringBody rest).map fun read => (.string (String.ofList read.1), read.2)
      | '[' :: rest =>
          match skip rest with
          | ']' :: rest => some (.array [], rest)
          | rest => (elements fuel rest).map fun read => (.array read.1, read.2)
      | '\x7b' :: rest => (object fuel rest).map fun read => (.object "[object Object]", read.2)
      | 't' :: 'r' :: 'u' :: 'e' :: rest => some (.boolean true, rest)
      | 'f' :: 'a' :: 'l' :: 's' :: 'e' :: rest => some (.boolean false, rest)
      | 'n' :: 'u' :: 'l' :: 'l' :: rest => some (.null, rest)
      | text => (numberToken text).map fun read => (.number (numeral read.1), read.2)

def elements : Nat → List Char → Option (List Value × List Char)
  | 0, _ => none
  | fuel + 1, text =>
      match value fuel text with
      | none => none
      | some (element, rest) =>
          match skip rest with
          | ',' :: rest => (elements fuel rest).map fun read => (element :: read.1, read.2)
          | ']' :: rest => some ([element], rest)
          | _ => none

/-- The members of an object after its opening brace. -/
def object : Nat → List Char → Option (List (String × Value) × List Char)
  | 0, _ => none
  | fuel + 1, text =>
      match skip text with
      | '\x7d' :: rest => some ([], rest)
      | text => members fuel text

def members : Nat → List Char → Option (List (String × Value) × List Char)
  | 0, _ => none
  | fuel + 1, text =>
      match skip text with
      | '\x22' :: rest =>
          match stringBody rest with
          | none => none
          | some (name, rest) =>
              match skip rest with
              | ':' :: rest =>
                  match value fuel rest with
                  | none => none
                  | some (held, rest) =>
                      match skip rest with
                      | ',' :: rest =>
                          (members fuel rest).map fun read =>
                            ((String.ofList name, held) :: read.1, read.2)
                      | '\x7d' :: rest => some ([(String.ofList name, held)], rest)
                      | _ => none
              | _ => none
      | _ => none

end

/-- What a text is read as: the members of an object, in order, or another value. -/
inductive Parsed where
  | record (members : List (String × Value))
  | other (value : Value)

/-- `JSON.parse` -/
def parse (text : List Char) : Option Parsed :=
  let fuel := 2 * text.length + 2
  let read :=
    match skip text with
    | '\x7b' :: rest => (object fuel rest).map fun read => (Parsed.record read.1, read.2)
    | text => (value fuel text).map fun read => (Parsed.other read.1, read.2)
  match read with
  | some (parsed, rest) => if skip rest = [] then some parsed else none
  | none => none

/-- `o[name]`; of two members of one name the last is kept, and `null` has none. -/
def Parsed.field (name : String) : Parsed → Except String Value
  | .record members => .ok ((members.reverse.lookup name).getD .undefined)
  | .other .null => .error "Cannot read properties of null"
  | .other _ => .ok .undefined

/-! ## Printing -/

/-- A string of characters that need no escape. -/
def quoted (text : List Char) : List Char := '\x22' :: text ++ ['\x22']

/-- A member of an object: its name, the text of its value, and the value. -/
structure Member where
  name : List Char
  text : List Char
  value : Value

def Member.print (member : Member) : List Char := quoted member.name ++ ':' :: member.text

def printMembers : List Member → List Char
  | [] => []
  | [member] => member.print
  | member :: rest => member.print ++ ',' :: printMembers rest

/-- `JSON.stringify` of an object. -/
def stringify (members : List Member) : List Char :=
  '\x7b' :: printMembers members ++ ['\x7d']


/-- What stands around one member does not depend on it. -/
theorem exists_printMembers (before after : List Member) :
    ∃ front back, ∀ member,
      printMembers (before ++ member :: after) = front ++ member.print ++ back := by
  induction before with
  | nil =>
      cases after with
      | nil => exact ⟨[], [], fun member => (List.append_nil _).symm⟩
      | cons next rest => exact ⟨[], ',' :: printMembers (next :: rest), fun member => rfl⟩
  | cons first rest ih =>
      obtain ⟨front, back, hprint⟩ := ih
      refine ⟨first.print ++ ',' :: front, back, fun member => ?_⟩
      have hstep : printMembers (first :: (rest ++ member :: after)) =
          first.print ++ ',' :: printMembers (rest ++ member :: after) := by
        cases rest with
        | nil => rfl
        | cons second others => rfl
      rw [List.cons_append, hstep, hprint]
      simp only [List.append_assoc, List.cons_append]

/-! ## Reading what was printed -/

/-- Characters that stand for themselves in a string. -/
def Plain (c : Char) : Prop := c ≠ '\x22' ∧ c ≠ '\\' ∧ 32 ≤ c.toNat

theorem stringBody_plain {text : List Char} (rest : List Char) (hplain : ∀ c ∈ text, Plain c) :
    stringBody (text ++ '\x22' :: rest) = some (text, rest) := by
  induction text with
  | nil => rfl
  | cons c text ih =>
      obtain ⟨hquote, hslash, hcontrol⟩ := hplain c List.mem_cons_self
      have hread := ih fun c hc => hplain c (List.mem_cons_of_mem _ hc)
      rw [List.cons_append, stringBody, if_neg (Nat.not_lt.mpr hcontrol), hread]
      · rfl
      · exact fun heq => hquote heq
      · exact fun _ _ _ _ _ heq _ => hslash heq
      · exact fun _ _ heq _ => hslash heq

/-- Text that can follow a value in an object. -/
inductive Follows : List Char → Prop where
  | comma (rest : List Char) : Follows (',' :: rest)
  | brace (rest : List Char) : Follows ('\x7d' :: rest)

theorem isDigit_of_mem_toDigits {n : Nat} {c : Char} (h : c ∈ Nat.toDigits 10 n) :
    isDigit c = true := by
  have hdigit := Nat.isDigit_of_mem_toDigits (by decide) (by decide) h
  simpa [isDigit, Char.isDigit, Char.le_def] using hdigit

theorem span_digits {digits rest : List Char} (hdigits : ∀ c ∈ digits, isDigit c = true)
    (hrest : Follows rest) : (digits ++ rest).span isDigit = (digits, rest) := by
  have hstop : rest.span isDigit = ([], rest) := by
    cases hrest with
    | comma rest => rfl
    | brace rest => rfl
  rw [List.span_eq_takeWhile_dropWhile] at hstop ⊢
  rw [Prod.mk.injEq] at hstop ⊢
  rw [List.takeWhile_append_of_pos hdigits, List.dropWhile_append_of_pos hdigits, hstop.1, hstop.2,
    List.append_nil]
  exact ⟨rfl, rfl⟩

/-- The digits of a number begin with a zero only for zero. -/
theorem toDigits_head (n : Nat) :
    ¬ ((Nat.toDigits 10 n).head? = some '0' ∧ 1 < (Nat.toDigits 10 n).length) := by
  induction n using Nat.strongRecOn with
  | ind n ih =>
      by_cases hsmall : n < 10
      · rw [Nat.toDigits_of_lt_base hsmall]
        exact fun h => absurd h.2 (by simp)
      · have hsmaller : n / 10 < n := by omega
        rw [Nat.toDigits_of_base_le (by decide) (by omega),
          List.head?_append_of_ne_nil _ Nat.toDigits_ne_nil]
        rintro ⟨hhead, -⟩
        have hshort : (Nat.toDigits 10 (n / 10)).length = 1 := by
          have hpos := List.length_pos_iff.mpr (Nat.toDigits_ne_nil (n := n / 10) (b := 10))
          have hnot := mt (fun hlength => And.intro hhead hlength) (ih (n / 10) hsmaller)
          omega
        have hone : n / 10 < 10 := by
          by_contra hlarge
          rw [Nat.toDigits_of_base_le (by decide) (by omega), List.length_append,
            List.length_singleton] at hshort
          have hpos := List.length_pos_iff.mpr (Nat.toDigits_ne_nil (n := n / 10 / 10) (b := 10))
          omega
        rw [Nat.toDigits_of_lt_base hone] at hhead
        have hzero : ∀ d < 10, 0 < d → Nat.digitChar d ≠ '0' := by decide
        exact hzero (n / 10) hone (by omega) (by simpa using hhead)

theorem unsignedToken_toDigits (n : Nat) {rest : List Char} (hrest : Follows rest) :
    unsignedToken (Nat.toDigits 10 n ++ rest) = some (Nat.toDigits 10 n, rest) := by
  unfold unsignedToken
  rw [span_digits (fun c => isDigit_of_mem_toDigits) hrest]
  simp only
  rw [if_neg (not_or.mpr ⟨Nat.toDigits_ne_nil, toDigits_head n⟩)]
  cases hrest with
  | comma rest => simp [fractionPart, exponentText]
  | brace rest => simp [fractionPart, exponentText]

/-- A value's text, read wherever it stands in an object. -/
def Reads (text : List Char) (held : Value) : Prop :=
  ∀ fuel rest, Follows rest → value (fuel + 1) (text ++ rest) = some (held, rest)

theorem reads_quoted {text : List Char} (hplain : ∀ c ∈ text, Plain c) :
    Reads (quoted text) (.string (String.ofList text)) := by
  intro fuel rest _
  have htext : quoted text ++ rest = '\x22' :: (text ++ '\x22' :: rest) := by
    simp [quoted]
  have hskip : skip ('\x22' :: (text ++ '\x22' :: rest)) = '\x22' :: (text ++ '\x22' :: rest) := rfl
  rw [htext, value, hskip]
  simp only [stringBody_plain rest hplain]
  rfl

theorem digit_cases {c : Char} (hdigit : isDigit c = true) :
    c ∈ ['0', '1', '2', '3', '4', '5', '6', '7', '8', '9'] := by
  simp only [isDigit, Bool.and_eq_true, decide_eq_true_eq, Char.le_def] at hdigit
  have hlow : 48 ≤ c.toNat := hdigit.1
  have hhigh : c.toNat ≤ 57 := hdigit.2
  have hall : ∀ code ≤ 57, 48 ≤ code →
      Char.ofNat code ∈ ['0', '1', '2', '3', '4', '5', '6', '7', '8', '9'] := by decide
  have hmem := hall c.toNat hhigh hlow
  rwa [Char.ofNat_toNat] at hmem

/-- A digit begins no other value than a numeral. -/
theorem value_digit {c : Char} (hdigit : isDigit c = true) (fuel : Nat) (rest : List Char) :
    value (fuel + 1) (c :: rest) =
      (numberToken (c :: rest)).map fun read => (.number (numeral read.1), read.2) := by
  have hcases := digit_cases hdigit
  simp only [List.mem_cons, List.not_mem_nil, or_false] at hcases
  rcases hcases with rfl | rfl | rfl | rfl | rfl | rfl | rfl | rfl | rfl | rfl <;> rfl

theorem numberToken_digit {c : Char} (hdigit : isDigit c = true) (rest : List Char) :
    numberToken (c :: rest) = unsignedToken (c :: rest) := by
  have hcases := digit_cases hdigit
  simp only [List.mem_cons, List.not_mem_nil, or_false] at hcases
  rcases hcases with rfl | rfl | rfl | rfl | rfl | rfl | rfl | rfl | rfl | rfl <;> rfl

theorem reads_toDigits (n : Nat) :
    Reads (Nat.toDigits 10 n) (.number (numeral (Nat.toDigits 10 n))) := by
  intro fuel rest hrest
  have htoken := unsignedToken_toDigits n hrest
  obtain ⟨c, more, hdigits⟩ := List.exists_cons_of_ne_nil (Nat.toDigits_ne_nil (n := n) (b := 10))
  have hc : isDigit c = true :=
    isDigit_of_mem_toDigits (n := n) (by rw [hdigits]; exact List.mem_cons_self)
  rw [hdigits] at htoken ⊢
  rw [List.cons_append] at htoken ⊢
  rw [value_digit hc, numberToken_digit hc, htoken]
  rfl

theorem reads_negative (n : Nat) :
    Reads ('-' :: Nat.toDigits 10 n) (.number (numeral ('-' :: Nat.toDigits 10 n))) := by
  intro fuel rest hrest
  have hvalue : value (fuel + 1) ('-' :: (Nat.toDigits 10 n ++ rest)) =
      (numberToken ('-' :: (Nat.toDigits 10 n ++ rest))).map
        fun read => (.number (numeral read.1), read.2) := rfl
  rw [List.cons_append, hvalue, numberToken, unsignedToken_toDigits n hrest]
  rfl

/-! ### Objects -/

/-- A member whose name stands for itself and whose value is read back. -/
structure Member.Readable (member : Member) : Prop where
  name : ∀ c ∈ member.name, Plain c
  value : Reads member.text member.value

def Member.entry (member : Member) : String × Value := (String.ofList member.name, member.value)

theorem skip_follows {rest : List Char} (hrest : Follows rest) : skip rest = rest := by
  cases hrest with
  | comma rest => rfl
  | brace rest => rfl

/-- What reading a member comes to. -/
theorem members_print {member : Member} (hreadable : member.Readable) (fuel : Nat)
    {rest : List Char} (hrest : Follows rest) :
    members (fuel + 2) (member.print ++ rest) =
      match rest with
      | ',' :: rest => (members (fuel + 1) rest).map fun read => (member.entry :: read.1, read.2)
      | '\x7d' :: rest => some ([member.entry], rest)
      | _ => none := by
  have htext : member.print ++ rest =
      '\x22' :: (member.name ++ '\x22' :: ':' :: (member.text ++ rest)) := by
    simp [Member.print, quoted]
  have hskip : skip ('\x22' :: (member.name ++ '\x22' :: ':' :: (member.text ++ rest))) =
      '\x22' :: (member.name ++ '\x22' :: ':' :: (member.text ++ rest)) := rfl
  have hcolon : skip (':' :: (member.text ++ rest)) = ':' :: (member.text ++ rest) := rfl
  rw [htext, members, hskip]
  simp only [stringBody_plain _ hreadable.name, hcolon, hreadable.value fuel rest hrest,
    skip_follows hrest]
  cases hrest with
  | comma rest => rfl
  | brace rest => rfl

theorem members_printMembers {list : List Member} (hreadable : ∀ member ∈ list, member.Readable)
    (hsome : list ≠ []) (rest : List Char) {fuel : Nat} (hfuel : list.length < fuel) :
    members fuel (printMembers list ++ '\x7d' :: rest) = some (list.map Member.entry, rest) := by
  induction list generalizing fuel with
  | nil => exact absurd rfl hsome
  | cons member others ih =>
      obtain ⟨fuel, rfl⟩ : ∃ more, fuel = more + 2 :=
        ⟨fuel - 2, by simp only [List.length_cons] at hfuel; omega⟩
      have hmember := hreadable member List.mem_cons_self
      cases others with
      | nil => exact members_print hmember fuel (.brace rest)
      | cons next more =>
          have hothers : members (fuel + 1) (printMembers (next :: more) ++ '\x7d' :: rest) =
              some ((next :: more).map Member.entry, rest) := by
            refine ih (fun m hm => hreadable m (List.mem_cons_of_mem _ hm)) (by simp) ?_
            simp only [List.length_cons] at hfuel ⊢
            omega
          have htext : printMembers (member :: next :: more) ++ '\x7d' :: rest =
              member.print ++ ',' :: (printMembers (next :: more) ++ '\x7d' :: rest) := by
            simp [printMembers]
          rw [htext, members_print hmember fuel (.comma _)]
          simp only [hothers]
          rfl

theorem length_le_printMembers (list : List Member) : list.length ≤ (printMembers list).length + 1 := by
  induction list with
  | nil => exact Nat.zero_le _
  | cons member others ih =>
      cases others with
      | nil => simp
      | cons next more =>
          simp only [printMembers, List.length_append, List.length_cons] at ih ⊢
          omega

/-- Parsing what was printed gives the members. -/
theorem parse_stringify {list : List Member} (hreadable : ∀ member ∈ list, member.Readable)
    (hsome : list ≠ []) : parse (stringify list) = some (.record (list.map Member.entry)) := by
  have hskip : ∀ text, skip ('\x7b' :: text) = '\x7b' :: text := fun _ => rfl
  have htext : stringify list = '\x7b' :: (printMembers list ++ '\x7d' :: []) := by
    simp [stringify]
  have hlength : (stringify list).length = (printMembers list).length + 2 := by
    simp [stringify]
  have hmembers : members (2 * (stringify list).length + 1) (printMembers list ++ '\x7d' :: []) =
      some (list.map Member.entry, []) := by
    refine members_printMembers hreadable hsome [] ?_
    have hmany := length_le_printMembers list
    omega
  have hobject : object (2 * (stringify list).length + 2) (printMembers list ++ '\x7d' :: []) =
      some (list.map Member.entry, []) := by
    cases list with
    | nil => exact absurd rfl hsome
    | cons member others =>
        have hfirst : ∃ rest, printMembers (member :: others) ++ '\x7d' :: [] = '\x22' :: rest := by
          cases others with
          | nil => exact ⟨_, rfl⟩
          | cons next more => exact ⟨_, rfl⟩
        obtain ⟨rest, hrest⟩ := hfirst
        rw [hrest] at hmembers ⊢
        exact hmembers
  unfold parse
  rw [htext] at hobject ⊢
  rw [hskip]
  simp only [hobject]
  rfl

/-! ## Numerals of integers -/

/-- `Number.MAX_SAFE_INTEGER` -/
def maxSafeInteger : Nat := 2 ^ 53 - 1

theorem roundHalfEven_intCast (n : Int) : Number.roundHalfEven (n : ℚ) = n := by
  unfold Number.roundHalfEven
  simp

/-- A safe integer is a number of its own. -/
theorem round_intCast {n : Int} (hsafe : n.natAbs ≤ maxSafeInteger) :
    Number.round (n : ℚ) = .finite n := by
  have hlt : |(n : ℚ)| < 2 ^ 53 := by
    rw [← Int.cast_abs, Int.abs_eq_natAbs, Int.cast_natCast]
    have hbound : n.natAbs < 2 ^ 53 := by unfold maxSafeInteger at hsafe; omega
    exact_mod_cast hbound
  have hexponent : max (Int.log 2 |(n : ℚ)| - 52) (-1074) ≤ 0 := by
    rcases eq_or_ne n 0 with rfl | hne
    · simp
    · have hpos : 0 < |(n : ℚ)| := abs_pos.mpr (Int.cast_ne_zero.mpr hne)
      have hlog : Int.log 2 |(n : ℚ)| < 53 := by
        rw [← Int.lt_zpow_iff_log_lt (by decide) hpos]
        exact_mod_cast hlt
      omega
  obtain ⟨k, hk⟩ := Int.eq_ofNat_of_zero_le (Int.neg_nonneg.mpr hexponent)
  have hexact : (max (Int.log 2 |(n : ℚ)| - 52) (-1074)) = -(k : Int) := by omega
  have hscaled : (n : ℚ) / 2 ^ (-(k : Int)) = ((n * 2 ^ k : Int) : ℚ) := by
    rw [zpow_neg, zpow_natCast, div_inv_eq_mul]
    push_cast
    rfl
  have hback : (((n * 2 ^ k : Int) : ℚ)) * 2 ^ (-(k : Int)) = n := by
    rw [zpow_neg, zpow_natCast]
    push_cast
    field_simp
  have hsmall : ¬ (2 : ℚ) ^ 1024 ≤ |(n : ℚ)| := by
    rw [not_le]
    exact hlt.trans (pow_lt_pow_right₀ (by norm_num) (by norm_num))
  unfold Number.round
  simp only [hexact, hscaled, roundHalfEven_intCast, hback, if_neg hsmall]

theorem digits_value (n : Nat) : digitsValue 10 (Nat.toDigits 10 n) = some n :=
  digitsValue_toDigits n (by decide) (by decide)

theorem decimal_toDigits (n : Nat) : decimal (Nat.toDigits 10 n) = some (n : ℚ) := by
  have hspan : ∀ p : Char → Bool, (∀ c, isDigit c = true → p c = true) →
      (Nat.toDigits 10 n).span p = (Nat.toDigits 10 n, []) := by
    intro p hp
    have hall : ∀ c ∈ Nat.toDigits 10 n, p c = true := fun c hc => hp c (isDigit_of_mem_toDigits hc)
    rw [List.span_eq_takeWhile_dropWhile, List.takeWhile_eq_self_iff.mpr hall,
      List.dropWhile_eq_nil_iff.mpr hall]
  have hmantissa : ∀ c, isDigit c = true → decide (c ≠ 'e' ∧ c ≠ 'E') = true := by
    intro c hc
    have hcases := digit_cases hc
    simp only [List.mem_cons, List.not_mem_nil, or_false] at hcases
    rcases hcases with rfl | rfl | rfl | rfl | rfl | rfl | rfl | rfl | rfl | rfl <;> decide
  have hwhole : ∀ c, isDigit c = true → decide (c ≠ '.') = true := by
    intro c hc
    have hcases := digit_cases hc
    simp only [List.mem_cons, List.not_mem_nil, or_false] at hcases
    rcases hcases with rfl | rfl | rfl | rfl | rfl | rfl | rfl | rfl | rfl | rfl <;> decide
  unfold decimal
  simp only [hspan _ hmantissa, hspan _ hwhole, exponentPart, List.tail_nil, List.append_nil,
    digits_value, Option.bind_eq_bind, Option.bind_some]
  simp

/-- A numeral without a base mark and not the infinite one. -/
theorem numeral_of_digits {text : List Char} (htext : ∀ c ∈ text, c = '-' ∨ isDigit c = true)
    (hsome : text ≠ []) :
    numeral text =
      ((decimal (signed text).2).map fun value => Number.round ((signed text).1 * value)).getD .nan := by
  have hletter : ∀ c ∈ ['x', 'X', 'o', 'O', 'b', 'B', 'I'], c ∉ text := by
    intro c hc hmem
    have hnone : ∀ c ∈ ['x', 'X', 'o', 'O', 'b', 'B', 'I'], ¬ (c = '-' ∨ isDigit c = true) :=
      forall_of_all (by decide)
    exact hnone c hc (htext c hmem)
  have hinfinite : (signed text).2 ≠ "Infinity".toList := by
    intro heq
    have hmem : 'I' ∈ (signed text).2 := by rw [heq]; decide
    refine hletter 'I' (by decide) ?_
    unfold signed at hmem
    split at hmem
    · exact List.mem_cons_of_mem _ hmem
    · exact List.mem_cons_of_mem _ hmem
    · exact hmem
  unfold numeral
  split
  case h_1 => exact absurd rfl hsome
  case h_2 => exact absurd (by simp) (hletter 'x' (by decide))
  case h_3 => exact absurd (by simp) (hletter 'X' (by decide))
  case h_4 => exact absurd (by simp) (hletter 'o' (by decide))
  case h_5 => exact absurd (by simp) (hletter 'O' (by decide))
  case h_6 => exact absurd (by simp) (hletter 'b' (by decide))
  case h_7 => exact absurd (by simp) (hletter 'B' (by decide))
  case h_8 => simp only [if_neg hinfinite]

theorem signed_toDigits (n : Nat) : signed (Nat.toDigits 10 n) = (1, Nat.toDigits 10 n) := by
  obtain ⟨c, more, hdigits⟩ := List.exists_cons_of_ne_nil (Nat.toDigits_ne_nil (n := n) (b := 10))
  have hc : isDigit c = true :=
    isDigit_of_mem_toDigits (n := n) (by rw [hdigits]; exact List.mem_cons_self)
  rw [hdigits]
  unfold signed
  split
  case h_1 heq => exact absurd ((List.cons.inj heq).1 ▸ hc) (by decide)
  case h_2 heq => exact absurd ((List.cons.inj heq).1 ▸ hc) (by decide)
  case h_3 => rfl

theorem numeral_toDigits {n : Nat} (hsafe : n ≤ maxSafeInteger) :
    numeral (Nat.toDigits 10 n) = .finite n := by
  have hall : ∀ c ∈ Nat.toDigits 10 n, c = '-' ∨ isDigit c = true :=
    fun c hc => .inr (isDigit_of_mem_toDigits hc)
  rw [numeral_of_digits hall Nat.toDigits_ne_nil, signed_toDigits, decimal_toDigits]
  have hround := round_intCast (n := (n : Int)) (by simpa using hsafe)
  simpa using hround

theorem numeral_negative {n : Nat} (hsafe : n ≤ maxSafeInteger) :
    numeral ('-' :: Nat.toDigits 10 n) = .finite (-n : Int) := by
  have hall : ∀ c ∈ '-' :: Nat.toDigits 10 n, c = '-' ∨ isDigit c = true := by
    intro c hc
    rcases List.mem_cons.mp hc with rfl | hc
    · exact .inl rfl
    · exact .inr (isDigit_of_mem_toDigits hc)
  rw [numeral_of_digits hall (by simp)]
  have hsigned : signed ('-' :: Nat.toDigits 10 n) = (-1, Nat.toDigits 10 n) := rfl
  rw [hsigned, decimal_toDigits]
  have hround := round_intCast (n := -(n : Int)) (by simpa using hsafe)
  simpa using hround

end StxShield.Library.Json
