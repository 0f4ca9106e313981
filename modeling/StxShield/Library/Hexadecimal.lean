import StxShield.Library.JavaScript

/-!
# Numerals and hexadecimal text

`n.toString(radix)` is the list of digits; padded on the left with zeros to a fixed
width, hexadecimal digits are read in pairs as the big-endian bytes.
-/

namespace StxShield.Library.JavaScript

/-- `text.padStart(width, "0")` -/
def padStart (width : Nat) (text : List Char) : List Char :=
  List.replicate (width - text.length) '0' ++ text

/-- Two digits for each byte. -/
def bytesToHex (bytes : Bytes) : List Char :=
  bytes.flatMap fun byte => padStart 2 (Nat.toDigits 16 byte.toNat)

/-! ## Digits -/

theorem digitValue_digitChar {digit : Nat} (h : digit < 16) :
    digitValue (Nat.digitChar digit) = digit := by
  have hall : ∀ d < 16, digitValue (Nat.digitChar d) = d := by decide
  exact hall digit h

theorem digitValue_lt_of_mem {radix n : Nat} (hradix : 1 < radix) (hle : radix ≤ 16) {c : Char}
    (h : c ∈ Nat.toDigits radix n) : digitValue c < radix := by
  induction n using Nat.strongRecOn with
  | ind n ih =>
      rw [Nat.toDigits_eq_if hradix] at h
      split at h
      case isTrue hlt =>
        obtain rfl := List.mem_singleton.mp h
        rwa [digitValue_digitChar (by omega)]
      case isFalse hge =>
        rcases List.mem_append.mp h with hfront | hlast
        · exact ih (n / radix) (Nat.div_lt_self (by omega) hradix) hfront
        · obtain rfl := List.mem_singleton.mp hlast
          have hmod : n % radix < radix := Nat.mod_lt n (by omega)
          rwa [digitValue_digitChar (by omega)]

/-- Reading the digits of a number gives the number. -/
theorem foldl_toDigits {radix : Nat} (n : Nat) (hradix : 1 < radix) (hle : radix ≤ 16) :
    (Nat.toDigits radix n).foldl (fun value c => value * radix + digitValue c) 0 = n := by
  induction n using Nat.strongRecOn with
  | ind n ih =>
      rw [Nat.toDigits_eq_if hradix]
      split
      case isTrue hlt =>
        have hdigit : digitValue (Nat.digitChar n) = n := digitValue_digitChar (by omega)
        simp [hdigit]
      case isFalse hge =>
        have hmod : n % radix < radix := Nat.mod_lt n (by omega)
        have hdigit : digitValue (Nat.digitChar (n % radix)) = n % radix :=
          digitValue_digitChar (by omega)
        rw [List.foldl_append, ih (n / radix) (Nat.div_lt_self (by omega) hradix),
          List.foldl_cons, List.foldl_nil, hdigit, Nat.mul_comm]
        exact Nat.div_add_mod n radix

theorem digitsValue_toDigits {radix : Nat} (n : Nat) (hradix : 1 < radix) (hle : radix ≤ 16) :
    digitsValue radix (Nat.toDigits radix n) = some n := by
  have hvalid : (Nat.toDigits radix n).all (digitValue · < radix) := by
    rw [List.all_eq_true]
    intro c hc
    exact decide_eq_true (digitValue_lt_of_mem hradix hle hc)
  unfold digitsValue
  rw [if_pos ⟨Nat.toDigits_ne_nil, hvalid⟩, foldl_toDigits n hradix hle]

/-! ## Hexadecimal digits -/

theorem hexDigit_cases {c : Char} (h : digitValue c < 16) :
    c ∈ "0123456789abcdefABCDEF".toList := by
  have hall : ∀ code ≤ 122, digitValue (Char.ofNat code) < 16 →
      Char.ofNat code ∈ "0123456789abcdefABCDEF".toList := by decide
  have hcode : c.toNat ≤ 122 := by
    by_contra hlarge
    have hbeyond : ∀ bound : Char, bound.toNat ≤ 122 → ¬ c ≤ bound := by
      intro bound hbound hle
      rw [Char.le_def] at hle
      have hle' : c.toNat ≤ bound.toNat := hle
      omega
    unfold digitValue at h
    rw [if_neg fun hrange => hbeyond '9' (by decide) hrange.2,
      if_neg fun hrange => hbeyond 'z' (by decide) hrange.2,
      if_neg fun hrange => hbeyond 'Z' (by decide) hrange.2] at h
    omega
  have hmem := hall c.toNat hcode
  rw [Char.ofNat_toNat] at hmem
  exact hmem h

/-- What holds all along a text can be checked character by character. -/
theorem forall_of_all {P : Char → Prop} [DecidablePred P] {text : List Char}
    (h : (text.all fun c => decide (P c)) = true) : ∀ c ∈ text, P c :=
  fun c hc => of_decide_eq_true (List.all_eq_true.mp h c hc)

/-- What holds of the hexadecimal digits in both cases holds of every digit. -/
theorem forall_hexDigit {P : Char → Prop} (h : ∀ c ∈ "0123456789abcdefABCDEF".toList, P c) {c : Char}
    (hdigit : digitValue c < 16) : P c :=
  h c (hexDigit_cases hdigit)

/-- A digit is written in lower case. -/
theorem digitChar_digitValue {c : Char} (h : digitValue c < 16) :
    Nat.digitChar (digitValue c) = c.toLower :=
  forall_hexDigit (P := fun c => Nat.digitChar (digitValue c) = c.toLower)
    (forall_of_all (by decide)) h

theorem codeUnits_of_digits {text : List Char} (h : ∀ c ∈ text, digitValue c < 16) :
    codeUnits text = text :=
  codeUnits_of_basic fun c hmem =>
    forall_hexDigit (P := fun c => c.toNat ≤ 0xffff) (forall_of_all (by decide)) (h c hmem)

/-! ## Fixed width -/

/-- The low hexadecimal digits of a number, most significant first. -/
def fixedHex : Nat → Nat → List Char
  | 0, _ => []
  | width + 1, n => fixedHex width (n / 16) ++ [Nat.digitChar (n % 16)]

@[simp]
theorem fixedHex_length (width n : Nat) : (fixedHex width n).length = width := by
  induction width generalizing n with
  | zero => rfl
  | succ width ih => simp [fixedHex, ih]

theorem fixedHex_zero (width : Nat) : fixedHex width 0 = List.replicate width '0' := by
  induction width with
  | zero => rfl
  | succ width ih =>
      rw [fixedHex, Nat.zero_div, ih, List.replicate_succ']
      rfl

/-- Padding the digits of a number that fits. -/
theorem padStart_toDigits {width n : Nat} (hwidth : 0 < width) (h : n < 16 ^ width) :
    padStart width (Nat.toDigits 16 n) = fixedHex width n := by
  induction width generalizing n with
  | zero => exact absurd hwidth (Nat.lt_irrefl 0)
  | succ width ih =>
      by_cases hsmall : n < 16
      · have hzero : n / 16 = 0 := Nat.div_eq_of_lt hsmall
        rw [Nat.toDigits_of_lt_base hsmall, fixedHex, hzero, fixedHex_zero,
          Nat.mod_eq_of_lt hsmall]
        rfl
      · have hpos : 0 < width := by
          by_contra hnone
          obtain rfl : width = 0 := by omega
          exact hsmall (by simpa using h)
        have hfits : n / 16 < 16 ^ width := by
          rw [Nat.div_lt_iff_lt_mul (by decide), ← Nat.pow_succ]
          exact h
        rw [Nat.toDigits_of_base_le (by decide) (by omega), fixedHex, ← ih hpos hfits]
        unfold padStart
        rw [List.length_append, List.length_singleton, Nat.add_sub_add_right, List.append_assoc]

theorem hexPairs_append {front rest : List Char} {width : Nat} (hfront : front.length = 2 * width)
    (hdigits : ∀ c ∈ front, digitValue c < 16) :
    hexPairs (front ++ rest) = hexPairs front ++ hexPairs rest := by
  induction width generalizing front with
  | zero =>
      obtain rfl := List.length_eq_zero_iff.mp hfront
      rfl
  | succ width ih =>
      match front, hfront with
      | high :: low :: tail, hfront =>
          have htail : tail.length = 2 * width := by
            simp only [List.length_cons] at hfront
            omega
          have hhigh := hdigits high List.mem_cons_self
          have hlow := hdigits low (List.mem_cons_of_mem _ List.mem_cons_self)
          have hrest := ih htail fun c hc =>
            hdigits c (List.mem_cons_of_mem _ (List.mem_cons_of_mem _ hc))
          simp only [List.cons_append, hexPairs, hhigh, hlow, and_self, if_true, hrest]

theorem hexPairs_length {text : List Char} {width : Nat} (hlength : text.length = 2 * width)
    (hdigits : ∀ c ∈ text, digitValue c < 16) : (hexPairs text).length = width := by
  induction width generalizing text with
  | zero =>
      obtain rfl := List.length_eq_zero_iff.mp hlength
      rfl
  | succ width ih =>
      match text, hlength with
      | high :: low :: rest, hlength =>
          have hrestLength : rest.length = 2 * width := by
            simp only [List.length_cons] at hlength
            omega
          have hhigh := hdigits high List.mem_cons_self
          have hlow := hdigits low (List.mem_cons_of_mem _ List.mem_cons_self)
          have hrest := ih hrestLength fun c hc =>
            hdigits c (List.mem_cons_of_mem _ (List.mem_cons_of_mem _ hc))
          simp only [hexPairs, hhigh, hlow, and_self, if_true, List.length_cons, hrest]

theorem digitValue_lt_of_mem_fixedHex {width n : Nat} {c : Char} (h : c ∈ fixedHex width n) :
    digitValue c < 16 := by
  induction width generalizing n with
  | zero => cases h
  | succ width ih =>
      rcases List.mem_append.mp h with hfront | hlast
      · exact ih hfront
      · obtain rfl := List.mem_singleton.mp hlast
        have hmod : n % 16 < 16 := Nat.mod_lt n (by decide)
        rwa [digitValue_digitChar hmod]

theorem foldl_fixedHex {width n : Nat} (h : n < 16 ^ width) :
    (fixedHex width n).foldl (fun value c => value * 16 + digitValue c) 0 = n := by
  induction width generalizing n with
  | zero =>
      rw [Nat.pow_zero, Nat.lt_one_iff] at h
      exact h.symm
  | succ width ih =>
      have hfits : n / 16 < 16 ^ width := by
        rw [Nat.div_lt_iff_lt_mul (by decide), ← Nat.pow_succ]
        exact h
      have hmod : n % 16 < 16 := Nat.mod_lt n (by decide)
      rw [fixedHex, List.foldl_append, ih hfits, List.foldl_cons, List.foldl_nil,
        digitValue_digitChar hmod, Nat.mul_comm]
      exact Nat.div_add_mod n 16

theorem digitsValue_fixedHex {width n : Nat} (hwidth : 0 < width) (h : n < 16 ^ width) :
    digitsValue 16 (fixedHex width n) = some n := by
  have hne : fixedHex width n ≠ [] :=
    List.ne_nil_of_length_pos (by rwa [fixedHex_length])
  have hvalid : (fixedHex width n).all (digitValue · < 16) := by
    rw [List.all_eq_true]
    intro c hc
    exact decide_eq_true (digitValue_lt_of_mem_fixedHex hc)
  unfold digitsValue
  rw [if_pos ⟨hne, hvalid⟩, foldl_fixedHex h]

/-- Pairs of digits are bytes. -/
theorem hexPairs_fixedHex (width n : Nat) : hexPairs (fixedHex (2 * width) n) = bigEndian width n := by
  induction width generalizing n with
  | zero => rfl
  | succ width ih =>
      have hsplit : fixedHex (2 * (width + 1)) n =
          fixedHex (2 * width) (n / 256) ++
            [Nat.digitChar (n / 16 % 16), Nat.digitChar (n % 16)] := by
        rw [Nat.mul_succ, fixedHex, fixedHex, Nat.div_div_eq_div_mul, List.append_assoc]
        rfl
      have hhigh : n / 16 % 16 < 16 := Nat.mod_lt _ (by decide)
      have hlow : n % 16 < 16 := Nat.mod_lt _ (by decide)
      have hbyte : 16 * (n / 16 % 16) + n % 16 = n % 256 := by omega
      rw [hsplit, hexPairs_append (fixedHex_length _ _) fun c => digitValue_lt_of_mem_fixedHex, ih,
        bigEndian_succ_last]
      simp only [hexPairs, digitValue_digitChar hhigh, digitValue_digitChar hlow, hhigh, hlow,
        and_self, if_true, hbyte]

theorem bytesToHex_cons (byte : UInt8) (rest : Bytes) :
    bytesToHex (byte :: rest) = fixedHex 2 byte.toNat ++ bytesToHex rest := by
  unfold bytesToHex
  rw [List.flatMap_cons, padStart_toDigits (by decide) byte.toNat_lt]

theorem bytesToHex_length (bytes : Bytes) : (bytesToHex bytes).length = 2 * bytes.length := by
  induction bytes with
  | nil => rfl
  | cons byte rest ih =>
      rw [bytesToHex_cons, List.length_append, ih, fixedHex_length, List.length_cons]
      omega

theorem digitValue_lt_of_mem_bytesToHex {bytes : Bytes} {c : Char} (h : c ∈ bytesToHex bytes) :
    digitValue c < 16 := by
  induction bytes with
  | nil => cases h
  | cons byte rest ih =>
      rw [bytesToHex_cons] at h
      rcases List.mem_append.mp h with hfront | hrest
      · exact digitValue_lt_of_mem_fixedHex hfront
      · exact ih hrest

/-- Reading what was written gives the bytes back. -/
theorem hexPairs_bytesToHex (bytes : Bytes) : hexPairs (bytesToHex bytes) = bytes := by
  induction bytes with
  | nil => rfl
  | cons byte rest ih =>
      have hbyte : hexPairs (fixedHex 2 byte.toNat) = [byte] := by
        rw [hexPairs_fixedHex 1]
        simp [bigEndian]
      have hlength : (fixedHex 2 byte.toNat).length = 2 * 1 := fixedHex_length _ _
      rw [bytesToHex_cons, hexPairs_append hlength fun c => digitValue_lt_of_mem_fixedHex, ih, hbyte]
      rfl

/-- What is written is in lower case. -/
theorem toLower_of_mem_fixedHex {width n : Nat} {c : Char} (h : c ∈ fixedHex width n) :
    c.toLower = c := by
  have hall : ∀ d < 16, (Nat.digitChar d).toLower = Nat.digitChar d := by decide
  induction width generalizing n with
  | zero => cases h
  | succ width ih =>
      rcases List.mem_append.mp h with hfront | hlast
      · exact ih hfront
      · obtain rfl := List.mem_singleton.mp hlast
        exact hall _ (Nat.mod_lt n (by decide))

theorem toLower_of_mem_bytesToHex {bytes : Bytes} {c : Char} (h : c ∈ bytesToHex bytes) :
    c.toLower = c := by
  induction bytes with
  | nil => cases h
  | cons byte rest ih =>
      rw [bytesToHex_cons] at h
      rcases List.mem_append.mp h with hfront | hrest
      · exact toLower_of_mem_fixedHex hfront
      · exact ih hrest

/-! ## Up to case -/

/-- The number read from some digits is written as these, in lower case. -/
theorem fixedHex_foldl {digits : List Char} (h : ∀ c ∈ digits, digitValue c < 16) :
    fixedHex digits.length (digits.foldl (fun value c => value * 16 + digitValue c) 0) =
      digits.map Char.toLower := by
  induction digits using List.reverseRecOn with
  | nil => rfl
  | append_singleton front last ih =>
      have hlast : digitValue last < 16 := h last (List.mem_append_right _ List.mem_cons_self)
      have hfront := ih fun c hmem => h c (List.mem_append_left _ hmem)
      rw [List.length_append, List.length_singleton, List.foldl_append, List.foldl_cons,
        List.foldl_nil, fixedHex, List.map_append]
      generalize front.foldl (fun value c => value * 16 + digitValue c) 0 = value at hfront ⊢
      have hdiv : (value * 16 + digitValue last) / 16 = value := by omega
      have hmod : (value * 16 + digitValue last) % 16 = digitValue last := by omega
      rw [hdiv, hmod, hfront, digitChar_digitValue hlast]
      rfl

theorem foldl_digits_lt {digits : List Char} (h : ∀ c ∈ digits, digitValue c < 16) :
    digits.foldl (fun value c => value * 16 + digitValue c) 0 < 16 ^ digits.length := by
  induction digits using List.reverseRecOn with
  | nil => exact Nat.one_pos
  | append_singleton front last ih =>
      have hlast : digitValue last < 16 := h last (List.mem_append_right _ List.mem_cons_self)
      have hfront := ih fun c hmem => h c (List.mem_append_left _ hmem)
      rw [List.foldl_append, List.foldl_cons, List.foldl_nil, List.length_append,
        List.length_singleton, Nat.pow_succ]
      omega

/-- The bytes read from pairs of digits are written as these, in lower case. -/
theorem bytesToHex_hexPairs {text : List Char} {width : Nat} (hlength : text.length = 2 * width)
    (hdigits : ∀ c ∈ text, digitValue c < 16) : bytesToHex (hexPairs text) = text.map Char.toLower := by
  induction width generalizing text with
  | zero =>
      obtain rfl := List.length_eq_zero_iff.mp hlength
      rfl
  | succ width ih =>
      match text, hlength with
      | high :: low :: rest, hlength =>
          have hrestLength : rest.length = 2 * width := by
            simp only [List.length_cons] at hlength
            omega
          have hhigh := hdigits high List.mem_cons_self
          have hlow := hdigits low (List.mem_cons_of_mem _ List.mem_cons_self)
          have hrest := ih hrestLength fun c hc =>
            hdigits c (List.mem_cons_of_mem _ (List.mem_cons_of_mem _ hc))
          have hpair := fixedHex_foldl fun c (hmem : c ∈ [high, low]) => by
            rcases List.mem_cons.mp hmem with rfl | hmem
            · exact hhigh
            · rwa [List.mem_singleton.mp hmem]
          have hbyte : (UInt8.ofNat (16 * digitValue high + digitValue low)).toNat =
              16 * digitValue high + digitValue low := by
            rw [UInt8.toNat_ofNat']
            omega
          have hvalue : [high, low].foldl (fun value c => value * 16 + digitValue c) 0 =
              16 * digitValue high + digitValue low := by
            simp only [List.foldl_cons, List.foldl_nil]
            omega
          rw [hvalue] at hpair
          rw [hexPairs, if_pos ⟨hhigh, hlow⟩, bytesToHex_cons, hbyte, hrest]
          exact congrArg (· ++ rest.map Char.toLower) hpair

/-! ## White space -/

theorem isWhitespace_digitChar {digit : Nat} (h : digit < 16) :
    isWhitespace (Nat.digitChar digit) = false := by
  have hall : ∀ d < 16, isWhitespace (Nat.digitChar d) = false := by decide
  exact hall digit h

/-- Text between two characters that are no white space is not trimmed. -/
theorem trim_eq {first last : Char} (middle : List Char) (hfirst : isWhitespace first = false)
    (hlast : isWhitespace last = false) :
    trim (first :: middle ++ [last]) = first :: middle ++ [last] := by
  unfold trim
  rw [List.cons_append, List.dropWhile_cons_of_neg (by simp [hfirst]), ← List.cons_append,
    List.reverse_append, List.reverse_singleton, List.singleton_append,
    List.dropWhile_cons_of_neg (by simp [hlast])]
  simp

end StxShield.Library.JavaScript
