import StxShield.Sdk.Notes

/-!
# What the client writes and the relayer reads

The client sends field elements, roots and amounts as text.  Whoever reads the text
gets back the bytes, or the number, that were written.
-/

namespace StxShield.Sdk

open Library JavaScript Circuit RootPublisher Relay

/-! ## Field elements -/

theorem f_ok {x : Int} {field : Fr} : f x = .ok field ↔ x = field.val := by
  unfold f
  constructor
  · intro h
    split at h
    case isTrue hfits =>
      cases h
      exact (Int.toNat_of_nonneg hfits.1).symm
    case isFalse => cases h
  · rintro rfl
    rw [dif_pos ⟨Int.natCast_nonneg _, field.isLt⟩]
    rfl

/-- The bytes of a field element are 32. -/
theorem encode_of_f {b : Bytes} {field : Fr} (hlength : b.length = 32)
    (h : f (bytesToBig b) = .ok field) : encode field = b := by
  have hvalue : bigEndianValue b = field.val := Int.ofNat.inj (f_ok.mp h)
  unfold encode
  rw [← hvalue, ← hlength, bigEndian_bigEndianValue]

/-! ## Hexadecimal text -/

theorem textOf_natCast (radix n : Nat) : textOf radix n = Nat.toDigits radix n := by
  unfold textOf
  rw [if_neg (Int.not_lt.mpr (Int.natCast_nonneg n)), Int.toNat_natCast]

theorem toHex32_natCast {n : Nat} (h : n < 16 ^ 64) :
    toHex32 n = String.ofList ('0' :: 'x' :: fixedHex 64 n) := by
  unfold toHex32
  rw [textOf_natCast, padStart_toDigits (by decide) h]

theorem bufBytes_marked (digits : List Char) :
    bufBytes (String.ofList ('0' :: 'x' :: digits)) = hexPairs digits := by
  unfold bufBytes hasHexMark
  rw [String.toList_ofList]
  rfl

/-- A field element is sent as the bytes of its encoding. -/
theorem bufBytes_toHex32 {x : Int} {field : Fr} (h : f x = .ok field) :
    bufBytes (toHex32 x) = encode field := by
  obtain rfl := f_ok.mp h
  have hwide : fieldModulus ≤ 16 ^ 64 := by decide
  have hfits : field.val < 16 ^ 64 := Nat.lt_of_lt_of_le field.isLt hwide
  rw [toHex32_natCast hfits, bufBytes_marked]
  exact hexPairs_fixedHex 32 field.val

theorem bufBytes_hexText (b : Bytes) : bufBytes (hexText b) = b := by
  unfold hexText
  rw [bufBytes_marked, hexPairs_bytesToHex]

/-- Digits are read in pairs. -/
theorem parseBytes_of_digits {text : List Char} (h : ∀ c ∈ text, digitValue c < 16) :
    parseBytes text = hexPairs text := by
  induction text using parseBytes.induct with
  | case1 high low rest ih =>
      have hhigh := h high List.mem_cons_self
      have hlow := h low (List.mem_cons_of_mem _ List.mem_cons_self)
      have hrest := ih fun c hc => h c (List.mem_cons_of_mem _ (List.mem_cons_of_mem _ hc))
      rw [parseBytes, hexPairs, if_pos ⟨hhigh, hlow⟩, hrest, parseByte, if_pos hhigh, if_pos hlow]
  | case2 text hshort =>
      rw [parseBytes, hexPairs]
      · exact hshort
      · exact hshort

/-- Bytes are read back as they were printed. -/
theorem parseBytes_bytesToHex (bytes : Bytes) : parseBytes (bytesToHex bytes) = bytes := by
  rw [parseBytes_of_digits fun c => digitValue_lt_of_mem_bytesToHex, hexPairs_bytesToHex]

/-- An even number of digits without a mark. -/
theorem hexToBytes_of_digits {text : List Char} (hdigits : ∀ c ∈ text, digitValue c < 16)
    (heven : text.length % 2 = 0) : hexToBytes (String.ofList text) = hexPairs text := by
  have hunmarked : hasHexMark (String.ofList text) = false := by
    unfold hasHexMark
    rw [String.toList_ofList]
    by_contra hmarked
    rw [Bool.not_eq_false, List.isPrefixOf_iff_prefix] at hmarked
    have hx := hdigits 'x' (hmarked.subset (List.mem_cons_of_mem _ List.mem_cons_self))
    exact absurd hx (by decide)
  have hraw : codeUnits (withoutMark (String.ofList text)) = text := by
    rw [withoutMark, hunmarked, String.toList_ofList]
    exact codeUnits_of_digits hdigits
  unfold hexToBytes
  simp only [hraw]
  rw [if_neg (by omega), parseBytes_of_digits hdigits]

theorem hexToBytes_hexText (b : Bytes) : hexToBytes (hexText b) = b := by
  have hraw : withoutMark (hexText b) = bytesToHex b := by
    unfold withoutMark hexText hasHexMark
    rw [String.toList_ofList]
    rfl
  have hunits : codeUnits (bytesToHex b) = bytesToHex b :=
    codeUnits_of_digits fun c => digitValue_lt_of_mem_bytesToHex
  have heven : ¬ (bytesToHex b).length % 2 = 1 := by
    rw [bytesToHex_length]
    omega
  unfold hexToBytes
  simp only [hraw, hunits]
  rw [if_neg heven, parseBytes_bytesToHex]

/-- The big integer that is read is the one written. -/
theorem bigInt_toHex32 {n : Nat} (h : n < 16 ^ 64) : bigInt (toHex32 n) = .ok n := by
  have hlast : isWhitespace (Nat.digitChar (n % 16)) = false :=
    isWhitespace_digitChar (Nat.mod_lt n (by decide))
  have hsplit : fixedHex 64 n = fixedHex 63 (n / 16) ++ [Nat.digitChar (n % 16)] := rfl
  have htrim : trim ('0' :: 'x' :: fixedHex 64 n) = '0' :: 'x' :: fixedHex 64 n := by
    rw [hsplit]
    exact trim_eq ('x' :: fixedHex 63 (n / 16)) (by decide) hlast
  unfold bigInt
  rw [toHex32_natCast h, String.toList_ofList, htrim]
  simp only [digitsValue_fixedHex (by decide : 0 < 64) h]
  rfl

theorem length_of_isBytes32 {b : Bytes} (h : isBytes32 (hexText b) = true) : b.length = 32 := by
  unfold isBytes32 hexText at h
  rw [String.toList_ofList] at h
  simp only [Bool.and_eq_true, decide_eq_true_eq, List.drop_succ_cons, List.drop_zero,
    bytesToHex_length] at h
  omega

/-! ## Decimal text -/

theorem bigIntOf_textOf (n : Nat) : bigIntOf (String.ofList (textOf 10 n)) = n := by
  unfold bigIntOf
  rw [String.toList_ofList, textOf_natCast, digitsValue_toDigits n (by decide) (by decide)]
  rfl

end StxShield.Sdk
