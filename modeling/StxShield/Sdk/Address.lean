import Mathlib.Data.List.TakeWhile
import StxShield.Sdk.Wire

/-!
# Shield addresses

An address is two coordinates and a viewing key, written in hexadecimal one after
another.  Its reader throws on what is no number in the two coordinates; of the viewing
key it makes something whatever is there.
-/

namespace StxShield.Sdk

open Library JavaScript

def encodeAddress (a : ShieldAddress) : String :=
  String.ofList ("stxsh1".toList ++ (toHex32 a.ownerPkX).toList.drop 2 ++
    (toHex32 a.ownerPkY).toList.drop 2 ++ bytesToHex a.viewingPk)

/-! ## Text -/

/-- `text.trimEnd()` -/
def trimEnd (text : List Char) : List Char := (text.reverse.dropWhile isWhitespace).reverse

theorem dropWhile_concat {p : Char → Bool} {last : Char} (text : List Char) (h : p last = false) :
    (text ++ [last]).dropWhile p = text.dropWhile p ++ [last] := by
  induction text with
  | nil => exact List.dropWhile_cons_of_neg (by simp [h])
  | cons c rest ih =>
      rw [List.cons_append, List.dropWhile_cons, List.dropWhile_cons, ih]
      split
      · rfl
      · rfl

/-- Only what follows the mark is trimmed, and only at its end. -/
theorem trim_marked (text : List Char) :
    trim ('0' :: 'x' :: text) = '0' :: 'x' :: trimEnd text := by
  have hfront : ('0' :: 'x' :: text).dropWhile isWhitespace = '0' :: 'x' :: text :=
    List.dropWhile_cons_of_neg (by decide)
  have hreverse : ('0' :: 'x' :: text).reverse = text.reverse ++ ['x'] ++ ['0'] := by
    rw [List.reverse_cons, List.reverse_cons]
  unfold trim trimEnd
  rw [hfront, hreverse, dropWhile_concat _ (by decide), dropWhile_concat _ (by decide)]
  simp only [List.reverse_append, List.reverse_singleton, List.singleton_append]

theorem bigInt_marked (text : List Char) {x : Int} :
    bigInt (String.ofList ('0' :: 'x' :: text)) = .ok x ↔
      ∃ n : Nat, digitsValue 16 (trimEnd text) = some n ∧ x = n := by
  unfold bigInt
  rw [String.toList_ofList, trim_marked]
  dsimp only
  cases hvalue : digitsValue 16 (trimEnd text) with
  | none => simp [hvalue]
  | some n => simp [hvalue, eq_comm]

/-- Digits and then blanks. -/
def Numeral (text : List Char) : Prop :=
  ∃ digits blanks, text = digits ++ blanks ∧ digits ≠ [] ∧
    (∀ c ∈ digits, digitValue c < 16) ∧ ∀ c ∈ blanks, isWhitespace c = true

theorem trimEnd_append {digits blanks : List Char} (hdigits : ∀ c ∈ digits, digitValue c < 16)
    (hblanks : ∀ c ∈ blanks, isWhitespace c = true) : trimEnd (digits ++ blanks) = digits := by
  have hreverse : ∀ c ∈ blanks.reverse, isWhitespace c = true :=
    fun c hmem => hblanks c (List.mem_reverse.mp hmem)
  have hkept : digits.reverse.dropWhile isWhitespace = digits.reverse := by
    cases hcases : digits.reverse with
    | nil => rfl
    | cons c rest =>
        have hmem : c ∈ digits := List.mem_reverse.mp (hcases ▸ List.mem_cons_self)
        have hdigit : isWhitespace c = false :=
          forall_hexDigit (P := fun c => isWhitespace c = false) (forall_of_all (by decide))
            (hdigits c hmem)
        exact List.dropWhile_cons_of_neg (by simp [hdigit])
  unfold trimEnd
  rw [List.reverse_append, List.dropWhile_append_of_pos hreverse, hkept, List.reverse_reverse]

theorem numeral_iff {text : List Char} :
    Numeral text ↔ ∃ n, digitsValue 16 (trimEnd text) = some n := by
  constructor
  · rintro ⟨digits, blanks, rfl, hsome, hdigits, hblanks⟩
    rw [trimEnd_append hdigits hblanks]
    refine ⟨_, if_pos ⟨hsome, ?_⟩⟩
    exact List.all_eq_true.mpr fun c hmem => decide_eq_true (hdigits c hmem)
  · rintro ⟨n, hn⟩
    unfold digitsValue at hn
    split at hn
    case isTrue hvalid =>
      refine ⟨trimEnd text, (text.reverse.takeWhile isWhitespace).reverse, ?_, hvalid.1, ?_, ?_⟩
      · unfold trimEnd
        rw [← List.reverse_append, List.takeWhile_append_dropWhile, List.reverse_reverse]
      · exact fun c hmem => of_decide_eq_true (List.all_eq_true.mp hvalid.2 c hmem)
      · exact fun c hmem => List.mem_takeWhile_imp (List.mem_reverse.mp hmem)
    case isFalse => cases hn

/-- What is read of sixty-four digits is written as these, in lower case. -/
theorem toHex32_of_numeral {text : List Char} (hlength : text.length = 64)
    (hdigits : ∀ c ∈ text, digitValue c < 16) {x : Int}
    (h : bigInt (String.ofList ('0' :: 'x' :: text)) = .ok x) :
    (toHex32 x).toList.drop 2 = text.map Char.toLower := by
  obtain ⟨n, hn, rfl⟩ := (bigInt_marked text).mp h
  have htrim := trimEnd_append hdigits fun c (hmem : c ∈ ([] : List Char)) =>
    absurd hmem List.not_mem_nil
  rw [List.append_nil] at htrim
  rw [htrim] at hn
  unfold digitsValue at hn
  split at hn
  case isTrue =>
    have hvalue := fixedHex_foldl hdigits
    rw [Option.some.inj hn, hlength] at hvalue
    have hbound : n < 16 ^ 64 := by
      rw [← Option.some.inj hn, ← hlength]
      exact foldl_digits_lt hdigits
    rw [toHex32_natCast hbound, String.toList_ofList]
    exact hvalue
  case isFalse => cases hn

/-! ## Reading an address -/

/-- The three slices that an address is cut into. -/
structure Slices (s : String) (x y key : List Char) : Prop where
  text : ∃ rest, s.toList = "stxsh1".toList ++ rest ∧ codeUnits rest = x ++ y ++ key
  x : x.length = 64
  y : y.length = 64
  key : key.length = 64

variable {s : String} {a : ShieldAddress} {x y key : List Char}

/-- The numbers and the key that are read of three slices. -/
theorem decodeAddress_slices (h : Slices s x y key) :
    decodeAddress s = (do
      let ownerPkX ← bigInt (String.ofList ('0' :: 'x' :: x))
      let ownerPkY ← bigInt (String.ofList ('0' :: 'x' :: y))
      pure { ownerPkX, ownerPkY, viewingPk := hexToBytes (String.ofList key) }) := by
  obtain ⟨rest, htext, hunits⟩ := h.text
  have hmark : "stxsh1".toList.isPrefixOf s.toList = true :=
    List.isPrefixOf_iff_prefix.mpr ⟨rest, htext.symm⟩
  have hdrop : s.toList.drop 6 = rest := by
    rw [htext]
    rfl
  have hlength : ¬ (x ++ y ++ key).length ≠ 64 + 64 + 64 := by
    rw [List.length_append, List.length_append, h.x, h.y, h.key]
    exact not_not.mpr rfl
  have hx : (x ++ y ++ key).take 64 = x := by
    rw [List.append_assoc, ← h.x, List.take_left]
  have hy : ((x ++ y ++ key).drop 64).take 64 = y := by
    rw [List.append_assoc, ← h.x, List.drop_left, h.x, ← h.y, List.take_left]
  have hkey : (x ++ y ++ key).drop 128 = key := by
    have hfront : 128 = (x ++ y).length := by rw [List.length_append, h.x, h.y]
    rw [hfront, List.drop_left]
  unfold decodeAddress
  simp only [hmark, not_true_eq_false, if_false, hdrop, hunits, hlength, hx, hy, hkey]

/-- An address that is read is made of three slices. -/
theorem slices_of_decodeAddress (h : decodeAddress s = .ok a) :
    ∃ x y key, Slices s x y key := by
  unfold decodeAddress at h
  split at h
  case isTrue => cases h
  case isFalse hmark =>
    obtain ⟨rest, hrest⟩ := List.isPrefixOf_iff_prefix.mp (not_not.mp hmark)
    have hdrop : s.toList.drop 6 = rest := by
      rw [← hrest]
      rfl
    simp only [hdrop] at h
    split at h
    case isTrue => cases h
    case isFalse hlength =>
      have hall : (codeUnits rest).length = 192 := not_not.mp hlength
      refine ⟨(codeUnits rest).take 64, ((codeUnits rest).drop 64).take 64,
        (codeUnits rest).drop 128, ⟨rest, hrest.symm, ?_⟩, ?_, ?_, ?_⟩
      · have hback : (codeUnits rest).drop 128 = ((codeUnits rest).drop 64).drop 64 := by
          rw [List.drop_drop]
        rw [hback, List.append_assoc, List.take_append_drop, List.take_append_drop]
      · rw [List.length_take, hall]
        rfl
      · rw [List.length_take, List.length_drop, hall]
        rfl
      · rw [List.length_drop, hall]

theorem decodeAddress_ok (h : Slices s x y key) :
    decodeAddress s = .ok a ↔
      bigInt (String.ofList ('0' :: 'x' :: x)) = .ok a.ownerPkX ∧
        bigInt (String.ofList ('0' :: 'x' :: y)) = .ok a.ownerPkY ∧
        hexToBytes (String.ofList key) = a.viewingPk := by
  rw [decodeAddress_slices h]
  simp only [except_bind_ok, except_pure_ok]
  constructor
  · rintro ⟨ownerPkX, hx, ownerPkY, hy, rfl⟩
    exact ⟨hx, hy, rfl⟩
  · rintro ⟨hx, hy, hkey⟩
    exact ⟨_, hx, _, hy, by rw [hkey]⟩

/-! ## Writing an address -/

/-- Both coordinates are read of digits, with blanks behind them at most. -/
def Accepted (s : String) : Prop :=
  ∃ x y key, Slices s x y key ∧ Numeral x ∧ Numeral y

theorem accepted_iff : Accepted s ↔ ∃ a, decodeAddress s = .ok a := by
  constructor
  · rintro ⟨x, y, key, hslices, hx, hy⟩
    obtain ⟨m, hm⟩ := numeral_iff.mp hx
    obtain ⟨n, hn⟩ := numeral_iff.mp hy
    refine ⟨{ ownerPkX := m, ownerPkY := n, viewingPk := hexToBytes (String.ofList key) }, ?_⟩
    exact (decodeAddress_ok hslices).mpr
      ⟨(bigInt_marked x).mpr ⟨m, hm, rfl⟩, (bigInt_marked y).mpr ⟨n, hn, rfl⟩, rfl⟩
  · rintro ⟨a, ha⟩
    obtain ⟨x, y, key, hslices⟩ := slices_of_decodeAddress ha
    obtain ⟨hx, hy, -⟩ := (decodeAddress_ok hslices).mp ha
    obtain ⟨m, hm, -⟩ := (bigInt_marked x).mp hx
    obtain ⟨n, hn, -⟩ := (bigInt_marked y).mp hy
    exact ⟨x, y, key, hslices, numeral_iff.mpr ⟨m, hm⟩, numeral_iff.mpr ⟨n, hn⟩⟩

/-- Nothing but hexadecimal digits follows the prefix. -/
def AllDigits (s : String) : Prop := ∀ c ∈ s.toList.drop 6, digitValue c < 16

/-- The address is written as the text, up to the case of the digits. -/
def Spells (a : ShieldAddress) (s : String) : Prop :=
  (encodeAddress a).toList = s.toList.map Char.toLower

theorem toHex32_digits {n : Nat} {c : Char} (h : c ∈ (toHex32 n).toList.drop 2) :
    digitValue c < 16 := by
  unfold toHex32 padStart at h
  rw [textOf_natCast, String.toList_ofList] at h
  rcases List.mem_append.mp h with hpad | hdigit
  · rw [List.eq_of_mem_replicate hpad]
    decide
  · exact digitValue_lt_of_mem (by decide) le_rfl hdigit

theorem drop_mark (rest : List Char) : ("stxsh1".toList ++ rest).drop 6 = rest := rfl

/-- The text of an address. -/
theorem encodeAddress_toList (a : ShieldAddress) :
    (encodeAddress a).toList = "stxsh1".toList ++ ((toHex32 a.ownerPkX).toList.drop 2 ++
      (toHex32 a.ownerPkY).toList.drop 2 ++ bytesToHex a.viewingPk) := by
  unfold encodeAddress
  rw [String.toList_ofList]
  simp only [List.append_assoc]

/-- What is written of natural coordinates is made of digits. -/
theorem encodeAddress_digits {m n : Nat} (hx : a.ownerPkX = m) (hy : a.ownerPkY = n) :
    AllDigits (encodeAddress a) := by
  intro c hmem
  rw [encodeAddress_toList, drop_mark, hx, hy, List.mem_append, List.mem_append] at hmem
  rcases hmem with (hmem | hmem) | hmem
  · exact toHex32_digits hmem
  · exact toHex32_digits hmem
  · exact digitValue_lt_of_mem_bytesToHex hmem

/-- The case of a digit does not change its value. -/
theorem digitValue_lt_of_toLower {c : Char} (h : digitValue c.toLower < 16) : digitValue c < 16 := by
  by_cases hupper : c.val ≥ 'A'.val ∧ c.val ≤ 'Z'.val
  · have hall : ∀ code ≤ 90, digitValue (Char.ofNat code).toLower < 16 →
        digitValue (Char.ofNat code) < 16 := by decide
    have hcode : c.toNat ≤ 90 := hupper.2
    have hcase := hall c.toNat hcode
    rw [Char.ofNat_toNat] at hcase
    exact hcase h
  · have hsame : c.toLower = c := dif_neg hupper
    rwa [hsame] at h

/-- An address that spells the text shows that it has digits only. -/
theorem allDigits_of_spells (ha : decodeAddress s = .ok a) (h : Spells a s) : AllDigits s := by
  obtain ⟨x, y, key, hslices⟩ := slices_of_decodeAddress ha
  obtain ⟨hx, hy, -⟩ := (decodeAddress_ok hslices).mp ha
  obtain ⟨m, -, hm⟩ := (bigInt_marked x).mp hx
  obtain ⟨n, -, hn⟩ := (bigInt_marked y).mp hy
  have hdigits := encodeAddress_digits hm hn
  intro c hmem
  apply digitValue_lt_of_toLower
  apply hdigits
  rw [h, ← List.map_drop]
  exact List.mem_map_of_mem hmem

/-- Of digits alone an address is read that spells them. -/
theorem spells_of_allDigits (ha : decodeAddress s = .ok a) (h : AllDigits s) : Spells a s := by
  obtain ⟨x, y, key, hslices⟩ := slices_of_decodeAddress ha
  obtain ⟨hx, hy, hkey⟩ := (decodeAddress_ok hslices).mp ha
  obtain ⟨rest, htext, hunits⟩ := hslices.text
  have hrest : ∀ c ∈ rest, digitValue c < 16 := by
    intro c hmem
    apply h
    rw [htext]
    exact hmem
  rw [codeUnits_of_digits hrest] at hunits
  subst hunits
  have hdigits : ∀ part, part ⊆ x ++ y ++ key → ∀ c ∈ part, digitValue c < 16 :=
    fun part hpart c hmem => hrest c (hpart hmem)
  have hkeyDigits := hdigits key (List.subset_append_right _ _)
  have hbytes : bytesToHex a.viewingPk = key.map Char.toLower := by
    rw [← hkey, hexToBytes_of_digits hkeyDigits (by rw [hslices.key])]
    have hlength : key.length = 2 * 32 := hslices.key
    exact bytesToHex_hexPairs hlength hkeyDigits
  have hfirst := toHex32_of_numeral hslices.x (hdigits x (by simp)) hx
  have hsecond := toHex32_of_numeral hslices.y (hdigits y (by simp)) hy
  have hmark : "stxsh1".toList.map Char.toLower = "stxsh1".toList := by decide
  unfold Spells
  rw [encodeAddress_toList, hfirst, hsecond, hbytes, htext, List.map_append, List.map_append,
    List.map_append, hmark]

/-- An address in range is read back as it was written. -/
theorem decodeAddress_encodeAddress {m n : Nat} (hx : a.ownerPkX = m) (hy : a.ownerPkY = n)
    (hm : m < 16 ^ 64) (hn : n < 16 ^ 64) (hkey : a.viewingPk.length = 32) :
    decodeAddress (encodeAddress a) = .ok a := by
  have hdigits := encodeAddress_digits hx hy
  have hlength : (bytesToHex a.viewingPk).length = 64 := by rw [bytesToHex_length, hkey]
  have hmark : ∀ k, k < 16 ^ 64 → (toHex32 (k : Nat)).toList.drop 2 = fixedHex 64 k := by
    intro k hk
    rw [toHex32_natCast hk, String.toList_ofList]
    rfl
  have htext : (encodeAddress a).toList =
      "stxsh1".toList ++ (fixedHex 64 m ++ fixedHex 64 n ++ bytesToHex a.viewingPk) := by
    rw [encodeAddress_toList, hx, hy, hmark m hm, hmark n hn]
  have hslices : Slices (encodeAddress a) (fixedHex 64 m) (fixedHex 64 n)
      (bytesToHex a.viewingPk) := by
    refine ⟨⟨_, htext, codeUnits_of_digits fun c hmem => hdigits c ?_⟩, fixedHex_length _ _,
      fixedHex_length _ _, hlength⟩
    rw [htext, drop_mark]
    exact hmem
  rw [decodeAddress_ok hslices, hx, hy]
  refine ⟨?_, ?_, ?_⟩
  · rw [← toHex32_natCast hm, bigInt_toHex32 hm]
  · rw [← toHex32_natCast hn, bigInt_toHex32 hn]
  · rw [hexToBytes_of_digits (fun c => digitValue_lt_of_mem_bytesToHex) (by rw [hlength]),
      hexPairs_bytesToHex]

/-- An address whose coordinates and key are in range survives being written and read.
A text is refused, or spelled by the address that is read of it, exactly if it is no
address at all or has digits only. -/
theorem shield_address_codec (s : String) :
    (∀ a : ShieldAddress, 0 ≤ a.ownerPkX → a.ownerPkX < 2 ^ 256 → 0 ≤ a.ownerPkY →
      a.ownerPkY < 2 ^ 256 → a.viewingPk.length = 32 → decodeAddress (encodeAddress a) = .ok a) ∧
    ((∀ a, decodeAddress s = .ok a → Spells a s) ↔ (Accepted s → AllDigits s)) := by
  refine ⟨?_, ⟨fun hspells haccepted => ?_, fun hdigits a ha => ?_⟩⟩
  · intro a hx hxBound hy hyBound hkey
    obtain ⟨m, hm⟩ := Int.eq_ofNat_of_zero_le hx
    obtain ⟨n, hn⟩ := Int.eq_ofNat_of_zero_le hy
    exact decodeAddress_encodeAddress hm hn (by omega) (by omega) hkey
  · obtain ⟨a, ha⟩ := accepted_iff.mp haccepted
    exact allDigits_of_spells ha (hspells a ha)
  · exact spells_of_allDigits ha (hdigits (accepted_iff.mpr ⟨a, ha⟩))

namespace Sample

/-- The largest coordinate there is room for, and a zero. -/
def address : ShieldAddress where
  ownerPkX := 2 ^ 256 - 1
  ownerPkY := 0
  viewingPk := List.replicate 32 255

/-- No character of the viewing key is a digit. -/
def mistyped : String :=
  String.ofList ("stxsh1".toList ++
    (List.replicate 64 '1' ++ List.replicate 64 '1' ++ List.replicate 64 'z'))

end Sample

theorem shield_address_codec_limits :
    decodeAddress (encodeAddress Sample.address) = .ok Sample.address :=
  (shield_address_codec "").1 Sample.address (by decide) (by decide) (by decide) (by decide) rfl

/-- A text without a viewing key is taken for an address. -/
theorem shield_address_mistyped :
    ¬ ((∀ a : ShieldAddress, 0 ≤ a.ownerPkX → a.ownerPkX < 2 ^ 256 → 0 ≤ a.ownerPkY →
        a.ownerPkY < 2 ^ 256 → a.viewingPk.length = 32 → decodeAddress (encodeAddress a) = .ok a) ∧
      ∀ s a, decodeAddress s = .ok a → Spells a s) := by
  rintro ⟨-, halways⟩
  have hones : Numeral (List.replicate 64 '1') := by
    refine ⟨_, [], (List.append_nil _).symm, List.cons_ne_nil _ _, fun c hmem => ?_,
      fun c hmem => ?_⟩
    · rw [List.eq_of_mem_replicate hmem]
      decide
    · exact absurd hmem List.not_mem_nil
  have haccepted : Accepted Sample.mistyped := by
    refine ⟨List.replicate 64 '1', List.replicate 64 '1', List.replicate 64 'z',
      ⟨⟨_, String.toList_ofList, codeUnits_of_basic fun c hmem => ?_⟩, rfl, rfl, rfl⟩, hones, hones⟩
    simp only [List.mem_append, List.mem_replicate] at hmem
    rcases hmem with (⟨-, rfl⟩ | ⟨-, rfl⟩) | ⟨-, rfl⟩
    · decide
    · decide
    · decide
  obtain ⟨a, ha⟩ := accepted_iff.mp haccepted
  have hdigits := allDigits_of_spells ha (halways _ a ha)
  have hletter : 'z' ∈ Sample.mistyped.toList.drop 6 := by
    have hkey : 'z' ∈ List.replicate 64 '1' ++ List.replicate 64 '1' ++ List.replicate 64 'z' :=
      List.mem_append_right _ (List.mem_replicate.mpr ⟨by decide, rfl⟩)
    unfold Sample.mistyped
    generalize List.replicate 64 '1' ++ List.replicate 64 '1' ++ List.replicate 64 'z' = rest
      at hkey ⊢
    rwa [String.toList_ofList, drop_mark]
  exact absurd (hdigits 'z' hletter) (by decide)

end StxShield.Sdk
