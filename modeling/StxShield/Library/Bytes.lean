import Mathlib.Data.List.Induction
import Mathlib.Data.Nat.Digits.Defs
import Mathlib.Tactic.Ring

/-!
# Byte strings of fixed width

Big-endian encodings of natural numbers, and the fact that a concatenation of
fields determines the fields once the width of every field on one side is
known and no field on the other side is wider.
-/

namespace StxShield.Library

abbrev Bytes : Type := List UInt8

/-- The low `width` bytes of a number, most significant first. -/
def bigEndian : Nat → Nat → Bytes
  | 0, _ => []
  | width + 1, n => UInt8.ofNat (n / 256 ^ width) :: bigEndian width n

/-- The number a byte string denotes, most significant byte first. -/
def bigEndianValue : Bytes → Nat
  | [] => 0
  | byte :: rest => byte.toNat * 256 ^ rest.length + bigEndianValue rest

@[simp]
theorem bigEndian_length (width n : Nat) : (bigEndian width n).length = width := by
  induction width with
  | zero => rfl
  | succ width ih => simp [bigEndian, ih]

theorem bigEndianValue_bigEndian (width n : Nat) :
    bigEndianValue (bigEndian width n) = n % 256 ^ width := by
  induction width with
  | zero => simp [bigEndian, bigEndianValue, Nat.mod_one]
  | succ width ih =>
      have hbyte : (UInt8.ofNat (n / 256 ^ width)).toNat = n / 256 ^ width % 256 := by
        simp
      rw [bigEndian, bigEndianValue, ih, bigEndian_length, hbyte]
      have hsplit : n % (256 ^ width * 256) = n % 256 ^ width + 256 ^ width * (n / 256 ^ width % 256) :=
        Nat.mod_mul
      rw [Nat.pow_succ, hsplit]
      ring

/-- Numbers that fit in the width are determined by their encoding. -/
theorem bigEndian_injective {width m n : Nat} (hm : m < 256 ^ width) (hn : n < 256 ^ width)
    (h : bigEndian width m = bigEndian width n) : m = n := by
  have hvalue := congrArg bigEndianValue h
  rwa [bigEndianValue_bigEndian, bigEndianValue_bigEndian, Nat.mod_eq_of_lt hm,
    Nat.mod_eq_of_lt hn] at hvalue

/-- A number that fits in the low bytes is padded with zero bytes on the left. -/
theorem bigEndian_add {width n : Nat} (pad : Nat) (h : n < 256 ^ width) :
    bigEndian (pad + width) n = List.replicate pad 0 ++ bigEndian width n := by
  induction pad with
  | zero => simp
  | succ pad ih =>
      have hpow : 256 ^ width ≤ 256 ^ (pad + width) :=
        Nat.pow_le_pow_right (by decide) (Nat.le_add_left width pad)
      have hzero : n / 256 ^ (pad + width) = 0 := Nat.div_eq_of_lt (Nat.lt_of_lt_of_le h hpow)
      rw [Nat.add_right_comm, bigEndian, hzero, ih, List.replicate_succ, List.cons_append]
      rfl

/-- The loop that shifts in one byte after another. -/
def shiftIn (x : Nat) (bytes : Bytes) : Nat := bytes.foldl (fun x b => x <<< 8 ||| b.toNat) x

theorem shiftIn_eq (x : Nat) (bytes : Bytes) :
    shiftIn x bytes = x * 256 ^ bytes.length + bigEndianValue bytes := by
  induction bytes generalizing x with
  | nil => simp [shiftIn, bigEndianValue]
  | cons byte rest ih =>
      have hstep : x <<< 8 ||| byte.toNat = x * 256 + byte.toNat := by
        rw [← Nat.shiftLeft_add_eq_or_of_lt byte.toNat_lt, Nat.shiftLeft_eq]
      have hloop : shiftIn x (byte :: rest) = shiftIn (x <<< 8 ||| byte.toNat) rest := rfl
      rw [hloop, ih, hstep, bigEndianValue, List.length_cons, Nat.pow_succ]
      ring

/-- The last byte is the low one. -/
theorem bigEndian_succ_last (width n : Nat) :
    bigEndian (width + 1) n = bigEndian width (n / 256) ++ [UInt8.ofNat (n % 256)] := by
  induction width generalizing n with
  | zero =>
      have hbyte : UInt8.ofNat (n % 256) = UInt8.ofNat n := UInt8.ofNat_mod_size
      simp [bigEndian, hbyte]
  | succ width ih =>
      have hhead : n / 256 ^ (width + 1) = n / 256 / 256 ^ width := by
        rw [Nat.div_div_eq_div_mul, Nat.pow_succ, Nat.mul_comm]
      rw [bigEndian, ih, hhead]
      rfl

theorem bigEndianValue_lt (bytes : Bytes) : bigEndianValue bytes < 256 ^ bytes.length := by
  induction bytes with
  | nil => exact Nat.one_pos
  | cons byte rest ih =>
      have hbyte : byte.toNat + 1 ≤ 256 := byte.toNat_lt
      have hscaled := Nat.mul_le_mul_right (256 ^ rest.length) hbyte
      rw [bigEndianValue, List.length_cons, Nat.pow_succ, Nat.mul_comm (256 ^ rest.length)]
      rw [Nat.add_mul, Nat.one_mul] at hscaled
      omega

/-- Bytes are the encoding of the number they denote. -/
theorem bigEndian_bigEndianValue (bytes : Bytes) :
    bigEndian bytes.length (bigEndianValue bytes) = bytes := by
  induction bytes using List.reverseRecOn with
  | nil => rfl
  | append_singleton front byte ih =>
      have hvalue : bigEndianValue (front ++ [byte]) = bigEndianValue front * 256 + byte.toNat := by
        clear ih
        induction front with
        | nil => simp [bigEndianValue]
        | cons first rest ih =>
            rw [List.cons_append, bigEndianValue, ih, bigEndianValue, List.length_append,
              List.length_singleton]
            ring
      have hbyte : byte.toNat < 256 := byte.toNat_lt
      have hfront : (bigEndianValue front * 256 + byte.toNat) / 256 = bigEndianValue front := by omega
      have hlast : (bigEndianValue front * 256 + byte.toNat) % 256 = byte.toNat := by omega
      rw [List.length_append, List.length_singleton, bigEndian_succ_last, hvalue, hfront, hlast, ih,
        UInt8.ofNat_toNat]

@[simp]
theorem bigEndian_zero (width : Nat) : bigEndian width 0 = List.replicate width 0 := by
  induction width with
  | zero => rfl
  | succ width ih => simp [bigEndian, ih, List.replicate_succ]

/-! ## Concatenations of fields -/

section Fields

variable {α : Type}

/-- The width of a concatenation is at most the number of fields times the bound. -/
theorem flatten_length_le {width : Nat} {fields : List (List α)}
    (h : ∀ field ∈ fields, field.length ≤ width) :
    fields.flatten.length ≤ fields.length * width := by
  induction fields with
  | nil => simp
  | cons field rest ih =>
      have hhead := h field List.mem_cons_self
      have htail := ih fun other hother => h other (List.mem_cons_of_mem field hother)
      simp only [List.flatten_cons, List.length_append, List.length_cons, Nat.add_mul, Nat.one_mul]
      omega

theorem flatten_length_eq {width : Nat} {fields : List (List α)}
    (h : ∀ field ∈ fields, field.length = width) :
    fields.flatten.length = fields.length * width := by
  induction fields with
  | nil => simp
  | cons field rest ih =>
      have hhead := h field List.mem_cons_self
      have htail := ih fun other hother => h other (List.mem_cons_of_mem field hother)
      simp only [List.flatten_cons, List.length_append, List.length_cons, Nat.add_mul, Nat.one_mul]
      omega

/-- As many fields, none wider than the full-width fields on the other side:
equal concatenations have equal fields.  No byte can move across a boundary,
because a narrower field could not be made up for by its neighbours. -/
theorem fields_eq_of_flatten_eq {width : Nat} {narrow full : List (List α)}
    (hcount : narrow.length = full.length)
    (hnarrow : ∀ field ∈ narrow, field.length ≤ width)
    (hfull : ∀ field ∈ full, field.length = width)
    (h : narrow.flatten = full.flatten) : narrow = full := by
  induction narrow generalizing full with
  | nil =>
      cases full with
      | nil => rfl
      | cons _ _ => cases hcount
  | cons field rest ih =>
      cases full with
      | nil => cases hcount
      | cons target others =>
          have hrestCount : rest.length = others.length := Nat.succ.inj hcount
          have hrestNarrow : ∀ other ∈ rest, other.length ≤ width :=
            fun other hother => hnarrow other (List.mem_cons_of_mem field hother)
          have hrestFull : ∀ other ∈ others, other.length = width :=
            fun other hother => hfull other (List.mem_cons_of_mem target hother)
          have hle := flatten_length_le hrestNarrow
          have heq := flatten_length_eq hrestFull
          have hfield := hnarrow field List.mem_cons_self
          have htarget := hfull target List.mem_cons_self
          have htotal := congrArg List.length h
          simp only [List.flatten_cons, List.length_append] at htotal
          rw [hrestCount] at hle
          have hwidth : field.length = target.length := by omega
          obtain ⟨hhead, htail⟩ := List.append_inj h hwidth
          rw [hhead, ih hrestCount hrestNarrow hrestFull htail]

/-- Fields of one width are read off their concatenation. -/
theorem flatten_injective {width : Nat} (hwidth : 0 < width) {left right : List (List α)}
    (hleft : ∀ field ∈ left, field.length = width)
    (hright : ∀ field ∈ right, field.length = width) (h : left.flatten = right.flatten) :
    left = right := by
  have hlength := congrArg List.length h
  rw [flatten_length_eq hleft, flatten_length_eq hright] at hlength
  have hcount : left.length = right.length := Nat.eq_of_mul_eq_mul_right hwidth hlength
  exact fields_eq_of_flatten_eq hcount (fun field hfield => Nat.le_of_eq (hleft field hfield))
    hright h

end Fields

end StxShield.Library
