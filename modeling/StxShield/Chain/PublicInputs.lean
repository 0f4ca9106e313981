import StxShield.Chain.World

/-!
# Field-element encodings

`fe-uint` and `fe-principal`, which the pools share word for word: integers
are padded on the left to 32 bytes, principals are hashed and get a zero byte
in front so that the value stays below the field modulus.
-/

namespace StxShield

open Library

/-- `(slice? bytes left right)` within range. -/
def slice (bytes : Bytes) (left right : Nat) : Bytes := (bytes.drop left).take (right - left)

/-- `to-consensus-buff?` of a `uint`: the type prefix and 16 big-endian bytes. -/
def uintConsensusBuff (n : Nat) : Bytes := 1 :: bigEndian 16 n

/-- `FE-PAD` -/
def fePad : Bytes := List.replicate 16 0

def feUint (n : Nat) : Bytes := fePad ++ slice (uintConsensusBuff n) 1 17

def fePrincipal (P : Primitives) (who : Principal) : Bytes :=
  0 :: slice (P.sha256 (P.consensusBuff who)).bytes 1 32

theorem slice_uintConsensusBuff (n : Nat) :
    slice (uintConsensusBuff n) 1 17 = bigEndian 16 n := by
  have hlength : (bigEndian 16 n).length ≤ 16 := by simp
  simp [slice, uintConsensusBuff, List.take_of_length_le hlength]

/-- The padded slice is the 32-byte big-endian encoding. -/
theorem feUint_eq {n : Nat} (h : n < 2 ^ 128) : feUint n = bigEndian 32 n := by
  have hpad : bigEndian (16 + 16) n = List.replicate 16 0 ++ bigEndian 16 n :=
    bigEndian_add 16 (by simpa using h)
  unfold feUint fePad
  rw [slice_uintConsensusBuff]
  exact hpad.symm

@[simp]
theorem feUint_length (n : Nat) : (feUint n).length = 32 := by
  unfold feUint fePad
  rw [slice_uintConsensusBuff]
  simp

@[simp]
theorem fePrincipal_length (P : Primitives) (who : Principal) :
    (fePrincipal P who).length = 32 := by
  have hsha := P.sha256_length (P.consensusBuff who)
  simp [fePrincipal, slice, hsha]

theorem feUint_injective {m n : Nat} (hm : m < 2 ^ 128) (hn : n < 2 ^ 128)
    (h : feUint m = feUint n) : m = n := by
  rw [feUint_eq hm, feUint_eq hn] at h
  have hwide : (2 : Nat) ^ 128 ≤ 256 ^ 32 := by decide
  exact bigEndian_injective (by omega) (by omega) h

/-! ## Proof and fee types -/

def proofTypeShield : Nat := 1
def proofTypeTransfer : Nat := 2
def proofTypeWithdrawal : Nat := 3
def proofTypeSplit : Nat := 4
def proofTypeMerge : Nat := 5

def feeTypeShield : Nat := 1
def feeTypeTransfer : Nat := 2
def feeTypeWithdrawal : Nat := 3

end StxShield
