import StxShield.Witnesses.Operations
import StxShield.Security.ShieldStatements

/-!
# Operations that can be proved

What the client hands to the engine satisfies a circuit unless an amount or a key is out
of range, or two notes coincide: the tree it rebuilds and the secrets it keeps are enough.
-/

namespace StxShield.Sdk

open Library JavaScript Circuit Async RootPublisher

variable {K : Packages} {client mid : Client} {w : EngineWitness} {leaves : List Fr}

/-- A relayed operation that has come to its proof goes on with what the engine returns,
and the engine returns a proof exactly if the operation fits its circuit. -/
theorem engine_proves_iff {replies : Replies} {intent : Intent}
    (hhonest : intent.Honest K replies client.store leaves)
    (h : draft K replies intent client = (.returned w, mid)) :
    (∃ rest : Statement → Async Client Prepared,
        prepare K replies intent client = (prove replies w.publicInputs >>= rest) mid) ∧
      ((∃ statement, proveCircuit K.builtins w = .ok statement) ↔ intent.Fits K replies) := by
  refine ⟨prepare_of_draft h, ?_⟩
  cases intent with
  | transfer base recipient => exact transfer_proved hhonest h
  | split note a1 a2 => exact split_proved hhonest h
  | merge i1 i2 => exact merge_proved hhonest h
  | withdraw note recipient => exact withdraw_proved hhonest h

/-- A shield that has come to its proof goes on with what the engine returns, and the
engine returns a proof exactly if the amount is of 64 bits, whatever moved the tree. -/
theorem engine_proves_shield_iff {replies : ShieldReplies} {base : Int}
    (hhonest : ShieldHonest K replies leaves)
    (h : draftShieldWitness K replies base client = (.returned w, mid)) :
    (∃ rest : Statement → Async Client ShieldDraft,
        draftShield K replies base client =
          (prove replies.toReplies w.publicInputs >>= rest) mid) ∧
      ((∃ statement, proveCircuit K.builtins w = .ok statement) ↔ 0 ≤ base ∧ base < 2 ^ 64) :=
  ⟨draftShield_of_draft h, shield_proved hhonest h⟩

namespace Sample

/-- The coin that the one note opens to. -/
def inputCoin : Coin where
  asset := none
  note := { amount := 1000000, ownerPkX := 3, ownerPkY := 0, blinding := 11 }

def inputLeaf : Fr := inputCoin.commitment packages.builtins

theorem inputNote_opens : Opens packages inputNote inputCoin 3 where
  amount := rfl
  ownerPkX := rfl
  ownerPkY := rfl
  blinding := rfl
  ownerSk := rfl
  commitment := by decide +kernel
  key := by decide +kernel
  asset := ⟨none, rfl, rfl⟩

theorem crowded_listing : Listing crowded [inputLeaf] where
  listed := by
    rw [List.map_singleton, ← toHex32_eq]
    exact congrArg (fun text => Ending.returned [text]) inputNote_opens.commitment
  nodup := List.nodup_singleton _
  fits := by decide

theorem derivedKeys {keys : Keys} (h : crowded.keys = .returned keys) :
    ∃ secret, deriveOwnerKey packages.builtins secret = .ok keys.owner := by
  cases h
  exact ⟨[2], rfl⟩

theorem halves_honest :
    (Intent.split inputNote 400000 600000).Honest packages crowded wallet.store [inputLeaf] where
  listing := crowded_listing
  opens := by
    rintro note rfl
    exact ⟨inputCoin, 3, inputNote_opens⟩
  assets := by
    rintro asset note hasset rfl
    cases hasset
    rfl
  keys _ := derivedKeys

theorem halves_fit : (Intent.split inputNote 400000 600000).Fits packages crowded := by
  refine ⟨by decide, by decide, ?_⟩
  intro keys o1 o2 hkeys ho1 ho2
  cases hkeys
  have hmakes1 := newNoteFor_makes ho1 (rfl : assetFieldFor packages nativeAsset = .ok none) rfl
  have hmakes2 := newNoteFor_makes ho2 (rfl : assetFieldFor packages nativeAsset = .ok none) rfl
  rw [hmakes1.commitment, hmakes2.commitment, Ne, Int.natCast_inj, ← Fin.ext_iff]
  decide +kernel

/-- What an operation has handed to the engine, if it comes to that. -/
def handedOver (intent : Intent) : Option EngineWitness :=
  match (draft packages crowded intent wallet).1 with
  | .returned w => some w
  | _ => none

end Sample

/-- A note of one STX is split, and the engine proves it. -/
theorem engine_proves_halves :
    ∃ w mid statement,
      draft Sample.packages Sample.crowded (.split Sample.inputNote 400000 600000) Sample.wallet =
        (.returned w, mid) ∧ proveCircuit Sample.packages.builtins w = .ok statement := by
  have hsome : (Sample.handedOver (.split Sample.inputNote 400000 600000)).isSome = true := by
    decide +kernel
  cases hdraft : draft Sample.packages Sample.crowded (.split Sample.inputNote 400000 600000)
      Sample.wallet with
  | mk ending mid =>
      unfold Sample.handedOver at hsome
      rw [hdraft] at hsome
      cases ending with
      | returned w =>
          obtain ⟨-, hproves⟩ := engine_proves_iff Sample.halves_honest hdraft
          obtain ⟨statement, hstatement⟩ := hproves.mpr Sample.halves_fit
          exact ⟨w, mid, statement, rfl, hstatement⟩
      | _ => cases hsome

namespace Sample

theorem listing_listing : Listing (listing [inputNote.commitment]).toReplies [inputLeaf] where
  listed := by
    rw [← crowded_listing.listed]
    rfl
  nodup := crowded_listing.nodup
  fits := crowded_listing.fits

theorem listing_honest : ShieldHonest packages (listing [inputNote.commitment]) [inputLeaf] where
  listing := listing_listing
  elsewhere _ listed h := ⟨listed, h⟩
  keys _ := derivedKeys

/-- What a shield has handed to the engine, if it comes to that. -/
def shieldHandedOver : Option EngineWitness :=
  match (draftShieldWitness packages (listing [inputNote.commitment]) 1000000 wallet).1 with
  | .returned w => some w
  | _ => none

end Sample

/-- One STX is shielded, and the engine proves it. -/
theorem engine_proves_shield :
    ∃ w mid statement,
      draftShieldWitness Sample.packages (Sample.listing [Sample.inputNote.commitment]) 1000000
        Sample.wallet = (.returned w, mid) ∧
      proveCircuit Sample.packages.builtins w = .ok statement := by
  have hsome : Sample.shieldHandedOver.isSome = true := by decide +kernel
  cases hdraft : draftShieldWitness Sample.packages (Sample.listing [Sample.inputNote.commitment])
      1000000 Sample.wallet with
  | mk ending mid =>
      unfold Sample.shieldHandedOver at hsome
      rw [hdraft] at hsome
      cases ending with
      | returned w =>
          obtain ⟨-, hproves⟩ := engine_proves_shield_iff Sample.listing_honest hdraft
          obtain ⟨statement, hstatement⟩ := hproves.mpr ⟨by decide, by decide⟩
          exact ⟨w, mid, statement, rfl, hstatement⟩
      | _ => cases hsome

end StxShield.Sdk
