import StxShield.Library.Selection
import StxShield.Sdk.Discovery
import StxShield.Sdk.NoteDelivery
import StxShield.Sdk.ReferenceTree

/-!
# What discovery takes for notes

Discovery compares the commitment that a payload gives with the one on record, but a
payload's amount enters it only modulo the field, and the store tells notes apart by the
spelling of their commitments.  Both are harmless exactly when the payloads that pass have
amounts of 64 bits and spell each commitment in one way.
-/

namespace StxShield.Sdk

open Library JavaScript Circuit RootPublisher

/-! ## Worth -/

/-- A note says what its commitment opens to. -/
structure Describes (B : Builtins) (note : ShieldNote) (coin : Coin) : Prop where
  commitment : encode (coin.commitment B) = hexToBytes note.commitment
  amount : (coin.amount : Int) = note.amount
  range : coin.amount < 2 ^ 64
  ownerPkX : coin.note.ownerPkX = reduce note.secret.ownerPkX
  ownerPkY : coin.note.ownerPkY = reduce note.secret.ownerPkY
  asset : coin.asset = (truthy note.secret.assetField).map reduce

/-- Whoever opens a commitment otherwise has found a collision. -/
def OpensOnlyTo (B : Builtins) (commitment : Bytes) (coin : Coin) : Prop :=
  ∀ other : Coin, encode (other.commitment B) = commitment →
    Set.InjOn B.hash { query | query ∈ coin.queries B ∨ query ∈ other.queries B } → other = coin

/-- The notes found are what their commitments open to; those in the store have different
commitments, so that the balance is what these are worth. -/
structure Backed (B : Builtins) (found : List ShieldNote) (client : Client) : Prop where
  genuine : ∀ note ∈ found, ∃ coin, Describes B note coin ∧
    OpensOnlyTo B (hexToBytes note.commitment) coin
  distinct : client.Distinct
  balance : ∃ holdings : List Coin,
    List.Forall₂ (Describes B) client.unspent holdings ∧
    Selection.total ShieldNote.amount client.unspent =
      Selection.total (fun coin => (coin.amount : Int)) holdings

theorem opensOnlyTo_commitment (B : Builtins) (coin : Coin) :
    OpensOnlyTo B (encode (coin.commitment B)) coin := by
  intro other hother hfree
  exact Coin.eq_of_commitment hfree (fun query h => .inr h) (fun query h => .inl h)
    (encode_injective hother)

/-! ## Text -/

/-- The bytes of a commitment that reads as a field element, with or without a mark. -/
theorem hexToBytes_of_prefixed {text : String} {x : Fr}
    (h : toHex32 x.val = prefixed text) : hexToBytes text = encode x := by
  have hwide : fieldModulus ≤ 16 ^ 64 := by decide
  have hfits : x.val < 16 ^ 64 := Nat.lt_of_lt_of_le x.isLt hwide
  rw [toHex32_natCast hfits] at h
  have hraw : withoutMark text = fixedHex 64 x.val := by
    unfold prefixed at h
    unfold withoutMark
    split at h
    case isTrue hmark =>
      rw [if_pos hmark, ← h, String.toList_ofList]
      rfl
    case isFalse hmark =>
      rw [if_neg hmark]
      have htext := congrArg String.toList h
      rw [String.toList_ofList, String.toList_append] at htext
      have hdrop := congrArg (List.drop 2) htext
      exact hdrop.symm
  have hdigits : ∀ c ∈ fixedHex 64 x.val, digitValue c < 16 :=
    fun c => digitValue_lt_of_mem_fixedHex
  unfold hexToBytes
  simp only [hraw, codeUnits_of_digits hdigits, fixedHex_length]
  rw [if_neg (by decide), parseBytes_of_digits hdigits]
  exact hexPairs_fixedHex 32 x.val

theorem toHex32_val_inj {x y : Fr} : toHex32 x.val = toHex32 y.val ↔ x = y := by
  have hwide : fieldModulus ≤ 16 ^ 64 := by decide
  constructor
  · intro h
    have hread := congrArg bigInt h
    rw [bigInt_toHex32 (Nat.lt_of_lt_of_le x.isLt hwide),
      bigInt_toHex32 (Nat.lt_of_lt_of_le y.isLt hwide)] at hread
    exact Fin.ext (Int.ofNat.inj (Except.ok.inj hread))
  · rintro rfl
    rfl

/-! ## Records that pass -/

/-- The coin whose commitment the client computes. -/
def coinOf (amount ownerPkX ownerPkY blinding : Int) (assetField : Option Int) : Coin where
  asset := (truthy assetField).map reduce
  note := {
    amount := reduce amount
    ownerPkX := reduce ownerPkX
    ownerPkY := reduce ownerPkY
    blinding := reduce blinding }

theorem commitmentOf_eq (K : Packages) (amount ownerPkX ownerPkY blinding : Int)
    (assetField : Option Int) :
    commitmentOf K amount ownerPkX ownerPkY blinding assetField =
      ((coinOf amount ownerPkX ownerPkY blinding assetField).commitment K.builtins).val := by
  unfold commitmentOf coinOf
  cases truthy assetField with
  | none => rfl
  | some field =>
      simp only [poseidon2, poseidon4, reduce_val]
      rfl

section Records

variable (E : Ciphers) (K : Packages) (viewing : Bytes) (owner : OwnerKey)
  (assets : List AssetInfo)

/-- A payload passes the check with this asset. -/
structure PassesAs (r : EncryptedNoteRecord) (payload : NotePayload) (asset : Option AssetInfo)
    (assetField : Option Int) : Prop where
  opened : openRecord E viewing r = some payload
  supported : payloadAsset assets payload = some asset
  field : payloadField K asset = .ok assetField
  commitment : toHex32 (commitmentOf K payload.amount owner.pkX owner.pkY payload.blinding
    assetField) = prefixed r.commitment

/-- A record is decrypted to a payload that reproduces its commitment. -/
def Passes (r : EncryptedNoteRecord) (payload : NotePayload) : Prop :=
  ∃ asset assetField, PassesAs E K viewing owner assets r payload asset assetField

/-- The payloads that pass have amounts of 64 bits, and no commitment is spelled once with
and once without its mark. -/
structure Acceptable (records : List EncryptedNoteRecord) : Prop where
  range : ∀ r ∈ records, ∀ payload, Passes E K viewing owner assets r payload →
    0 ≤ payload.amount ∧ payload.amount < 2 ^ 64
  spelling : ∀ r ∈ records, ∀ r' ∈ records, ∀ payload payload',
    Passes E K viewing owner assets r payload → Passes E K viewing owner assets r' payload' →
      prefixed r.commitment = prefixed r'.commitment → r.commitment = r'.commitment

variable {E K viewing owner assets} {r : EncryptedNoteRecord} {records : List EncryptedNoteRecord}
  {note : ShieldNote} {found : List ShieldNote} {payload : NotePayload}

theorem discoverNote_some :
    discoverNote E K viewing owner assets r = .ok (some note) ↔
      ∃ payload asset assetField, PassesAs E K viewing owner assets r payload asset assetField ∧
        recordedNote owner r payload asset assetField = note := by
  unfold discoverNote
  cases hopened : openRecord E viewing r with
  | none =>
      dsimp only
      constructor
      · intro h
        cases h
      · rintro ⟨payload, asset, assetField, hpasses, -⟩
        rw [hpasses.opened] at hopened
        cases hopened
  | some payload =>
      dsimp only
      cases hasset : payloadAsset assets payload with
      | none =>
          dsimp only
          constructor
          · intro h
            cases h
          · rintro ⟨payload', asset, assetField, hpasses, -⟩
            obtain rfl := Option.some.inj (hpasses.opened.symm.trans hopened)
            rw [hpasses.supported] at hasset
            cases hasset
      | some asset =>
          dsimp only
          rw [except_bind_ok]
          constructor
          · rintro ⟨assetField, hfield, h⟩
            split at h
            case isTrue => cases except_pure_ok.mp h
            case isFalse hsame =>
              exact ⟨payload, asset, assetField, ⟨hopened, hasset, hfield, not_not.mp hsame⟩,
                Option.some.inj (except_pure_ok.mp h)⟩
          · rintro ⟨payload', asset', assetField, hpasses, hnote⟩
            obtain rfl := Option.some.inj (hpasses.opened.symm.trans hopened)
            obtain rfl := Option.some.inj (hpasses.supported.symm.trans hasset)
            refine ⟨assetField, hpasses.field, ?_⟩
            have hsame : ¬ toHex32 (commitmentOfSecret K payload'.amount
                (recordedNote owner r payload' asset' assetField).secret) ≠
                  prefixed r.commitment :=
              not_not.mpr hpasses.commitment
            rw [if_neg hsame, hnote]
            rfl

/-- The notes found are those of the records that pass. -/
theorem mem_discoverNotes (h : discoverNotes E K viewing owner assets records = .ok found) :
    note ∈ found ↔ ∃ r ∈ records, ∃ payload asset assetField,
      PassesAs E K viewing owner assets r payload asset assetField ∧
        recordedNote owner r payload asset assetField = note := by
  induction records generalizing found with
  | nil =>
      cases h
      simp
  | cons r rest ih =>
      obtain ⟨first, hfirst, out, hout, hfound⟩ := by
        simpa only [discoverNotes, except_bind_ok] using h
      obtain rfl := except_pure_ok.mp hfound
      rw [List.mem_append, ih hout, Option.mem_toList, List.exists_mem_cons_iff,
        ← discoverNote_some, hfirst]
      simp only [Except.ok.injEq]

variable {asset : Option AssetInfo} {assetField : Option Int}

/-- The commitment on record is that of the coin which the payload makes. -/
theorem PassesAs.bytes (h : PassesAs E K viewing owner assets r payload asset assetField) :
    hexToBytes r.commitment = encode ((coinOf payload.amount owner.pkX owner.pkY payload.blinding
      assetField).commitment K.builtins) := by
  have hcommitment := h.commitment
  rw [commitmentOf_eq] at hcommitment
  exact hexToBytes_of_prefixed hcommitment

theorem PassesAs.describes (h : PassesAs E K viewing owner assets r payload asset assetField)
    (hnonneg : 0 ≤ payload.amount) (hbound : payload.amount < 2 ^ 64) :
    Describes K.builtins (recordedNote owner r payload asset assetField)
      (coinOf payload.amount owner.pkX owner.pkY payload.blinding assetField) := by
  obtain ⟨n, hn⟩ := Int.eq_ofNat_of_zero_le hnonneg
  have hwide : 2 ^ 64 ≤ fieldModulus := by decide
  have hfits : n < fieldModulus := by omega
  have hamount : (coinOf payload.amount owner.pkX owner.pkY payload.blinding assetField).amount =
      n := by
    have hreduced := reduce_val ⟨n, hfits⟩
    show (reduce payload.amount).val = n
    rw [hn]
    exact congrArg Fin.val hreduced
  refine ⟨h.bytes.symm, ?_, ?_, rfl, rfl, rfl⟩
  · rw [hamount]
    exact hn.symm
  · rw [hamount]
    omega

/-- Whether a note is spent is no matter of its commitment. -/
theorem Describes.flag {B : Builtins} {coin : Coin} {spent : Bool} (h : Describes B note coin) :
    Describes B { note with spent := spent } coin :=
  ⟨h.commitment, h.amount, h.range, h.ownerPkX, h.ownerPkY, h.asset⟩

theorem Passes.spelled {r' : EncryptedNoteRecord} {payload' : NotePayload}
    (h : Passes E K viewing owner assets r payload)
    (h' : Passes E K viewing owner assets r' payload') :
    prefixed r.commitment = prefixed r'.commitment ↔
      hexToBytes r.commitment = hexToBytes r'.commitment := by
  obtain ⟨asset, assetField, hpasses⟩ := h
  obtain ⟨asset', assetField', hpasses'⟩ := h'
  rw [← hpasses.commitment, ← hpasses'.commitment, hpasses.bytes, hpasses'.bytes,
    encode_injective.eq_iff, commitmentOf_eq, commitmentOf_eq]
  exact toHex32_val_inj

variable {client : Client}

/-- Notes found with different commitments keep the store without repetition. -/
theorem Acceptable.distinct (h : Acceptable E K viewing owner assets records)
    (hfound : discoverNotes E K viewing owner assets records = .ok found)
    (hempty : client.store = []) : (client.addAll found).Distinct := by
  have hnone : client.Distinct := by
    unfold Client.Distinct
    rw [hempty]
    exact List.nodup_nil
  refine hnone.addAll fun note hnote => ⟨fun stored hstored => ?_, fun other hother hsame => ?_⟩
  · rw [hempty] at hstored
    exact absurd hstored List.not_mem_nil
  · obtain ⟨r, hr, payload, asset, assetField, hpasses, rfl⟩ := (mem_discoverNotes hfound).mp hnote
    obtain ⟨r', hr', payload', asset', assetField', hpasses', rfl⟩ :=
      (mem_discoverNotes hfound).mp hother
    have hfirst : Passes E K viewing owner assets r payload := ⟨asset, assetField, hpasses⟩
    have hsecond : Passes E K viewing owner assets r' payload' := ⟨asset', assetField', hpasses'⟩
    exact h.spelling r' hr' r hr payload' payload hsecond hfirst ((hsecond.spelled hfirst).mpr hsame)

theorem Acceptable.genuine (h : Acceptable E K viewing owner assets records)
    (hfound : discoverNotes E K viewing owner assets records = .ok found) :
    ∀ note ∈ found, ∃ coin, Describes K.builtins note coin ∧
      OpensOnlyTo K.builtins (hexToBytes note.commitment) coin := by
  intro note hnote
  obtain ⟨r, hr, payload, asset, assetField, hpasses, rfl⟩ := (mem_discoverNotes hfound).mp hnote
  obtain ⟨hnonneg, hbound⟩ := h.range r hr payload ⟨asset, assetField, hpasses⟩
  have hdescribes := hpasses.describes hnonneg hbound
  refine ⟨_, hdescribes, ?_⟩
  rw [← hdescribes.commitment]
  exact opensOnlyTo_commitment K.builtins _

/-- Payloads that are accepted in one way are worth what they say. -/
theorem Acceptable.backed (h : Acceptable E K viewing owner assets records)
    (hfound : discoverNotes E K viewing owner assets records = .ok found)
    (hempty : client.store = []) : Backed K.builtins found (client.addAll found) := by
  have hgenuine := h.genuine hfound
  refine ⟨hgenuine, h.distinct hfound hempty, ?_⟩
  obtain ⟨holdings, hholdings⟩ : ∃ holdings : List Coin,
      List.Forall₂ (Describes K.builtins) (client.addAll found).unspent holdings := by
    apply Selection.exists_forall₂
    intro note hnote
    rcases Client.mem_addAll (List.mem_filter.mp hnote).1 with hold | ⟨other, hother, hsame⟩
    · rw [hempty] at hold
      exact absurd hold List.not_mem_nil
    · obtain ⟨coin, hcoin, -⟩ := hgenuine other hother
      rw [hsame]
      exact ⟨coin, hcoin.flag⟩
  exact ⟨holdings, hholdings,
    Selection.total_eq_of_forall₂ hholdings fun note coin hcoin => hcoin.amount.symm⟩

/-- Notes that are worth what they say come from payloads that are accepted in one way. -/
theorem acceptable_of_backed (hfound : discoverNotes E K viewing owner assets records = .ok found)
    (h : Backed K.builtins found (client.addAll found)) :
    Acceptable E K viewing owner assets records where
  range r hr payload hpasses := by
    obtain ⟨asset, assetField, hpasses⟩ := hpasses
    obtain ⟨coin, hcoin, -⟩ := h.genuine _
      ((mem_discoverNotes hfound).mpr ⟨r, hr, payload, asset, assetField, hpasses, rfl⟩)
    have hamount : (coin.amount : Int) = payload.amount := hcoin.amount
    have hrange := hcoin.range
    omega
  spelling r hr r' hr' payload payload' hpasses hpasses' hsame := by
    have hkept : ∀ r ∈ records, ∀ payload, Passes E K viewing owner assets r payload →
        ∃ stored ∈ (client.addAll found).store, stored.commitment = r.commitment := by
      rintro r hr payload ⟨asset, assetField, hpasses⟩
      have hnote := (mem_discoverNotes hfound).mpr
        ⟨r, hr, payload, asset, assetField, hpasses, rfl⟩
      exact List.mem_map.mp (Client.mem_spellings_addAll.mpr (.inr ⟨_, hnote, rfl⟩))
    obtain ⟨stored, hstored, hcommitment⟩ := hkept r hr payload hpasses
    obtain ⟨stored', hstored', hcommitment'⟩ := hkept r' hr' payload' hpasses'
    have hbytes := (hpasses.spelled hpasses').mp hsame
    rw [← hcommitment, ← hcommitment'] at hbytes ⊢
    rw [h.distinct.eq hstored hstored' hbytes]

end Records

/-- Of any feed, discovery finds only notes that are worth what they say, and the store
keeps each of them once, exactly if the payloads that pass have amounts of 64 bits and spell
each commitment in one way. -/
theorem discovered_notes_backed (E : Ciphers) (K : Packages) (viewing : Bytes) (owner : OwnerKey)
    (assets : List AssetInfo) (records : List EncryptedNoteRecord) (found : List ShieldNote)
    (hfound : discoverNotes E K viewing owner assets records = .ok found) (client : Client)
    (hempty : client.store = []) :
    Backed K.builtins found (client.addAll found) ↔
      Acceptable E K viewing owner assets records :=
  ⟨acceptable_of_backed hfound, fun h => h.backed hfound hempty⟩

namespace Sample

/-- Packages of which only the hashes matter here. -/
def offline : Packages where
  clarity := {
    uintOfNumber _ := .error ""
    uintOfNumber_val _ _ h := by cases h
    uint _ := .error ""
    uint_val _ _ h := by cases h
    standardPrincipal _ := .error ""
    contractPrincipal _ _ := .error "" }
  primitives := {
    keccak256 _ := zeroHash
    keccak256_length _ := rfl
    sha256 _ := zeroHash
    sha256_length _ := rfl
    consensusBuff _ := [] }
  builtins := linear
  encryptNote payload _ := payload.commitment

def ownerKey : OwnerKey where
  sk := 3
  pkX := 3
  pkY := 0

/-- Five base units, with the modulus of the field added to them. -/
def inflatedPayload : NotePayload := { honestPayload with amount := 5 + fieldModulus }

theorem inflatedPayload_valid : inflatedPayload.Valid where
  version := rfl
  position := ⟨0, by decide, rfl⟩
  asset _ hid := by cases hid

/-- A payload recorded with the commitment to five base units. -/
def record (payload : NotePayload) : EncryptedNoteRecord where
  commitment := toHex32 (commitmentOf offline 5 3 0 7 none)
  ciphertext := some ("0x" ++ hexText (sent payload))
  root := ""
  txid := ""
  spent := false

theorem openRecord_record {payload : NotePayload} (hvalid : payload.Valid) :
    openRecord transparent viewing (record payload) = some payload := by
  obtain ⟨encrypted, hdecoded, hopened⟩ := decode_sent hvalid
  have hmarked : withoutMark ("0x" ++ hexText (sent payload)) =
      (hexText (sent payload)).toList := by
    unfold withoutMark hasHexMark
    rw [String.toList_append]
    rfl
  have hbytes : hexToBytes (String.ofList (withoutMark ("0x" ++ hexText (sent payload)))) =
      sent payload := by
    rw [hmarked, String.ofList_toList, hexToBytes_hexText]
  have hsome : "0x" ++ hexText (sent payload) ≠ "" := by
    intro hempty
    have htext := congrArg String.toList hempty
    rw [String.toList_append] at htext
    cases htext
  unfold openRecord record
  dsimp only
  rw [if_neg hsome, hbytes, hdecoded]
  exact hopened

/-- A payload of an amount that is five in the field passes. -/
theorem record_passes (assets : List AssetInfo) {payload : NotePayload} (hvalid : payload.Valid)
    (hamount : reduce payload.amount = reduce 5) (hblinding : payload.blinding = 7)
    (hnative : payload.assetId = none) :
    PassesAs transparent offline viewing ownerKey assets (record payload) payload none none where
  opened := openRecord_record hvalid
  supported := by
    unfold payloadAsset
    rw [hnative]
  field := rfl
  commitment := by
    have hsame : commitmentOf offline payload.amount ownerKey.pkX ownerKey.pkY payload.blinding none =
        commitmentOf offline 5 3 0 7 none := by
      rw [commitmentOf_eq, commitmentOf_eq, hblinding]
      unfold coinOf
      rw [hamount]
      rfl
    have hmarked : prefixed (record payload).commitment = (record payload).commitment := by
      unfold prefixed record hasHexMark
      dsimp only
      rw [toHex32, String.toList_ofList]
      rfl
    rw [hsame, hmarked]
    rfl

/-- A client without notes. -/
def fresh : Client where
  synced := { tree := CommitmentTree.empty, commitmentIndex := ∅ }
  store := []
  authenticated := false
  api := []
  vault := none

theorem discoverNotes_record {assets : List AssetInfo} {payload : NotePayload}
    (hpasses : PassesAs transparent offline viewing ownerKey assets (record payload) payload none
      none) :
    discoverNotes transparent offline viewing ownerKey assets [record payload] =
      .ok [recordedNote ownerKey (record payload) payload none none] := by
  have hone := discoverNote_some.mpr ⟨payload, none, none, hpasses, rfl⟩
  unfold discoverNotes
  rw [hone]
  rfl

end Sample

/-- An honest payload is found for what it is worth. -/
theorem discovered_notes_backed_honest :
    Backed Sample.linear
      [recordedNote Sample.ownerKey (Sample.record Sample.honestPayload) Sample.honestPayload none none]
      (Sample.fresh.addAll [recordedNote Sample.ownerKey (Sample.record Sample.honestPayload)
        Sample.honestPayload none none]) := by
  have hpasses := Sample.record_passes [] Sample.honestPayload_valid rfl rfl rfl
  refine (discovered_notes_backed Sample.transparent Sample.offline Sample.viewing Sample.ownerKey []
    [Sample.record Sample.honestPayload] _ (Sample.discoverNotes_record hpasses) Sample.fresh
    rfl).mpr ⟨?_, ?_⟩
  · rintro r hr payload ⟨asset, assetField, hother⟩
    rw [List.mem_singleton.mp hr] at hother
    obtain rfl := Option.some.inj (hother.opened.symm.trans hpasses.opened)
    exact ⟨by decide, by decide⟩
  · intro r hr r' hr' _ _ _ _ _
    rw [List.mem_singleton.mp hr, List.mem_singleton.mp hr']

/-- A payload adds the modulus of the field to the amount of its commitment. -/
theorem discovered_note_inflated :
    ¬ ∀ (E : Ciphers) (K : Packages) (viewing : Bytes) (owner : OwnerKey)
      (assets : List AssetInfo) (records : List EncryptedNoteRecord) (found : List ShieldNote),
      discoverNotes E K viewing owner assets records = .ok found →
        ∀ client : Client, client.store = [] →
          Backed K.builtins found (client.addAll found) := by
  intro halways
  have hpasses := Sample.record_passes [] Sample.inflatedPayload_valid (by decide +kernel) rfl rfl
  have hbacked := halways Sample.transparent Sample.offline Sample.viewing Sample.ownerKey []
    [Sample.record Sample.inflatedPayload] _ (Sample.discoverNotes_record hpasses) Sample.fresh rfl
  obtain ⟨coin, hcoin, -⟩ := hbacked.genuine _ List.mem_cons_self
  have hamount : (coin.amount : Int) = 5 + fieldModulus := hcoin.amount
  have hrange := hcoin.range
  have hwide : 2 ^ 64 < fieldModulus := by decide
  omega

end StxShield.Sdk
