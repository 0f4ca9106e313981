import StxShield.Sdk.DiscoveredNotes
import StxShield.Witnesses.Engine
import StxShield.Sdk.RelayedStatements
import StxShield.Sdk.SyncedTree

/-!
# The witnesses the client makes

The tree that is rebuilt from the API's list gives every listed note a path to the
root, and every new note a path to the next slot.  What the client makes of the two,
and of a note's secret, is what the circuits ask for.
-/

namespace StxShield.Sdk

open Library JavaScript Circuit Async RootPublisher

variable {K : Packages} {leaves : List Fr}

/-! ## Commitments as text -/

/-- A commitment is written with the digits of its encoding. -/
theorem toHex32_eq (x : Fr) : toHex32 x.val = hexText (encode x) := by
  have hwide : fieldModulus ≤ 16 ^ 64 := by decide
  have hlower : (fixedHex 64 x.val).map Char.toLower = fixedHex 64 x.val :=
    (List.map_congr_left fun c hc => toLower_of_mem_fixedHex hc).trans (List.map_id _)
  have hdigits : bytesToHex (encode x) = fixedHex 64 x.val := by
    unfold encode
    rw [← hexPairs_fixedHex, bytesToHex_hexPairs (fixedHex_length _ _)
      (fun c hc => digitValue_lt_of_mem_fixedHex hc), hlower]
  rw [toHex32_natCast (Nat.lt_of_lt_of_le x.isLt hwide), hexText, hdigits]

theorem hexToBytes_toHex32 (x : Fr) : hexToBytes (toHex32 x.val) = encode x := by
  rw [toHex32_eq, hexToBytes_hexText]

theorem bigInt_toHex32_val (x : Fr) : bigInt (toHex32 x.val) = .ok (x.val : Int) := by
  have hwide : fieldModulus ≤ 16 ^ 64 := by decide
  exact bigInt_toHex32 (Nat.lt_of_lt_of_le x.isLt hwide)

theorem bytesToBig_encode (x : Fr) : bytesToBig (encode x) = x.val := by
  have hwide : fieldModulus ≤ 256 ^ 32 := by decide
  unfold bytesToBig encode
  rw [bigEndianValue_bigEndian, Nat.mod_eq_of_lt (Nat.lt_of_lt_of_le x.isLt hwide)]

/-! ## The list -/

/-- The API lists the commitments of the chain, all different, as the registry keeps
them. -/
structure Listing (replies : Replies) (leaves : List Fr) : Prop where
  listed : replies.commitments = .returned (leaves.map fun leaf => hexText (encode leaf))
  nodup : leaves.Nodup
  fits : leaves.length ≤ maxLeaves

/-- A place that is remembered is that of a leaf of the list. -/
theorem mem_of_lookup {leaves : List Bytes} {synced : Synced}
    (h : rebuilt K (leaves.map hexText) = .ok synced) {key : String} {index : Nat}
    (hfound : synced.commitmentIndex.lookup key = some index) :
    ∃ leaf ∈ leaves, key = hexText leaf := by
  induction leaves using List.reverseRecOn generalizing synced index with
  | nil =>
      cases h
      cases hfound
  | append_singleton front last ih =>
      unfold rebuilt at h
      rw [List.map_append, List.foldlM_append] at h
      obtain ⟨before, hbefore, hlast⟩ := except_bind_ok.mp h
      obtain ⟨after, hafter, hdone⟩ := except_bind_ok.mp hlast
      cases hdone
      unfold insertCommitment at hafter
      obtain ⟨⟨place, tree⟩, -, hpair⟩ := except_bind_ok.mp hafter
      cases hpair
      simp only [prefixed_hexText, lowerCase_hexText] at hfound
      by_cases hkey : key = hexText last
      · exact ⟨last, List.mem_append_right _ List.mem_cons_self, hkey⟩
      · rw [AList.lookup_insert_ne hkey] at hfound
        obtain ⟨leaf, hmem, heq⟩ := ih hbefore hfound
        exact ⟨leaf, List.mem_append_left _ hmem, heq⟩

/-- What is rebuilt from the list mirrors it. -/
theorem Listing.mirrors {replies : Replies} (h : Listing replies leaves) {commits : List String}
    {synced : Synced} (hcommits : replies.commitments = .returned commits)
    (hsynced : rebuilt K commits = .ok synced) :
    Mirrors K synced (leaves.map encode) ∧
      ∀ key index, synced.commitmentIndex.lookup key = some index →
        ∃ leaf ∈ leaves, key = hexText (encode leaf) := by
  have hlist : (leaves.map fun leaf => hexText (encode leaf)) = commits :=
    Ending.returned.inj (h.listed.symm.trans hcommits)
  have hmap : commits = (leaves.map encode).map hexText := by
    rw [← hlist, List.map_map]
    rfl
  rw [hmap] at hsynced
  obtain ⟨other, hother, hmirrors⟩ := mirrors_rebuilt (K := K)
    (h.nodup.map encode_injective) (by rw [List.length_map]; exact h.fits)
  obtain rfl : synced = other := Except.ok.inj (hsynced.symm.trans hother)
  refine ⟨hmirrors, ?_⟩
  intro key index hfound
  obtain ⟨leaf, hmem, hkey⟩ := mem_of_lookup hsynced hfound
  obtain ⟨x, hx, rfl⟩ := List.mem_map.mp hmem
  exact ⟨x, hx, hkey⟩

/-! ## Paths -/

/-- A path of field elements, as the client holds it. -/
def pathValues (path : MerklePath) : List (Bool × Int) :=
  path.steps.map fun step => (step.1, (step.2.val : Int))

theorem map_bytesToBig (path : MerklePath) :
    (path.steps.map fun step => (step.1, encode step.2)).map
        (fun (step : Bool × Bytes) => (step.1, bytesToBig step.2)) = pathValues path := by
  rw [List.map_map]
  exact List.map_congr_left fun step _ => Prod.ext rfl (bytesToBig_encode step.2)

/-- A listed note is shown to be a member of the tree. -/
theorem membership_path {synced : Synced} {note : ShieldNote} {c : Fr} {w : MembershipWitness}
    (hmirrors : Mirrors K synced (leaves.map encode)) (hfits : leaves.length ≤ maxLeaves)
    (hlisted : ∀ key index, synced.commitmentIndex.lookup key = some index →
      ∃ leaf ∈ leaves, key = hexText (encode leaf))
    (hnote : note.commitment = toHex32 c.val) (h : membership K synced note = .ok w) :
    ∃ path : MerklePath, w.path = pathValues path ∧
      w.merkleRoot = (CommitmentTree.naiveRoot K.builtins leaves).val ∧
      MerkleTree.climb K.builtins.hash2 c path.steps =
        CommitmentTree.naiveRoot K.builtins leaves := by
  unfold membership at h
  rw [hnote, toHex32_eq, lowerCase_hexText] at h
  split at h
  case h_1 => cases h
  case h_2 index hfound =>
    obtain ⟨leaf, hmem, hkey⟩ := hlisted _ _ hfound
    obtain rfl : c = leaf := encode_injective (hexText_injective hkey)
    obtain ⟨slot, hslot, hget⟩ := List.getElem_of_mem hmem
    have hlookup := hmirrors.indexed slot (encode c) (by
      rw [List.getElem?_map, List.getElem?_eq_getElem hslot, hget]
      rfl)
    obtain rfl : slot = index := Option.some.inj (hlookup.symm.trans hfound)
    obtain ⟨proof, hproof, hw⟩ := except_bind_ok.mp h
    cases except_pure_ok.mp hw
    unfold CommitmentTree.proof at hproof
    split at hproof
    case isTrue => cases hproof
    case isFalse =>
      cases hproof
      refine ⟨CommitmentTree.circuitPath K.builtins leaves slot, ?_, ?_, ?_⟩
      · dsimp only
        rw [hmirrors.tree.path slot]
        exact map_bytesToBig _
      · dsimp only
        rw [hmirrors.tree.root, bytesToBig_encode]
      · have hclimb := CommitmentTree.climb_leaf (B := K.builtins) hslot hfits
        rw [List.get_eq_getElem, hget] at hclimb
        exact hclimb

/-- A new note is shown to go to the next slot. -/
theorem insertion_path {tree : CommitmentTree} {c : Fr} {w : InsertionWitness}
    (htree : CommitmentTree.Holds K.builtins tree (leaves.map encode))
    (h : insertionFor K tree (toHex32 c.val) = .ok w) :
    leaves.length < maxLeaves ∧ w.leafIndex = leaves.length ∧
      w.oldRoot = (CommitmentTree.naiveRoot K.builtins leaves).val ∧
      w.newRoot = (CommitmentTree.naiveRoot K.builtins (leaves ++ [c])).val ∧
      ∃ path : MerklePath, w.path = pathValues path ∧
        Appended K.builtins c (Fin.ofNat _ leaves.length)
          (CommitmentTree.naiveRoot K.builtins leaves)
          (CommitmentTree.naiveRoot K.builtins (leaves ++ [c])) path := by
  obtain ⟨witness, hwitness, hw⟩ := except_bind_ok.mp h
  cases except_pure_ok.mp hw
  rw [hexToBytes_toHex32] at hwitness
  have hroom : leaves.length < maxLeaves := by
    by_contra hfull
    unfold CommitmentTree.insertionWitness at hwitness
    rw [if_pos (by rw [htree.count_eq]; omega)] at hwitness
    cases hwitness
  obtain ⟨other, after, hother, -, -, hindex, -, hold, hnew, -⟩ := htree.witness hroom c
  obtain rfl : witness = other := Except.ok.inj (hwitness.symm.trans hother)
  have hpath : witness.path =
      (CommitmentTree.circuitPath K.builtins leaves leaves.length).steps.map
        fun step => (step.1, encode step.2) := by
    unfold CommitmentTree.insertionWitness at hwitness
    rw [if_neg (by rw [htree.count_eq]; omega)] at hwitness
    cases hwitness
    rw [htree.count_eq]
    exact htree.path leaves.length
  refine ⟨hroom, hindex, ?_, ?_, CommitmentTree.circuitPath K.builtins leaves leaves.length, ?_, ?_⟩
  · dsimp only
    rw [hold, bytesToBig_encode]
  · dsimp only
    rw [hnew, bytesToBig_encode]
  · dsimp only
    rw [hpath]
    exact map_bytesToBig _
  · exact
      { slot := (CommitmentTree.position_circuitPath hroom).trans
          (CommitmentTree.ofNat_val (Nat.le_of_lt hroom)).symm
        before := CommitmentTree.climb_empty hroom
        after := CommitmentTree.climb_next hroom c }

/-! ## Notes -/

/-- A note of the client's: it opens to a coin whose owner's secret it holds. -/
structure Opens (K : Packages) (note : ShieldNote) (coin : Coin) (secret : Fr) : Prop where
  amount : note.amount = coin.note.amount.val
  ownerPkX : note.secret.ownerPkX = coin.note.ownerPkX.val
  ownerPkY : note.secret.ownerPkY = coin.note.ownerPkY.val
  blinding : note.secret.blinding = coin.note.blinding.val
  ownerSk : note.secret.ownerSk = secret.val
  commitment : note.commitment = toHex32 (coin.commitment K.builtins).val
  key : K.builtins.fixedBaseScalarMul secret = coin.ownerPk
  asset : ∃ assetField, assetFieldFor K note.assetOf = .ok assetField ∧
    assetIn assetField = .ok coin.asset

theorem Opens.noteInput {note : ShieldNote} {coin : Coin} {ownerSk : Fr}
    (h : Opens K note coin ownerSk) : noteInput (witnessNote note) = .ok coin.note :=
  noteInput_ok.mpr ⟨h.amount, h.ownerPkX, h.ownerPkY, h.blinding⟩

/-- The nullifier that the client computes. -/
theorem Opens.nullifier {note : ShieldNote} {coin : Coin} {ownerSk : Fr}
    (h : Opens K note coin ownerSk) {c : Int} (hc : bigInt note.commitment = .ok c) :
    nullifierOf K c note.secret.ownerSk =
      (K.builtins.hash2 (coin.commitment K.builtins) ownerSk).val := by
  rw [h.commitment, bigInt_toHex32_val] at hc
  rw [← Except.ok.inj hc, h.ownerSk, nullifierOf, poseidon2, reduce_val,
    reduce_val]

/-- An asset counts as absent if its field is zero. -/
theorem assetIn_eq {assetField : Option Int} {element : Option Fr}
    (h : assetIn assetField = .ok element) :
    (truthy assetField).map reduce = element ∧ ∀ assetId, element = some assetId → assetId ≠ 0 := by
  unfold assetIn at h
  cases htruthy : truthy assetField with
  | none =>
      rw [htruthy] at h
      cases h
      refine ⟨rfl, ?_⟩
      intro assetId hnone
      cases hnone
  | some field =>
      rw [htruthy] at h
      obtain ⟨x, hx, rfl⟩ := except_map_ok.mp h
      obtain rfl := f_ok.mp hx
      refine ⟨congrArg some (reduce_val x), ?_⟩
      rintro assetId hsame rfl
      cases hsame
      have hnonzero := (Option.filter_eq_some_iff.mp htruthy).2
      simp at hnonzero

/-- The note of a circuit, with a client's integers reduced. -/
def reducedNote (n : NoteWitness) : Note where
  amount := reduce n.amount
  ownerPkX := reduce n.ownerPkX
  ownerPkY := reduce n.ownerPkY
  blinding := reduce n.blinding

/-- A note that is passed is a new note's coin, and the commitments are its. -/
structure Makes (K : Packages) (out : NewNote) (element : Option Fr) (n : NoteWitness) : Prop where
  witness : witnessNote out.note = n
  text : out.note.commitment = toHex32 out.commitment
  commitment : out.commitment = (Coin.commitment K.builtins ⟨element, reducedNote n⟩).val
  owner : out.ownerCommitment =
    (K.builtins.hash2 (reducedNote n).ownerPkX (reducedNote n).ownerPkY).val

theorem newNoteFor_field {amount ownerSk x y blinding : Int} {asset : AssetInfo} {out : NewNote}
    (h : newNoteFor K amount ownerSk x y blinding asset = .ok out) :
    assetFieldFor K asset = .ok out.note.secret.assetField := by
  obtain ⟨assetField, hfield, hout⟩ := except_bind_ok.mp h
  cases except_pure_ok.mp hout
  exact hfield

theorem newNoteFor_makes {amount ownerSk x y blinding : Int} {asset : AssetInfo} {out : NewNote}
    (h : newNoteFor K amount ownerSk x y blinding asset = .ok out) {assetField : Option Int}
    {element : Option Fr} (hfield : assetFieldFor K asset = .ok assetField)
    (hin : assetIn assetField = .ok element) : Makes K out element ⟨amount, x, y, blinding⟩ := by
  obtain ⟨other, hother, hout⟩ := except_bind_ok.mp h
  obtain rfl : assetField = other := Except.ok.inj (hfield.symm.trans hother)
  cases except_pure_ok.mp hout
  refine ⟨rfl, rfl, ?_, rfl⟩
  dsimp only
  rw [commitmentOf_eq, coinOf, (assetIn_eq hin).1]
  rfl

end StxShield.Sdk
