import StxShield.Sdk.Client
import StxShield.Sdk.ScannerRuns
import StxShield.Sdk.Wire

/-!
# The tree rebuilt from a list of commitments

The client appends the commitments that it is given, in their order, and remembers where
each of them went.  So a place is that of the list, whatever index came with the commitment.
-/

namespace StxShield.Sdk

open Library JavaScript RootPublisher Circuit

/-! ## Text -/

theorem hexText_injective {a b : Bytes} (h : hexText a = hexText b) : a = b := by
  have hread := congrArg bufBytes h
  rwa [bufBytes_hexText, bufBytes_hexText] at hread

theorem prefixed_hexText (b : Bytes) : prefixed (hexText b) = hexText b := by
  have hmarked : hasHexMark (hexText b) = true := by
    unfold hasHexMark hexText
    rw [String.toList_ofList]
    rfl
  unfold prefixed
  rw [if_pos hmarked]

theorem lowerCase_hexText (b : Bytes) : lowerCase (hexText b) = hexText b := by
  have hdigits : (bytesToHex b).map Char.toLower = bytesToHex b :=
    (List.map_congr_left fun c hc => toLower_of_mem_bytesToHex hc).trans (List.map_id _)
  unfold lowerCase hexText
  rw [String.toList_ofList, List.map_cons, List.map_cons, hdigits]
  rfl

/-! ## Rebuilding -/

variable {K : Packages}

/-- The tree has these leaves, and each commitment is known by its place. -/
structure Mirrors (K : Packages) (synced : Synced) (leaves : List Bytes) : Prop where
  tree : CommitmentTree.Holds K.builtins synced.tree leaves
  indexed : ∀ (index : Nat) leaf, leaves[index]? = some leaf →
    synced.commitmentIndex.lookup (hexText leaf) = some index

theorem mirrors_empty : Mirrors K { tree := CommitmentTree.empty, commitmentIndex := ∅ } [] where
  tree := CommitmentTree.holds_empty
  indexed index leaf h := by cases h

theorem Mirrors.insertCommitment {synced : Synced} {leaves : List Bytes} {leaf : Bytes}
    (h : Mirrors K synced leaves) (hroom : leaves.length < maxLeaves) (hnew : leaf ∉ leaves) :
    ∃ after, insertCommitment K synced (hexText leaf) = .ok after ∧
      Mirrors K after (leaves ++ [leaf]) := by
  have hcount : synced.tree.count < maxLeaves := by
    rw [h.tree.count]
    exact hroom
  obtain ⟨tree, hinsert⟩ := CommitmentTree.insert_ok (B := K.builtins) hcount leaf
  obtain ⟨hindex, htree⟩ := h.tree.insert hinsert
  refine ⟨{ tree := tree,
            commitmentIndex := synced.commitmentIndex.insert (hexText leaf) synced.tree.count },
    ?_, htree, ?_⟩
  · unfold Sdk.insertCommitment
    simp only [prefixed_hexText, lowerCase_hexText, hexToBytes_hexText, hinsert]
    rfl
  · intro index other hother
    rcases Nat.lt_or_ge index leaves.length with hlt | hge
    · rw [List.getElem?_append_left hlt] at hother
      have hmem : other ∈ leaves := List.mem_of_getElem? hother
      have hne : hexText other ≠ hexText leaf := by
        intro hsame
        exact hnew (hexText_injective hsame ▸ hmem)
      exact (AList.lookup_insert_ne hne).trans (h.indexed index other hother)
    · rw [List.getElem?_append_right hge, List.getElem?_singleton] at hother
      obtain ⟨hzero, hsame⟩ := Option.ite_none_right_eq_some.mp hother
      obtain rfl : leaf = other := Option.some.inj hsame
      have hlast : index = leaves.length := by omega
      rw [AList.lookup_insert, hindex, hlast]

/-- Different commitments that fit are taken as they come. -/
theorem mirrors_rebuilt {leaves : List Bytes} (hnodup : leaves.Nodup)
    (hroom : leaves.length ≤ maxLeaves) :
    ∃ synced, rebuilt K (leaves.map hexText) = .ok synced ∧ Mirrors K synced leaves := by
  induction leaves using List.reverseRecOn with
  | nil => exact ⟨_, rfl, mirrors_empty⟩
  | append_singleton front last ih =>
      obtain ⟨hfront, -, hdisjoint⟩ := List.nodup_append.mp hnodup
      rw [List.length_append, List.length_singleton] at hroom
      obtain ⟨synced, hsynced, hmirrors⟩ := ih hfront (by omega)
      have hnew : last ∉ front := by
        intro hmem
        exact hdisjoint last hmem last List.mem_cons_self rfl
      obtain ⟨after, hafter, hgrown⟩ := hmirrors.insertCommitment (by omega) hnew
      refine ⟨after, ?_, hgrown⟩
      unfold rebuilt at hsynced ⊢
      rw [List.map_append, List.foldlM_append, hsynced]
      exact except_bind_ok.mpr ⟨synced, rfl, except_bind_ok.mpr ⟨after, hafter, rfl⟩⟩

theorem syncTree_returned {replies : Replies} {client : Client} {commits : List String}
    {synced : Synced} (hcommits : replies.commitments = .returned commits)
    (hsynced : rebuilt K commits = .ok synced) :
    syncTree K replies client = (.returned (), { client with synced := synced }) := by
  unfold syncTree
  rw [hcommits, Async.returned_bind, hsynced, Async.ok_bind]
  rfl

theorem Mirrors.root {synced : Synced} {leaves : List Bytes} (h : Mirrors K synced leaves) :
    synced.tree.root K.builtins = NoteScanner.rootOf K.builtins leaves :=
  (NoteScanner.enters_of_holds h.tree).root

/-- The proof of a leaf is there. -/
theorem Mirrors.proof {synced : Synced} {leaves : List Bytes} (h : Mirrors K synced leaves)
    {index : Nat} {leaf : Bytes} (hleaf : leaves[index]? = some leaf) :
    ∃ proof, synced.tree.proof K.builtins index = .ok proof ∧ proof.leaf = leaf := by
  obtain ⟨hlt, -⟩ := List.getElem?_eq_some_iff.mp hleaf
  have hknown : ¬ synced.tree.count ≤ index := by
    rw [h.tree.count]
    omega
  refine ⟨_, if_neg hknown, ?_⟩
  exact (NoteScanner.enters_of_holds h.tree).leaf index leaf hleaf

/-- The root is a field element, and is read back as one. -/
theorem fieldToBytes32_rootOf (B : Builtins) (leaves : List Bytes) :
    fieldToBytes32 (bytesToBig (NoteScanner.rootOf B leaves)) = NoteScanner.rootOf B leaves := by
  obtain ⟨x, hx⟩ : ∃ x, NoteScanner.rootOf B leaves = encode x := by
    unfold NoteScanner.rootOf
    rw [← MerkleTree.level_root]
    exact ⟨_, rfl⟩
  rw [hx]
  exact congrArg encode (asField_encode x)

/-- Membership is shown against the root of the tree, for the commitments in it. -/
theorem Mirrors.membership_root {synced : Synced} {leaves : List Bytes} (h : Mirrors K synced leaves)
    {note : ShieldNote} {witness : MembershipWitness}
    (hwitness : membership K synced note = .ok witness) :
    0 < leaves.length ∧
      fieldToBytes32 witness.merkleRoot = NoteScanner.rootOf K.builtins leaves := by
  unfold membership at hwitness
  split at hwitness
  case h_1 => cases hwitness
  case h_2 leafIndex hfound =>
    obtain ⟨proof, hproof, hwitnessed⟩ := except_bind_ok.mp hwitness
    cases except_pure_ok.mp hwitnessed
    unfold CommitmentTree.proof at hproof
    split at hproof
    case isTrue => cases hproof
    case isFalse hknown =>
      rw [h.tree.count] at hknown
      refine ⟨by omega, ?_⟩
      dsimp only
      rw [h.root, fieldToBytes32_rootOf]

theorem Mirrors.exists_membership {synced : Synced} {leaves : List Bytes}
    (h : Mirrors K synced leaves) (note : ShieldNote) {index : Nat} {leaf : Bytes}
    (hleaf : leaves[index]? = some leaf) (hnote : note.commitment = hexText leaf) :
    ∃ witness, membership K synced note = .ok witness := by
  obtain ⟨proof, hproof, -⟩ := h.proof hleaf
  unfold membership
  rw [hnote, lowerCase_hexText, h.indexed index leaf hleaf]
  exact ⟨_, except_bind_ok.mpr ⟨proof, hproof, rfl⟩⟩

end StxShield.Sdk
