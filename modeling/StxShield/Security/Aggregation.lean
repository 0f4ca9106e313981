import Mathlib.Data.Set.Function
import StxShield.Library.BinaryMerkle
import StxShield.Security.Solvency

/-!
# Inclusion in an aggregation

zkVerify publishes the root of a binary tree over hashed statement leaves.  The
verifiers recompute it from a leaf, a path, an index and the number of leaves:
honest paths reach the root, and nothing but a leaf of the aggregation does.
-/

namespace StxShield

open Library

namespace Verifier

variable (P : Primitives)

/-! ## The aggregation tree -/

/-- An inner node. -/
def nodeHash (left right : Buff32) : Buff32 := P.keccak256 (left.bytes ++ right.bytes)

/-- The tree is built over the hashes of the leaves. -/
def leafNodes (leaves : List Buff32) : List Buff32 := leaves.map fun leaf => P.keccak256 leaf.bytes

def aggregationRoot (leaves : List Buff32) : Option Buff32 :=
  BinaryMerkle.root (nodeHash P) (leafNodes P leaves)

def merklePath (leaves : List Buff32) (index : Nat) : List Buff32 :=
  BinaryMerkle.siblings (nodeHash P) (leafNodes P leaves) index

/-- The fold of the contract climbs the path. -/
theorem foldl_merkleStep (path : List Buff32) (acc : MerkleAcc) :
    (path.foldl (merkleStep P) acc).hash =
      BinaryMerkle.climb (nodeHash P) acc.hash acc.position acc.width path := by
  induction path generalizing acc with
  | nil => rfl
  | cons sibling rest ih =>
      rw [List.foldl_cons, ih, BinaryMerkle.climb]
      congr 1
      unfold merkleStep BinaryMerkle.stepPair nodeHash
      split <;> rfl

theorem computeMerkleRoot_eq_climb (leaf : Buff32) (path : List Buff32) (index count : Nat) :
    computeMerkleRoot P leaf path index count =
      BinaryMerkle.climb (nodeHash P) (P.keccak256 leaf.bytes) index count path :=
  foldl_merkleStep P path _

/-! ## Completeness -/

theorem computeMerkleRoot_merklePath {leaves : List Buff32} {index : Nat} {leaf : Buff32}
    (hleaf : leaves[index]? = some leaf) :
    some (computeMerkleRoot P leaf (merklePath P leaves index) index leaves.length) =
      aggregationRoot P leaves := by
  have hnode : (leafNodes P leaves)[index]? = some (P.keccak256 leaf.bytes) := by
    simp [leafNodes, hleaf]
  have hclimb := BinaryMerkle.climb_siblings (nodeHash P) hnode
  rw [computeMerkleRoot_eq_climb]
  simpa [leafNodes, merklePath, aggregationRoot] using hclimb

theorem length_merklePath_le {leaves : List Buff32} {depth : Nat} (index : Nat)
    (h : leaves.length ≤ 2 ^ depth) : (merklePath P leaves index).length ≤ depth :=
  BinaryMerkle.length_siblings_le (nodeHash P) _ index depth (by simpa [leafNodes] using h)

/-! ## Soundness -/

/-- What a pair of nodes is hashed from. -/
def pairBytes (pair : Buff32 × Buff32) : Bytes := pair.1.bytes ++ pair.2.bytes

/-- Everything that building the aggregation of some statements and checking a
leaf and a path against it hashes. -/
def inclusionInputs (statements : List Bytes) (leaf : Buff32) (path : List Buff32) (index : Nat) :
    List Bytes :=
  let leaves := statements.map P.keccak256
  (statements ++ leaves.map Buff32.bytes) ++
    ((BinaryMerkle.treePairs (nodeHash P) (leafNodes P leaves)).map pairBytes ++
      leaf.bytes ::
        (BinaryMerkle.climbPairs (nodeHash P) (P.keccak256 leaf.bytes) index leaves.length
          path).map pairBytes)

section

variable {P} {leaves : List Buff32}

/-- Every node of the tree is a full digest. -/
theorem length_node {node : Buff32}
    (h : node ∈ BinaryMerkle.nodes (nodeHash P) (leafNodes P leaves)) : node.bytes.length = 32 := by
  rcases BinaryMerkle.mem_nodes (nodeHash P) h with hlevel | ⟨pair, -, rfl⟩
  · obtain ⟨leaf, -, rfl⟩ := List.mem_map.mp hlevel
    exact P.keccak256_length _
  · exact P.keccak256_length _

theorem length_pairBytes {pair : Buff32 × Buff32}
    (h : pair ∈ BinaryMerkle.treePairs (nodeHash P) (leafNodes P leaves)) :
    pair.1.bytes.length = 32 ∧ pair.2.bytes.length = 32 := by
  obtain ⟨hfst, hsnd⟩ := BinaryMerkle.mem_nodes_of_treePairs (nodeHash P) h
  exact ⟨length_node hfst, length_node hsnd⟩

/-- One part of every pair a path hashes is the running node, itself the digest
of something short. -/
theorem climbPairs_running {path : List Buff32} {input : Bytes} {position width : Nat}
    (hshort : input.length ≤ 64) {step : Buff32 × Buff32}
    (h : step ∈ BinaryMerkle.climbPairs (nodeHash P) (P.keccak256 input) position width path) :
    ∃ running, running.length ≤ 64 ∧
      (running = input ∨ running ∈
        (BinaryMerkle.climbPairs (nodeHash P) (P.keccak256 input) position width path).map
          pairBytes) ∧
      (step.1 = P.keccak256 running ∨ step.2 = P.keccak256 running) := by
  induction path generalizing input position width with
  | nil => cases h
  | cons sibling rest ih =>
      have hpair : (pairBytes
          (BinaryMerkle.stepPair (P.keccak256 input) position width sibling)).length ≤ 64 := by
        have hnode : (P.keccak256 input).bytes.length = 32 := P.keccak256_length input
        have hsibling := sibling.length_le
        unfold pairBytes BinaryMerkle.stepPair
        split <;> simp only [List.length_append] <;> omega
      rcases List.mem_cons.mp h with rfl | hrest
      · refine ⟨input, hshort, .inl rfl, ?_⟩
        unfold BinaryMerkle.stepPair
        split
        · exact .inr rfl
        · exact .inl rfl
      · obtain ⟨running, hlength, hfrom, hside⟩ := ih hpair hrest
        refine ⟨running, hlength, .inr ?_, hside⟩
        rcases hfrom with rfl | hlater
        · exact List.mem_cons_self
        · exact List.mem_cons_of_mem _ hlater

end

section

variable {P} {statements : List Bytes} {leaf : Buff32} {path : List Buff32} {index : Nat}

/-- A path step does not hash to a node of the lowest level: what such a node is
hashed from, a digest of a statement, is too short to hold two nodes. -/
theorem nodeHash_not_leafNode (hstatements : ∀ statement ∈ statements, statement.length = 128)
    (hleaf : leaf.bytes.length = 32)
    (hfree : Set.InjOn P.keccak256 { input | input ∈ inclusionInputs P statements leaf path index })
    {step : Buff32 × Buff32}
    (hstep : step ∈ BinaryMerkle.climbPairs (nodeHash P) (P.keccak256 leaf.bytes) index
      (statements.map P.keccak256).length path) :
    nodeHash P step.1 step.2 ∉ leafNodes P (statements.map P.keccak256) := by
  intro hmem
  obtain ⟨node, hnode, heq⟩ := List.mem_map.mp hmem
  obtain ⟨statement, hstatement, rfl⟩ := List.mem_map.mp hnode
  have hasked : pairBytes step ∈ inclusionInputs P statements leaf path index :=
    List.mem_append_right _ (List.mem_append_right _ (List.mem_cons_of_mem _
      (List.mem_map_of_mem hstep)))
  have hbytes : (P.keccak256 statement).bytes = step.1.bytes ++ step.2.bytes :=
    hfree (List.mem_append_left _ (List.mem_append_right _ (List.mem_map_of_mem hnode))) hasked heq
  have htotal := congrArg List.length hbytes
  rw [P.keccak256_length, List.length_append] at htotal
  obtain ⟨running, hshort, hfrom, hside⟩ := climbPairs_running (by omega) hstep
  -- the running node is the whole of it, so it is the digest of the statement
  have hrunning : P.keccak256 running = P.keccak256 statement := by
    have hlength : (P.keccak256 running).bytes.length = 32 := P.keccak256_length running
    apply Buff32.ext
    rcases hside with hfst | hsnd
    · rw [hfst, hlength] at htotal
      have hempty : step.2.bytes = [] := List.length_eq_zero_iff.mp (by omega)
      rw [hbytes, hfst, hempty, List.append_nil]
    · rw [hsnd, hlength] at htotal
      have hempty : step.1.bytes = [] := List.length_eq_zero_iff.mp (by omega)
      rw [hbytes, hsnd, hempty, List.nil_append]
  have hrunningAsked : running ∈ inclusionInputs P statements leaf path index := by
    refine List.mem_append_right _ (List.mem_append_right _ ?_)
    rcases hfrom with rfl | hlater
    · exact List.mem_cons_self
    · exact List.mem_cons_of_mem _ hlater
  have hsame := hfree hrunningAsked
    (List.mem_append_left _ (List.mem_append_left _ hstatement)) hrunning
  have hlong := hstatements statement hstatement
  rw [hsame] at hshort
  omega

/-- A path step that hashes to what a pair of the tree hashes to hashes that
pair. -/
theorem stepPair_of_nodeHash_eq (hleaf : leaf.bytes.length = 32)
    (hfree : Set.InjOn P.keccak256 { input | input ∈ inclusionInputs P statements leaf path index })
    {step pair : Buff32 × Buff32}
    (hstep : step ∈ BinaryMerkle.climbPairs (nodeHash P) (P.keccak256 leaf.bytes) index
      (statements.map P.keccak256).length path)
    (hpair : pair ∈ BinaryMerkle.treePairs (nodeHash P)
      (leafNodes P (statements.map P.keccak256)))
    (heq : nodeHash P step.1 step.2 = nodeHash P pair.1 pair.2) : step = pair := by
  have hbytes : step.1.bytes ++ step.2.bytes = pair.1.bytes ++ pair.2.bytes :=
    hfree
      (List.mem_append_right _ (List.mem_append_right _ (List.mem_cons_of_mem _
        (List.mem_map_of_mem hstep))))
      (List.mem_append_right _ (List.mem_append_left _ (List.mem_map_of_mem hpair))) heq
  obtain ⟨hfst, hsnd⟩ := length_pairBytes hpair
  obtain ⟨running, -, -, hside⟩ := climbPairs_running (by omega) hstep
  have htotal := congrArg List.length hbytes
  simp only [List.length_append, hfst, hsnd] at htotal
  have hlength : step.1.bytes.length = pair.1.bytes.length := by
    have hdigest : (P.keccak256 running).bytes.length = 32 := P.keccak256_length running
    rcases hside with hrunning | hrunning
    · rw [hrunning, hdigest, hfst]
    · rw [hrunning, hdigest] at htotal
      omega
  obtain ⟨hleft, hright⟩ := List.append_inj hbytes hlength
  exact Prod.ext (Buff32.ext hleft) (Buff32.ext hright)

theorem mem_of_computeMerkleRoot
    (hstatements : ∀ statement ∈ statements, statement.length = 128)
    (hleaf : leaf.bytes.length = 32)
    (hfree : Set.InjOn P.keccak256 { input | input ∈ inclusionInputs P statements leaf path index })
    (h : some (computeMerkleRoot P leaf path index (statements.map P.keccak256).length) =
      aggregationRoot P (statements.map P.keccak256)) :
    leaf ∈ statements.map P.keccak256 := by
  rw [computeMerkleRoot_eq_climb] at h
  have hclimb := BinaryMerkle.root_mem_nodes (nodeHash P) h.symm
  have hstart := BinaryMerkle.mem_nodes_of_climb (nodeHash P)
    (fun step hstep => nodeHash_not_leafNode hstatements hleaf hfree hstep)
    (fun step hstep pair hpair heq => stepPair_of_nodeHash_eq hleaf hfree hstep hpair heq) hclimb
  have hasked : leaf.bytes ∈ inclusionInputs P statements leaf path index :=
    List.mem_append_right _ (List.mem_append_right _ List.mem_cons_self)
  rcases BinaryMerkle.mem_nodes (nodeHash P) hstart with hlevel | ⟨pair, hpair, heq⟩
  · obtain ⟨other, hother, heq⟩ := List.mem_map.mp hlevel
    have hbytes := hfree
      (List.mem_append_left _ (List.mem_append_right _ (List.mem_map_of_mem hother))) hasked heq
    exact Buff32.ext hbytes ▸ hother
  · have hbytes : leaf.bytes = pairBytes pair :=
      hfree hasked
        (List.mem_append_right _ (List.mem_append_left _ (List.mem_map_of_mem hpair))) heq
    obtain ⟨hfst, hsnd⟩ := length_pairBytes hpair
    have htotal := congrArg List.length hbytes
    simp only [pairBytes, List.length_append] at htotal
    omega

end

end Verifier

/-- The inclusion check accepts every leaf of an aggregation under its path and
nothing else, and the two contracts make the same check. -/
theorem aggregation_check (P : Primitives) (statements : List Bytes)
    (hstatements : ∀ statement ∈ statements, statement.length = 128)
    (hcount : statements.length ≤ 2 ^ 32) :
    (∀ index leaf, (statements.map P.keccak256)[index]? = some leaf →
      (Verifier.merklePath P (statements.map P.keccak256) index).length ≤ 32 ∧
        some (Verifier.computeMerkleRoot P leaf
          (Verifier.merklePath P (statements.map P.keccak256) index) index statements.length) =
          Verifier.aggregationRoot P (statements.map P.keccak256)) ∧
    (∀ (leaf : Buff32) (path : List Buff32) (index : Nat), leaf.bytes.length = 32 →
      path.length ≤ 32 → index < statements.length →
      Set.InjOn P.keccak256
        { input | input ∈ Verifier.inclusionInputs P statements leaf path index } →
      some (Verifier.computeMerkleRoot P leaf path index statements.length) =
        Verifier.aggregationRoot P (statements.map P.keccak256) →
      leaf ∈ statements.map P.keccak256) ∧
    ∀ (leaf : Buff32) (path : List Buff32) (index count : Nat),
      Sip10ZkVerifier.computeMerkleRoot P leaf path index count =
        Verifier.computeMerkleRoot P leaf path index count := by
  have hlength : (statements.map P.keccak256).length = statements.length := List.length_map _
  refine ⟨fun index leaf hleaf => ⟨?_, ?_⟩, fun leaf path index hleaf _ _ hfree h => ?_,
    Sip10ZkVerifier.computeMerkleRoot_eq P⟩
  · exact Verifier.length_merklePath_le P index (hlength ▸ hcount)
  · rw [← hlength]
    exact Verifier.computeMerkleRoot_merklePath P hleaf
  · rw [← hlength] at h
    exact Verifier.mem_of_computeMerkleRoot hstatements hleaf hfree h

namespace Sample

/-- Three statements: the last one is carried up a level. -/
def aggregated : List Bytes :=
  [List.replicate 128 1, List.replicate 128 2, List.replicate 128 3]

def carriedPath : List Buff32 := Verifier.merklePath primitives (aggregated.map digest) 2

theorem aggregated_collisionFree :
    Set.InjOn digest
      { input | input ∈ Verifier.inclusionInputs primitives aggregated
          (digest (List.replicate 128 3)) carriedPath 2 } := by
  have hpairs : ∀ first ∈ Verifier.inclusionInputs primitives aggregated
        (digest (List.replicate 128 3)) carriedPath 2,
      ∀ second ∈ Verifier.inclusionInputs primitives aggregated
        (digest (List.replicate 128 3)) carriedPath 2,
      digest first = digest second → first = second := by decide +kernel
  exact fun first hfirst second hsecond => hpairs first hfirst second hsecond

end Sample

/-- The carried leaf reaches the root under a path of one sibling, and what
reaches it there is a leaf of the aggregation. -/
theorem aggregation_check_three :
    Sample.carriedPath.length = 1 ∧
      some (Verifier.computeMerkleRoot Sample.primitives (Sample.digest (List.replicate 128 3))
        Sample.carriedPath 2 3) =
        Verifier.aggregationRoot Sample.primitives (Sample.aggregated.map Sample.digest) ∧
      Sample.digest (List.replicate 128 3) ∈ Sample.aggregated.map Sample.digest := by
  obtain ⟨hcomplete, hsound, -⟩ :=
    aggregation_check Sample.primitives Sample.aggregated (by decide +kernel) (by decide)
  obtain ⟨hpath, hroot⟩ := hcomplete 2 (Sample.digest (List.replicate 128 3)) rfl
  exact ⟨by decide +kernel, hroot,
    hsound _ Sample.carriedPath 2 (Sample.digest_length _) hpath (by decide)
      Sample.aggregated_collisionFree hroot⟩

end StxShield
