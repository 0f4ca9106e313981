import Mathlib.Data.ZMod.Defs
import StxShield.Protocol.Solvency

/-!
# Shielded solvency

The shielded totals are backed by notes: behind the registered commitments
there are coins, and the totals are what the unspent ones are worth.
-/

namespace StxShield

open Library Circuit

/-- In every reachable state of a wired deployment each registered commitment
opens to one coin, and the coins whose nullifier is not registered are worth
the registry's STX total and, asset by asset, the pool's SIP-10 totals. -/
theorem shielded_solvency {env : Env} {w : World} (hreach : Reachable env w) {B : Builtins}
    {Q : Queries} (hfree : CollisionFree env.primitives B Q)
    (hsound : Sound env.primitives B Q w.history) (hwired : Wired B w.history) :
    ∃ coins : List Coin,
      w.registry.leaves = coins.map (leafOf B) ∧ coins.Nodup ∧
      (∀ coin ∈ coins, Opened B Q coin ∧
        ∀ other, Opened B Q other → leafOf B other = leafOf B coin → other = coin) ∧
      unspentValue B none w.registry.ledger.nullifiers coins =
        w.registry.protocolStatistics.totalShieldedStx ∧
      ∀ token assetUid, w.assetRegistry.getAssetIdByPrincipal token = some assetUid →
        unspentValue B (some (fePrincipal env.primitives token)) w.registry.ledger.nullifiers
          coins = w.sip10Pool.getShieldedTotal assetUid := by
  obtain ⟨poolStx, hsteps⟩ := hreach.steps
  obtain ⟨coins, h⟩ := Invariant.run hfree hsound hwired (hsteps _ (List.Subset.refl _))
  refine ⟨coins, h.tree.leaves, h.tree.coins_nodup, fun coin hcoin => ⟨h.tree.opened coin hcoin,
    fun other hother hsame => ?_⟩, h.solvent.stx, h.solvent.sip10⟩
  exact hfree.coin_eq hother (h.tree.opened coin hcoin) (fieldBuff_injective hsame)

/-! ## A sample run

A deployment with small hash functions and a token that calls back: whenever
it is asked to transfer, it has the transaction sender shield STX first. -/

namespace Sample

def digest (input : Bytes) : Buff32 :=
  ⟨bigEndian 32 (input.foldl (fun acc byte => acc * 257 + byte.toNat + 1) 0), by simp⟩

theorem digest_length (input : Bytes) : (digest input).bytes.length = 32 := bigEndian_length 32 _

def primitives : Primitives where
  keccak256 := digest
  keccak256_length := digest_length
  sha256 := digest
  sha256_length := digest_length
  consensusBuff
    | .account id => 5 :: bigEndian 20 id
    | contract => 6 :: bigEndian 20 contract.ctorIdx

def builtins : Builtins where
  hash2 left right := 3 * left + 5 * right + 7
  hash4 first second third fourth :=
    first + 1009 * second + 10007 * third + 100003 * fourth + 2 ^ 100
  fixedBaseScalarMul ownerSk := (ownerSk, 0)

def owner : Principal := .account 0
def alice : Principal := .account 1
def token : Principal := .account 2

def sentBy (who : Principal) : Ctx where
  txSender := who
  contractCaller := who
  height := 1
  stack := []

/-! ### Statements -/

/-- The path to slot 0 or 1 of a tree that holds nothing else. -/
def path (second : Bool) : MerklePath where
  steps := (List.range treeDepth).map fun height =>
    (second && height == 0, MerkleTree.emptySubtree builtins.hash2 emptyLeaf height)
  length_eq := by simp

def tokenField : Fr := Fin.ofNat _ (bigEndianValue (fePrincipal primitives token))

def stxCoin : Coin := ⟨none, { amount := 1000000, ownerPkX := 11, ownerPkY := 0, blinding := 21 }⟩

def tokenCoin : Coin :=
  ⟨some tokenField, { amount := 500, ownerPkX := 12, ownerPkY := 1, blinding := 22 }⟩

def shieldPublic (coin : Coin) (second : Bool) : Shield.Public where
  op := 1
  commitment := coin.commitment builtins
  ownerCommitment := builtins.hash2 coin.note.ownerPkX coin.note.ownerPkY
  amount := coin.note.amount
  oldRoot := MerkleTree.emptySubtree builtins.hash2 emptyLeaf treeDepth
  newRoot := MerkleTree.climb builtins.hash2 (coin.commitment builtins) (path second).steps
  leafIndex := if second then 1 else 0
  circuitVersion := 2

def withdrawPublic : Withdraw.Public where
  op := 3
  nullifier := builtins.hash2 (stxCoin.commitment builtins) 11
  amount := stxCoin.note.amount
  recipientHash := Fin.ofNat _ (bigEndianValue (fePrincipal primitives alice))
  merkleRoot := (shieldPublic stxCoin false).newRoot
  circuitVersion := 2

def shieldStx : Statement := ⟨none, .shield (shieldPublic stxCoin false)⟩
def shieldToken : Statement := ⟨some tokenField, .shield (shieldPublic tokenCoin true)⟩
def shieldTokenFirst : Statement := ⟨some tokenField, .shield (shieldPublic tokenCoin false)⟩
def withdrawStx : Statement := ⟨none, .withdraw withdrawPublic⟩

def statements : List Statement := [shieldStx, shieldToken, shieldTokenFirst, withdrawStx]

/-- The inputs that the proofs and the empty tree hash, and the nullifiers of
whatever they open. -/
def poseidon : List Query :=
  ((List.range treeDepth).map fun height =>
      let node := MerkleTree.emptySubtree builtins.hash2 emptyLeaf height
      .hash2 node node) ++
    stxCoin.queries builtins ++ tokenCoin.queries builtins ++ [.hash2 11 0, .hash2 12 1] ++
    pathQueries builtins (stxCoin.commitment builtins) (path false) ++
    pathQueries builtins (tokenCoin.commitment builtins) (path true) ++
    pathQueries builtins (tokenCoin.commitment builtins) (path false) ++
    [.hash2 (stxCoin.commitment builtins) 11,
      .hash2 (builtins.hash2 (stxCoin.commitment builtins) 11) 11,
      .hash2 (builtins.hash2 (stxCoin.commitment builtins) 0) 11]

def queries : Queries where
  poseidon := { query | query ∈ poseidon }
  preimages := { input | input ∈ statements.map Statement.encode }
  principals := {token}

/-- What two queries open can be nullified within the queries; only a key whose
second coordinate is zero has a secret. -/
def nullifiersAsked : Query → Query → Bool
  | .hash4 amount x y blinding, .hash2 inner assetId =>
      y ≠ 0 ∨
        .hash2 (builtins.hash4 amount x y blinding) x ∈ poseidon ∧
          (inner = builtins.hash4 amount x y blinding →
            .hash2 (builtins.hash2 inner assetId) x ∈ poseidon)
  | _, _ => true

theorem collisionFree : CollisionFree primitives builtins queries where
  poseidon := by
    have hnodup : (poseidon.map builtins.hash).Nodup := by decide +kernel
    exact fun left hleft right hright h => List.inj_on_of_nodup_map hnodup hleft hright h
  nonzero := by
    have hnonzero : ∀ query ∈ poseidon, builtins.hash query ≠ 0 := by decide +kernel
    exact hnonzero
  derivation ownerSk ownerSk' h := congrArg Prod.fst h
  keccak256 := by
    have hnodup : ((statements.map Statement.encode).map digest).Nodup := by decide +kernel
    exact fun left hleft right hright h => List.inj_on_of_nodup_map hnodup hleft hright h
  principals := Set.injOn_singleton _ _
  emptyTree := by
    have hempty : ∀ height < treeDepth,
        Query.hash2 (MerkleTree.emptySubtree builtins.hash2 emptyLeaf height)
          (MerkleTree.emptySubtree builtins.hash2 emptyLeaf height) ∈ poseidon := by decide +kernel
    exact MerkleTree.within_empty builtins.hash2 hempty
  nullifiers := by
    -- one coin has an owner, and the paths' hashes open it under two asset ids as well
    have hclosed : ∀ opening ∈ poseidon, ∀ binding ∈ poseidon, nullifiersAsked opening binding := by
      decide +kernel
    rintro ⟨asset, amount, x, y, blinding⟩ ownerSk hopened hkey
    obtain ⟨rfl, rfl⟩ := Prod.mk.inj (hkey : (ownerSk, (0 : Fr)) = (x, y))
    have hinner := hopened _ List.mem_cons_self
    cases asset with
    | none =>
        have hasked := hclosed _ hinner (.hash2 11 0) (by decide +kernel)
        simp only [nullifiersAsked, decide_eq_true_eq, ne_eq, not_true_eq_false, false_or] at hasked
        exact hasked.1
    | some assetId =>
        have hasked := hclosed _ hinner _ (hopened _ (List.mem_cons_of_mem _ List.mem_cons_self))
        simp only [nullifiersAsked, decide_eq_true_eq, ne_eq, not_true_eq_false, false_or] at hasked
        exact hasked.2 rfl

/-! ### Provability -/

theorem shieldStx_holds : shieldStx.Holds builtins queries.poseidon :=
  provable_of_accepts (⟨stxCoin.note, path false⟩ : Shield.Witness) (by decide +kernel)

theorem shieldToken_holds : shieldToken.Holds builtins queries.poseidon :=
  provable_of_accepts (⟨tokenCoin.note, path true⟩ : Shield.Witness) (by decide +kernel)

theorem shieldTokenFirst_holds : shieldTokenFirst.Holds builtins queries.poseidon :=
  provable_of_accepts (⟨tokenCoin.note, path false⟩ : Shield.Witness) (by decide +kernel)

theorem withdrawStx_holds : withdrawStx.Holds builtins queries.poseidon :=
  provable_of_accepts (⟨stxCoin.note, 11, path false⟩ : Withdraw.Witness) (by decide +kernel)

/-! ### Calls -/

def shieldArgs (x : Shield.Public) : ShieldArgs where
  amount := Fin.ofNat _ x.amount.val
  commitment := fieldBuff x.commitment
  ownerCommitment := fieldBuff x.ownerCommitment
  metadata := zeroHash
  currentRoot := fieldBuff x.oldRoot
  newRoot := fieldBuff x.newRoot
  leafIndex := Fin.ofNat _ x.leafIndex.val

def withdrawArgs : WithdrawArgs where
  nullifier := fieldBuff withdrawPublic.nullifier
  amount := Fin.ofNat _ withdrawPublic.amount.val
  recipient := alice
  root := fieldBuff withdrawPublic.merkleRoot

theorem no_siblings_length : ([] : List Buff32).length ≤ 32 := Nat.zero_le 32

/-- The only statement of an aggregation. -/
def inclusion (aggregationId : Nat) : Inclusion where
  domainId := 0
  aggregationId := aggregationId
  merklePath := ⟨[], no_siblings_length⟩
  aggLeafIndex := 0

def callShieldStx : Call :=
  .privacyPool (.shield (shieldArgs (shieldPublic stxCoin false)) (inclusion 1))

def callShieldToken : Call :=
  .sip10Pool (.shield token (shieldArgs (shieldPublic tokenCoin true)) (inclusion 1))

def callShieldTokenFirst : Call :=
  .sip10Pool (.shield token (shieldArgs (shieldPublic tokenCoin false)) (inclusion 2))

def callWithdrawStx : Call := .privacyPool (.withdraw withdrawArgs (inclusion 3))

/-- A verifier is told of a circuit and of an aggregation with one statement. -/
def publish (aggregationId : Nat) (statement : Statement) : List Verifier.Call :=
  let key := digest [1]
  let leaf := Verifier.statementLeaf primitives key key key (digest statement.encode)
  let root := Verifier.computeMerkleRoot primitives leaf [] 0 1
  [.registerVerificationKey statement.proofType 2 key 100, .setZkverifyContextHash key,
    .setZkverifyBinding statement.proofType 2 key key,
    .submitAggregation 0 aggregationId root 1]

def setup : List Call :=
  [.privacyRegistry (.addAuthorizedCaller .noteManager),
    .privacyRegistry (.addAuthorizedCaller .privacyPool),
    .privacyRegistry (.addAuthorizedCaller .sip10Pool),
    .privacyRegistry (.updateRoot (fieldBuff (shieldPublic stxCoin false).oldRoot) 1)] ++
  (publish 1 shieldStx ++ publish 3 withdrawStx).map .zkVerifier ++
  (publish 1 shieldToken ++ publish 2 shieldTokenFirst).map (fun call =>
    .sip10ZkVerifier (.common call)) ++
  [.sip10ZkVerifier (.setCircuitVersion 2), .sip10ZkVerifier (.setAuthorizedPool .sip10Pool),
    .assetRegistry (.registerAsset
      { token := token, name := [84], decimals := 6, minShield := 1, maxShield := 1000,
        minNote := 1, maxNote := 0, feeRecipient := owner, version := 1 })]

/-- The token's ledger is honest, but shielding STX comes first. -/
def code (self : Principal) (_ : Ctx) : TokenFunction → Program
  | .transfer amount sender recipient =>
      .invoke false callShieldStx fun _ =>
        .store (fun ledger =>
            { ledger with balances := World.moved ledger.balances amount sender recipient })
          (.reply (.ok 1))
  | .getBalance who => .inspect fun w => .reply (.ok ((w.tokens self).balances who))
  | .getDecimals => .reply (.ok 6)
  | .other _ => .reply (.ok 0)

def env : Env where
  primitives := primitives
  code := code

/-! ### States -/

def start : World :=
  World.deployed owner (fun _ => 10000000) fun _ => { balances := fun _ => 1000, memory := 0 }

/-- Ready for operations. -/
def ready : World := transactAll env 1 (sentBy owner) setup start

/-- STX have been shielded. -/
def shielded : World := transact env 1 (sentBy alice) callShieldStx ready

/-- Tokens have been shielded, and STX in the middle of that. -/
def interleaved : World := transact env 2 (sentBy alice) callShieldToken ready

/-- The STX have been withdrawn again. -/
def withdrawn : World := transact env 1 (sentBy alice) callWithdrawStx interleaved

/-- Shielding STX has been switched off, so the token's call fails. -/
def switchedOff : World :=
  transact env 1 (sentBy owner) (.privacyPool (.setShieldEnabled false)) ready

theorem owner_topLevel : (sentBy owner).TopLevel := ⟨rfl, rfl, rfl⟩

theorem alice_topLevel : (sentBy alice).TopLevel := ⟨rfl, rfl, rfl⟩

theorem ready_reachable : Reachable env ready :=
  (Reachable.deployed rfl _ _).transactAll owner_topLevel 1 setup

theorem shielded_reachable : Reachable env shielded :=
  ready_reachable.transact alice_topLevel 1 callShieldStx

theorem interleaved_reachable : Reachable env interleaved :=
  ready_reachable.transact alice_topLevel 2 callShieldToken

theorem switchedOff_reachable : Reachable env switchedOff :=
  ready_reachable.transact owner_topLevel 1 (.privacyPool (.setShieldEnabled false))

theorem withdrawn_reachable : Reachable env withdrawn :=
  interleaved_reachable.transact alice_topLevel 1 callWithdrawStx

/-! ### Histories -/

/-- Events of a wired deployment in which only the statements above, and the
inputs that belong to them, appear. -/
def expected : Event → Bool
  | .proofVerified verifier proofType inputsHash =>
      (verifier, proofType, inputsHash) ∈ statements.map fun statement =>
        (statement.verifier, statement.proofType, digest statement.encode)
  | .completed op version =>
      op.inputs primitives version ∈ statements.map Statement.encode
  | .called _ (.assetRegistry (.registerAsset args)) _ => args.token = token
  | .called _ (.privacyRegistry (.addAuthorizedCaller caller)) _ => caller.isProtocol
  | .called _ (.privacyRegistry (.updateRoot newRoot _)) _ =>
      newRoot = fieldBuff (shieldPublic stxCoin false).oldRoot
  | _ => true

theorem sound {H : List Event} (h : H.all expected) : Sound primitives builtins queries H where
  proved verifier proofType inputsHash hmem := by
    have hexpected := of_decide_eq_true (List.all_eq_true.mp h _ hmem)
    obtain ⟨statement, hstatement, heq⟩ := List.mem_map.mp hexpected
    cases heq
    refine ⟨statement, rfl, rfl, ?_, rfl, List.mem_map_of_mem hstatement⟩
    simp only [statements, List.mem_cons, List.not_mem_nil, or_false] at hstatement
    rcases hstatement with rfl | rfl | rfl | rfl
    · exact shieldStx_holds
    · exact shieldToken_holds
    · exact shieldTokenFirst_holds
    · exact withdrawStx_holds
  presented op version hmem := by
    have hexpected : expected (.completed op version) := List.all_eq_true.mp h _ hmem
    simpa [expected, queries] using hexpected
  registered ctx args registered hmem := by
    have hexpected : args.token = token := of_decide_eq_true (List.all_eq_true.mp h _ hmem)
    exact hexpected

theorem wired {H : List Event} (h : H.all expected) : Wired builtins H where
  authorized ctx caller registered hmem := List.all_eq_true.mp h _ hmem
  root ctx newRoot version registered hmem := by
    rw [emptyRoot_eq]
    exact of_decide_eq_true (List.all_eq_true.mp h _ hmem)

theorem shielded_expected : shielded.history.all expected := by decide +kernel

theorem interleaved_expected : interleaved.history.all expected := by decide +kernel

theorem withdrawn_expected : withdrawn.history.all expected := by decide +kernel

end Sample

/-- After the token's shield, the STX shield inside it and the withdrawal of the
STX the totals are 0 STX and 500 units of the token. -/
theorem shielded_solvency_withdrawn :
    Sample.withdrawn.registry.protocolStatistics.totalShieldedStx = 0 ∧
      Sample.withdrawn.sip10Pool.getShieldedTotal 1 = 500 ∧
      ∃ coins : List Coin,
        Sample.withdrawn.registry.leaves = coins.map (leafOf Sample.builtins) ∧
        unspentValue Sample.builtins none Sample.withdrawn.registry.ledger.nullifiers coins = 0 ∧
        unspentValue Sample.builtins (some (fePrincipal Sample.primitives Sample.token))
          Sample.withdrawn.registry.ledger.nullifiers coins = 500 := by
  have htotal : Sample.withdrawn.registry.protocolStatistics.totalShieldedStx = 0 := by
    decide +kernel
  have htoken : Sample.withdrawn.sip10Pool.getShieldedTotal 1 = 500 := by decide +kernel
  have hasset : Sample.withdrawn.assetRegistry.getAssetIdByPrincipal Sample.token = some 1 := by
    decide +kernel
  obtain ⟨coins, hleaves, -, -, hstx, hsip10⟩ := shielded_solvency Sample.withdrawn_reachable
    Sample.collisionFree (Sample.sound Sample.withdrawn_expected)
    (Sample.wired Sample.withdrawn_expected)
  exact ⟨htotal, htoken, coins, hleaves, hstx.trans htotal, (hsip10 _ _ hasset).trans htoken⟩

end StxShield
