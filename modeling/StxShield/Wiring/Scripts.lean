import StxShield.Chain.Interface

/-!
# The deployer's scripts

What the deployer signs once the contracts are on chain: the scripts that wire the STX
contracts, configure the SIP-10 ones, seat relayers, set fees and move the circuit version.
A script is the list of its calls, each with what the script does when the call throws.
-/

namespace StxShield.Wiring

/-- What a script does with the error of a call. -/
inductive OnThrow where
  | stop
  /-- It logs the error and goes on. -/
  | skip
  /-- It goes on if the message mentions one of these. -/
  | skipOn (texts : List String)
  deriving DecidableEq

inductive Step where
  /-- A call of a public function; the contract may not have the function that is named. -/
  | send (call : Option Call) (onThrow : OnThrow)
  | raise (message : String)

def Step.call? : Step → Option Call
  | .send call _ => call
  | .raise _ => none

/-- A list of calls that all have to succeed. -/
def sendAll (calls : List Call) : List Step := calls.map fun call => .send (some call) .stop

/-- `CIRCUITS`, by proof type. -/
def circuits : List Nat := [1, 2, 3, 4, 5]

/-! ## wire-contracts -/

/-- `AUTHORIZED_CALLERS` -/
def authorizedCallers : List Principal := [.privacyPool, .noteManager, .splitMergeManager]

/-- `STX_CIRCUIT_VERSION` -/
def stxCircuitVersion : Nat := 2

/-- The options, with the hex texts as the buffers `hexBuf` makes of them.  A proof length
that is missing reads as zero. -/
structure WireOptions where
  vkeyHashes : Nat → Option Buff32
  proofLengths : Nat → Nat
  relayer : Option Principal
  treasury : Option Principal
  fees : List (Nat × Nat × Nat)
  genesisRoot : Buff32
  zkverifyContextHash : Option Buff32
  zkverifyBindings : Nat → Option (Buff32 × Buff32)

section WireContracts

variable (opts : WireOptions)

def registerVkey (proofType : Nat) : List Step :=
  match opts.vkeyHashes proofType with
  | some vkey =>
      if opts.proofLengths proofType = 0 then []
      else
        [.send (some (.zkVerifier (.registerVerificationKey proofType stxCircuitVersion vkey
          (opts.proofLengths proofType)))) .skip]
  | none => []

def bindZkverify (proofType : Nat) : List Step :=
  match opts.zkverifyBindings proofType with
  | some (zkvVkey, versionHash) =>
      [.send (some (.zkVerifier (.setZkverifyBinding proofType stxCircuitVersion zkvVkey
        versionHash))) .skip]
  | none => []

/-- No contract of the deployment has a `set-treasury`, so that call always aborts. -/
def wireContracts : List Step :=
  (authorizedCallers.map fun caller =>
    .send (some (.privacyRegistry (.addAuthorizedCaller caller))) .skip) ++
  [.send (some (.privacyRegistry (.updateRoot opts.genesisRoot 1))) .skip] ++
  circuits.flatMap (registerVkey opts) ++
  (match opts.zkverifyContextHash with
    | some contextHash => [.send (some (.zkVerifier (.setZkverifyContextHash contextHash))) .skip]
    | none => []) ++
  circuits.flatMap (bindZkverify opts) ++
  (match opts.relayer with
    | some relayer => [.send (some (.zkVerifier (.addRelayer relayer))) .skip]
    | none => []) ++
  (match opts.treasury with
    | some _ => [.send none .skip]
    | none => []) ++
  sendAll (opts.fees.map fun fee => .protocolFees (.setFee fee.1 fee.2.1 fee.2.2 true))

end WireContracts

/-! ## configure-sip10 -/

/-- `SIP10_CIRCUIT_VERSION` -/
def sip10CircuitVersion : Nat := 2

/-- `PROOF_LEN` -/
def proofLen : Nat := 7872

/-- The key material of one circuit. -/
structure KeyMaterial where
  vkHash : Buff32
  zkvVkeyHash : Buff32
  versionHash : Buff32

structure AssetSpec where
  contract : Principal
  name : Library.Bytes
  decimals : Nat
  minShield : Nat
  maxShield : Nat

/-- The environment file: `keys` and `assets` are missing when one of their variables is. -/
structure Sip10Env where
  relayerAddress : Option Principal
  keys : Option (Buff32 × (Nat → KeyMaterial))
  assets : Option (List AssetSpec)
  feeRecipient : Option Principal

/-- Errors of the contracts that the scripts take to mean that the work is done. -/
def alreadyAuthorized : String := "u144"
def poolAlreadySet : String := "u573"
def relayerSeated : String := "u318"
def vkeyExists : String := "u556"
def assetExists : String := "u401"
def versionReached : String := "u572"

/-- Errors of a token that is not on chain. -/
def noToken : List String := ["NoSuchContract", "BadFunctionArgument"]

def missingVariables (what : String) : Step :=
  .raise ("Missing required .env.v2.deploy variables: " ++ what)

def registerVerificationKey (proofType : Nat) (material : KeyMaterial) : List Step :=
  [.send (some (.sip10ZkVerifier (.common (.registerVerificationKey proofType sip10CircuitVersion
      material.vkHash proofLen)))) (.skipOn [vkeyExists]),
    .send (some (.sip10ZkVerifier (.common (.setZkverifyBinding proofType sip10CircuitVersion
      material.zkvVkeyHash material.versionHash)))) .stop]

def registerVerificationKeys (e : Sip10Env) : List Step :=
  match e.keys with
  | none => [missingVariables "keys"]
  | some (contextHash, material) =>
      .send (some (.sip10ZkVerifier (.common (.setZkverifyContextHash contextHash)))) .stop ::
        circuits.flatMap fun proofType => registerVerificationKey proofType (material proofType)

def AssetSpec.args (spec : AssetSpec) (feeRecipient : Principal) : RegisterAssetArgs where
  token := spec.contract
  name := spec.name
  decimals := spec.decimals
  minShield := spec.minShield
  maxShield := spec.maxShield
  minNote := 1
  maxNote := 0
  feeRecipient := feeRecipient
  version := 1

def registerAssets (deployer : Principal) (e : Sip10Env) : List Step :=
  match e.assets with
  | none => [missingVariables "assets"]
  | some specs =>
      specs.map fun spec =>
        .send (some (.assetRegistry (.registerAsset (spec.args (e.feeRecipient.getD deployer)))))
          (.skipOn (assetExists :: noToken))

/-- The keys are asked for after the first three calls have been made. -/
def configureSip10 (deployer : Principal) (e : Sip10Env) : List Step :=
  [.send (some (.privacyRegistry (.addAuthorizedCaller .sip10Pool))) (.skipOn [alreadyAuthorized]),
    .send (some (.sip10ZkVerifier (.setAuthorizedPool .sip10Pool))) (.skipOn [poolAlreadySet]),
    .send (some (.sip10ZkVerifier (.common (.addRelayer (e.relayerAddress.getD deployer)))))
      (.skipOn [relayerSeated])] ++
  registerVerificationKeys e ++ registerAssets deployer e ++
  [.send (some (.sip10ZkVerifier (.setCircuitVersion sip10CircuitVersion)))
    (.skipOn [versionReached])]

/-! ## set-sip10-fees -/

/-- The bps of shield and withdrawal, and the flat fee of the other operations, in base
units of the asset. -/
structure FeePlan where
  shieldBps : Nat
  withdrawBps : Nat
  flat : Nat

/-- Fee types with their bps and flat fee; a plan entry of zero fees is left as it is. -/
def FeePlan.entries (plan : FeePlan) : List (Nat × Nat × Nat) :=
  [(1, plan.shieldBps, 0), (3, plan.withdrawBps, 0), (2, 0, plan.flat), (4, 0, plan.flat),
    (5, 0, plan.flat)].filter fun entry => ¬ (entry.2.1 = 0 ∧ entry.2.2 = 0)

/-- The calls for one asset, under the id that was read for it. -/
def setSip10Fees (assetId : Nat) (plan : FeePlan) : List Step :=
  sendAll (plan.entries.map fun entry =>
    .assetRegistry (.setAssetFeeConfig assetId entry.1 entry.2.1 entry.2.2 true))

/-! ## set-relayers -/

/-- For one verifier: who is to be seated and removed, given who is read to be seated when
it is looked up. -/
def setRelayers (verifier : Verifier.Call → Call) (relayers removeList : List Principal)
    (isRelayer isStillRelayer : Principal → Bool) : List Step :=
  sendAll ((relayers.filter fun who => !isRelayer who).map fun who => verifier (.addRelayer who)) ++
  sendAll ((removeList.filter fun who => !relayers.contains who && isStillRelayer who).map
    fun who => verifier (.removeRelayer who))

/-! ## circuit-upgrade -/

/-- The circuit's next version, from the versions that are read at the start and in the
upgrade window; a circuit whose key material is missing ends the script. -/
def circuitUpgrade (current : Nat) (staged : Nat → Option (Buff32 × Nat))
    (versions : ProtocolVersions) : List Step :=
  (circuits.flatMap fun proofType =>
    match staged proofType with
    | some (hash, len) =>
        [.send (some (.zkVerifier (.registerVerificationKey proofType (current + 1) hash len)))
          .skip]
    | none => [.raise "MISSING VKEY_HASH / PROOF_LEN"]) ++
  sendAll
    [.privacyRegistry .pauseProtocol, .privacyRegistry .beginUpgrade,
      .privacyRegistry (.updateVersions { versions with circuit := current + 1 }),
      .privacyRegistry .completeUpgrade]

/-! ## All of them -/

/-- A call of one of the scripts, with whatever options it is run. -/
inductive Scripted (deployer : Principal) (genesis : Buff32) (call : Call) : Prop where
  | wireContracts (opts : WireOptions) (hroot : opts.genesisRoot = genesis)
      (h : call ∈ (wireContracts opts).filterMap Step.call?)
  | configureSip10 (e : Sip10Env) (h : call ∈ (configureSip10 deployer e).filterMap Step.call?)
  | setSip10Fees (assetId : Nat) (plan : FeePlan)
      (h : call ∈ (setSip10Fees assetId plan).filterMap Step.call?)
  | setRelayers (relayers removeList : List Principal) (isRelayer isStillRelayer : Principal → Bool)
      (h : call ∈ (setRelayers .zkVerifier relayers removeList isRelayer
        isStillRelayer).filterMap Step.call?)
  | setSip10Relayers (relayers removeList : List Principal)
      (isRelayer isStillRelayer : Principal → Bool)
      (h : call ∈ (setRelayers (fun call => .sip10ZkVerifier (.common call)) relayers removeList
        isRelayer isStillRelayer).filterMap Step.call?)
  | circuitUpgrade (current : Nat) (staged : Nat → Option (Buff32 × Nat))
      (versions : ProtocolVersions)
      (h : call ∈ (circuitUpgrade current staged versions).filterMap Step.call?)

/-- What the calls of the scripts have in common. -/
def Routine (genesis : Buff32) : Call → Prop
  | .privacyRegistry (.addAuthorizedCaller who) => who.isProtocol = true
  | .privacyRegistry (.updateRoot root _) => root = genesis
  | .privacyRegistry .pauseProtocol => True
  | .privacyRegistry .beginUpgrade => True
  | .privacyRegistry (.updateVersions _) => True
  | .privacyRegistry .completeUpgrade => True
  | .zkVerifier (.setZkverifyContextHash _) => True
  | .zkVerifier (.setZkverifyBinding ..) => True
  | .zkVerifier (.addRelayer _) => True
  | .zkVerifier (.removeRelayer _) => True
  | .zkVerifier (.registerVerificationKey ..) => True
  | .sip10ZkVerifier (.common (.setZkverifyContextHash _)) => True
  | .sip10ZkVerifier (.common (.setZkverifyBinding ..)) => True
  | .sip10ZkVerifier (.common (.addRelayer _)) => True
  | .sip10ZkVerifier (.common (.removeRelayer _)) => True
  | .sip10ZkVerifier (.common (.registerVerificationKey ..)) => True
  | .sip10ZkVerifier (.setCircuitVersion _) => True
  | .sip10ZkVerifier (.setAuthorizedPool pool) => pool = .sip10Pool
  | .protocolFees (.setFee ..) => True
  | .assetRegistry (.registerAsset _) => True
  | .assetRegistry (.setAssetFeeConfig ..) => True
  | _ => False

variable {deployer : Principal} {genesis : Buff32} {call : Call}

theorem sendAll_calls (calls : List Call) : (sendAll calls).filterMap Step.call? = calls := by
  rw [sendAll, List.filterMap_map]
  exact List.filterMap_some

theorem routine_of_wireContracts {opts : WireOptions} (hroot : opts.genesisRoot = genesis)
    (h : call ∈ (wireContracts opts).filterMap Step.call?) : Routine genesis call := by
  simp only [wireContracts, List.filterMap_append, List.mem_append, sendAll_calls,
    List.filterMap_flatMap, List.mem_flatMap, List.mem_map] at h
  rcases h with ((((((h | h) | ⟨proofType, -, h⟩) | h) | ⟨proofType, -, h⟩) | h) | h) | ⟨fee, -, rfl⟩
  · simp only [authorizedCallers, List.map_cons, List.map_nil, List.filterMap_cons, Step.call?,
      List.filterMap_nil, List.mem_cons, List.not_mem_nil, or_false] at h
    rcases h with rfl | rfl | rfl
    all_goals exact rfl
  · obtain rfl := List.mem_singleton.mp h
    exact hroot
  · unfold registerVkey at h
    split at h
    · split at h
      · cases h
      · obtain rfl := List.mem_singleton.mp h
        trivial
    · cases h
  · split at h
    · obtain rfl := List.mem_singleton.mp h
      trivial
    · cases h
  · unfold bindZkverify at h
    split at h
    · obtain rfl := List.mem_singleton.mp h
      trivial
    · cases h
  · split at h
    · obtain rfl := List.mem_singleton.mp h
      trivial
    · cases h
  · split at h
    · cases h
    · cases h
  · trivial

theorem routine_of_configureSip10 {e : Sip10Env}
    (h : call ∈ (configureSip10 deployer e).filterMap Step.call?) : Routine genesis call := by
  simp only [configureSip10, List.filterMap_append, List.mem_append] at h
  rcases h with ((h | h) | h) | h
  · simp only [List.filterMap_cons, Step.call?, List.filterMap_nil, List.mem_cons,
      List.not_mem_nil, or_false] at h
    rcases h with rfl | rfl | rfl
    · rfl
    · rfl
    · trivial
  · unfold registerVerificationKeys at h
    split at h
    · cases h
    · simp only [List.filterMap_cons, Step.call?, List.filterMap_flatMap, List.mem_cons,
        List.mem_flatMap, registerVerificationKey, List.filterMap_nil, List.not_mem_nil,
        or_false] at h
      rcases h with rfl | ⟨proofType, -, rfl | rfl⟩
      all_goals trivial
  · unfold registerAssets at h
    split at h
    · cases h
    · simp only [List.mem_filterMap, List.mem_map] at h
      obtain ⟨step, ⟨spec, -, rfl⟩, hcall⟩ := h
      cases hcall
      trivial
  · obtain rfl := List.mem_singleton.mp h
    trivial

theorem routine_of_circuitUpgrade {current : Nat} {staged : Nat → Option (Buff32 × Nat)}
    {versions : ProtocolVersions}
    (h : call ∈ (circuitUpgrade current staged versions).filterMap Step.call?) :
    Routine genesis call := by
  simp only [circuitUpgrade, List.filterMap_append, List.mem_append, sendAll_calls,
    List.filterMap_flatMap, List.mem_flatMap, List.mem_cons, List.not_mem_nil, or_false] at h
  rcases h with ⟨proofType, -, h⟩ | rfl | rfl | rfl | rfl
  · split at h
    · obtain rfl := List.mem_singleton.mp h
      trivial
    · cases h
  all_goals trivial

theorem Scripted.routine (h : Scripted deployer genesis call) : Routine genesis call := by
  cases h with
  | wireContracts opts hroot h => exact routine_of_wireContracts hroot h
  | configureSip10 e h => exact routine_of_configureSip10 h
  | circuitUpgrade current staged versions h => exact routine_of_circuitUpgrade h
  | setSip10Fees assetId plan h =>
      rw [Wiring.setSip10Fees, sendAll_calls, List.mem_map] at h
      obtain ⟨entry, -, rfl⟩ := h
      trivial
  | setRelayers relayers removeList isRelayer isStillRelayer h =>
      simp only [Wiring.setRelayers, List.filterMap_append, sendAll_calls, List.mem_append,
        List.mem_map] at h
      rcases h with ⟨who, -, rfl⟩ | ⟨who, -, rfl⟩
      all_goals trivial
  | setSip10Relayers relayers removeList isRelayer isStillRelayer h =>
      simp only [Wiring.setRelayers, List.filterMap_append, sendAll_calls, List.mem_append,
        List.mem_map] at h
      rcases h with ⟨who, -, rfl⟩ | ⟨who, -, rfl⟩
      all_goals trivial

end StxShield.Wiring
