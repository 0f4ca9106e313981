import StxShield.Sdk.Shielding
import StxShield.Sdk.SyncedTree
import StxShield.Security.RelayedStatements

/-!
# The shield that is submitted and the statement it proves

The old root that a shield declares is read from the chain, the one it proves is that of the
client's tree.  What is submitted is what was proved exactly if the two are the same, and
nothing moves the tree until the next root is taken.
-/

namespace StxShield.Sdk

open Library JavaScript Circuit Async RootPublisher Relay

/-! ## The call -/

section Arguments

variable {K : Packages} {lib : StacksLibrary} {rest : List ClarityValue}
  {inclusion : StxShield.Inclusion}

theorem shield?_some {c o m r r' : String} {amount index : Uint} {args : ShieldArgs}
    (h : shield? (.uint amount :: buf c :: buf o :: buf m :: buf r :: buf r' :: .uint index ::
      rest) = some (args, inclusion)) :
    args.amount = amount ∧ args.commitment.bytes = bufBytes c ∧
      args.ownerCommitment.bytes = bufBytes o ∧ args.currentRoot.bytes = bufBytes r ∧
      args.newRoot.bytes = bufBytes r' ∧ args.leafIndex = index := by
  simp only [shield?, Option.bind_eq_bind, Option.bind_eq_some_iff, Option.pure_def,
    Option.some.injEq, Prod.mk.injEq] at h
  obtain ⟨a, ha, c', hc, o', ho, m', hm, r₁, hr, r₂, hr', i, hi, _, _, hargs, _⟩ := h
  cases hargs
  cases ha
  cases hi
  exact ⟨rfl, buff32?_buf hc, buff32?_buf ho, buff32?_buf hr, buff32?_buf hr', rfl⟩

theorem uintOfAmount_ok {amount : Int} {value : Uint} (h : uintOfAmount lib amount = .ok value) :
    amount = value.val := by
  unfold uintOfAmount at h
  split at h
  case isTrue => cases h
  case isFalse hnonneg =>
    have hvalue := lib.uint_val _ value h
    omega

/-- The token in front, or nothing. -/
theorem shieldToken_ok {asset : AssetInfo} {token : List ClarityValue}
    (h : shieldToken K.clarity asset = .ok token) :
    (asset.native = true ∧ asset.currency? K = .ok .stx ∧ token = []) ∨
      ∃ principal, asset.native = false ∧ asset.currency? K = .ok (.sip10 principal) ∧
        token = [.principal principal] := by
  unfold shieldToken at h
  unfold AssetInfo.currency?
  cases hnative : asset.native with
  | true =>
      rw [hnative] at h
      cases h
      exact .inl ⟨rfl, rfl, rfl⟩
  | false =>
      rw [hnative] at h
      cases htoken : asset.token with
      | none =>
          rw [htoken] at h
          cases h
      | some text =>
          rw [htoken] at h
          obtain ⟨arg, harg, rfl⟩ := except_map_ok.mp h
          obtain ⟨principal, hprincipal, rfl⟩ := tokenArg_ok harg
          exact .inr ⟨principal, rfl, except_map_ok.mpr ⟨principal, hprincipal, rfl⟩, rfl⟩

/-- What the wallet signs is a shield of the asset, with these arguments. -/
theorem operation_of_submitShield {asset : AssetInfo} {amount : Int}
    {commitment ownerCommitment currentRoot newRoot : String} {leafIndex : Nat}
    {inc : Relay.Inclusion} {transaction : ShieldTransaction} {call : StxShield.Call}
    (hsubmit : submitShield K.clarity asset amount commitment ownerCommitment currentRoot newRoot
      leafIndex inc = .ok transaction)
    (hdecode : transaction.decode = some call) :
    ∃ currency args, call.operation? = some ⟨currency, .shield args⟩ ∧
      asset.currency? K = .ok currency ∧ amount = args.amount.val ∧
      args.commitment.bytes = bufBytes commitment ∧
      args.ownerCommitment.bytes = bufBytes ownerCommitment ∧
      args.currentRoot.bytes = bufBytes currentRoot ∧ args.newRoot.bytes = bufBytes newRoot ∧
      args.leafIndex.val = leafIndex := by
  unfold submitShield at hsubmit
  simp only [except_bind_ok, except_pure_ok] at hsubmit
  obtain ⟨incArgs, -, index, hindex, token, htoken, value, hvalue, rfl⟩ := hsubmit
  have hamount := uintOfAmount_ok hvalue
  have hleaf := K.clarity.uintOfNumber_val _ index hindex
  rcases shieldToken_ok htoken with ⟨hnative, hcurrency, rfl⟩ | ⟨principal, hnative, hcurrency, rfl⟩
  · simp only [ShieldTransaction.decode, hnative, if_true, List.nil_append] at hdecode
    obtain ⟨decoded, hargs, hcall⟩ := Option.bind_eq_some_iff.mp hdecode
    cases hcall
    obtain ⟨ha, hc, ho, hr, hr', hi⟩ := shield?_some hargs
    exact ⟨.stx, decoded.1, rfl, hcurrency, ha ▸ hamount, hc, ho, hr, hr', hi ▸ hleaf⟩
  · simp only [ShieldTransaction.decode, hnative, List.singleton_append] at hdecode
    obtain ⟨contract, hcontract, hdecode⟩ := Option.bind_eq_some_iff.mp hdecode
    cases hcontract
    obtain ⟨decoded, hargs, hcall⟩ := Option.bind_eq_some_iff.mp hdecode
    cases hcall
    obtain ⟨ha, hc, ho, hr, hr', hi⟩ := shield?_some hargs
    exact ⟨.sip10 principal, decoded.1, rfl, hcurrency, ha ▸ hamount, hc, ho, hr, hr', hi ▸ hleaf⟩

end Arguments

/-! ## The roots -/

section Roots

variable {K : Packages} {B : Builtins} {tree : CommitmentTree} {leaf : Bytes}

/-- The root that an append starts from. -/
def rootBefore (K : Packages) (tree : CommitmentTree) : Bytes :=
  CommitmentTree.fold K.builtins zero
    (CommitmentTree.pathFrom K.builtins tree.nodes treeDepth 0 tree.count)

theorem hash_length (l r : Bytes) : (CommitmentTree.hash B l r).length = 32 := by
  unfold CommitmentTree.hash
  exact encode_length (reduce _)

theorem fold_cons (leaf : Bytes) (step : Bool × Bytes) (rest : List (Bool × Bytes)) :
    CommitmentTree.fold B leaf (step :: rest) =
      CommitmentTree.fold B (CommitmentTree.hash B (MerkleTree.siblingPair leaf step).1
        (MerkleTree.siblingPair leaf step).2) rest := rfl

theorem fold_length (leaf : Bytes) (step : Bool × Bytes) (rest : List (Bool × Bytes)) :
    (CommitmentTree.fold B leaf (step :: rest)).length = 32 := by
  induction rest generalizing leaf step with
  | nil =>
      rw [fold_cons]
      exact hash_length _ _
  | cons next rest ih =>
      rw [fold_cons]
      exact ih _ next

/-- A path through the tree leads to a field element. -/
theorem fold_pathFrom_length {nodes : DataMap (Nat × Nat) Bytes} (leaf : Bytes) (index : Nat) :
    (CommitmentTree.fold B leaf (CommitmentTree.pathFrom B nodes treeDepth 0 index)).length =
      32 := by
  unfold treeDepth
  rw [CommitmentTree.pathFrom]
  exact fold_length _ _ _

theorem rootBefore_length : (rootBefore K tree).length = 32 := fold_pathFrom_length _ _

/-- After an append the root is a field element. -/
theorem root_insert_length {grown : Nat × CommitmentTree}
    (h : tree.insert K.builtins leaf = .ok grown) : (grown.2.root K.builtins).length = 32 := by
  obtain ⟨w, hw⟩ : ∃ w, tree.insertionWitness K.builtins leaf = .ok w := by
    unfold CommitmentTree.insert at h
    split at h
    case isTrue => cases h
    case isFalse hroom => exact ⟨_, if_neg hroom⟩
  obtain ⟨hroot, -⟩ := CommitmentTree.root_insert h hw
  unfold CommitmentTree.insertionWitness at hw
  split at hw
  case isTrue => cases hw
  case isFalse =>
    cases hw
    rw [hroot]
    exact fold_pathFrom_length _ _

theorem insertionFor_fields {insertion : InsertionWitness} {commitment : String}
    (h : insertionFor K tree commitment = .ok insertion) :
    ∃ w, tree.insertionWitness K.builtins (hexToBytes commitment) = .ok w ∧
      insertion.leafIndex = w.index ∧ insertion.oldRoot = bytesToBig (rootBefore K tree) ∧
      insertion.newRoot = bytesToBig w.newRoot := by
  obtain ⟨w, hw, hinsertion⟩ := except_bind_ok.mp h
  cases except_pure_ok.mp hinsertion
  refine ⟨w, hw, rfl, ?_, rfl⟩
  unfold CommitmentTree.insertionWitness at hw
  split at hw
  case isTrue => cases hw
  case isFalse =>
    cases hw
    rfl

end Roots

/-! ## What is submitted -/

/-- A shield, up to the call that the asset's pool receives. -/
def submitted (K : Packages) (replies : ShieldReplies) (base : Int) (client : Client) :
    Option (PreparedShield × StxShield.Call) :=
  match (prepareShield K replies base client).1 with
  | .returned p => p.transaction.decode.map fun call => (p, call)
  | _ => none

/-- The new note of a shield. -/
def IsShielded (K : Packages) (replies : ShieldReplies) (base : Int) (out : NewNote) : Prop :=
  ∃ asset keys, replies.assets = .returned asset ∧ replies.keys = .returned keys ∧
    newNote K base keys.owner (replies.blinding 0) asset = .ok out

/-- The chain and the API's list are in step: the asset has a field of its own, the
registry's circuit version is the one proved, the tree that the witness is taken from has
the chain's root, and appending the note gives the same root after the proof as before. -/
structure InStep (K : Packages) (replies : ShieldReplies) (base : Int) (root : Buff32)
    (version : Uint) : Prop where
  field : ∀ asset, replies.assets = .returned asset → assetFieldFor K asset ≠ .ok (some 0)
  version : ∀ asset, replies.assets = .returned asset → asset.native = true → version.val = 2
  root : ∀ commits synced, replies.commitments = .returned commits →
    rebuilt K commits = .ok synced → rootBefore K (replies.elsewhere synced).tree = root.bytes
  undisturbed : ∀ commits synced out, replies.commitments = .returned commits →
    rebuilt K commits = .ok synced → IsShielded K replies base out →
      rootAfter K (replies.meanwhile (replies.elsewhere synced)).tree
          (hexToBytes out.note.commitment) =
        rootAfter K (replies.elsewhere synced).tree (hexToBytes out.note.commitment)

section Shields

variable {K : Packages} {replies : ShieldReplies} {base : Int} {client client' : Client}
  {p : PreparedShield} {call : StxShield.Call} {root : Buff32} {version : Uint}

/-- The version that a pool binds is the one proved, for a token whatever the registry's. -/
theorem version_eq_iff {asset : AssetInfo} {currency : Currency}
    (hcurrency : asset.currency? K = .ok currency) :
    encode circuitVersion = StxShield.feUint (currency.boundVersion version) ↔
      (asset.native = true → version.val = 2) := by
  unfold AssetInfo.currency? at hcurrency
  by_cases hnative : asset.native = true
  · rw [if_pos hnative] at hcurrency
    cases hcurrency
    have hbound : Currency.stx.boundVersion version = version.val := rfl
    rw [hbound, StxShield.feUint_eq version.isLt]
    constructor
    · intro hsame _
      have htwo : encode circuitVersion = bigEndian 32 2 := rfl
      rw [htwo] at hsame
      exact (bigEndian_injective (by decide) (Nat.lt_trans version.isLt (by decide)) hsame).symm
    · intro hversion
      rw [hversion hnative]
      rfl
  · rw [if_neg hnative] at hcurrency
    have htoken : ∃ token, currency = .sip10 token := by
      cases htext : asset.token with
      | none =>
          rw [htext] at hcurrency
          cases hcurrency
      | some text =>
          rw [htext] at hcurrency
          obtain ⟨token, -, rfl⟩ := except_map_ok.mp hcurrency
          exact ⟨token, rfl⟩
    obtain ⟨token, rfl⟩ := htoken
    constructor
    · intro _ hsame
      exact absurd hsame hnative
    · intro _
      exact encode_circuitVersion (.sip10 token)

/-- A new note has the amount asked for, and the asset's field. -/
theorem newNote_fields {amount blinding : Int} {owner : OwnerKey} {asset : AssetInfo}
    {out : NewNote} (h : newNote K amount owner blinding asset = .ok out) :
    out.note.amount = amount ∧ assetFieldFor K asset = .ok out.note.secret.assetField := by
  obtain ⟨assetField, hfield, hout⟩ := except_bind_ok.mp h
  cases except_pure_ok.mp hout
  exact ⟨rfl, hfield⟩

/-- With the answers known. -/
theorem inStep_iff {asset : AssetInfo} {keys : Keys} {commits : List String} {synced : Synced}
    {out : NewNote} (hasset : replies.assets = .returned asset)
    (hkeys : replies.keys = .returned keys) (hcommits : replies.commitments = .returned commits)
    (hsynced : rebuilt K commits = .ok synced)
    (hout : newNote K base keys.owner (replies.blinding 0) asset = .ok out) :
    InStep K replies base root version ↔
      out.note.secret.assetField ≠ some 0 ∧ (asset.native = true → version.val = 2) ∧
        rootBefore K (replies.elsewhere synced).tree = root.bytes ∧
        rootAfter K (replies.meanwhile (replies.elsewhere synced)).tree
            (hexToBytes out.note.commitment) =
          rootAfter K (replies.elsewhere synced).tree (hexToBytes out.note.commitment) := by
  obtain ⟨-, hfield⟩ := newNote_fields hout
  constructor
  · intro h
    refine ⟨?_, h.version asset hasset, h.root commits synced hcommits hsynced,
      h.undisturbed commits synced out hcommits hsynced ⟨asset, keys, hasset, hkeys, hout⟩⟩
    intro hzero
    rw [hzero] at hfield
    exact h.field asset hasset hfield
  · rintro ⟨hnonzero, hversion, hbefore, hafter⟩
    refine ⟨?_, ?_, ?_, ?_⟩
    · intro asset' hasset' hzero
      obtain rfl : asset = asset' := Ending.returned.inj (hasset.symm.trans hasset')
      exact hnonzero (Except.ok.inj (hfield.symm.trans hzero))
    · intro asset' hasset'
      obtain rfl : asset = asset' := Ending.returned.inj (hasset.symm.trans hasset')
      exact hversion
    · intro commits' synced' hcommits' hsynced'
      obtain rfl : commits = commits' := Ending.returned.inj (hcommits.symm.trans hcommits')
      obtain rfl : synced = synced' := Except.ok.inj (hsynced.symm.trans hsynced')
      exact hbefore
    · rintro commits' synced' out' hcommits' hsynced' ⟨asset', keys', hasset', hkeys', hout'⟩
      obtain rfl : commits = commits' := Ending.returned.inj (hcommits.symm.trans hcommits')
      obtain rfl : synced = synced' := Except.ok.inj (hsynced.symm.trans hsynced')
      obtain rfl : asset = asset' := Ending.returned.inj (hasset.symm.trans hasset')
      obtain rfl : keys = keys' := Ending.returned.inj (hkeys.symm.trans hkeys')
      obtain rfl : out = out' := Except.ok.inj (hout.symm.trans hout')
      exact hafter

theorem prepareShield_carries (version : Uint)
    (h : prepareShield K replies base client = (.returned p, client'))
    (hroot : replies.currentRoot = .returned (hexText root.bytes))
    (hdecode : p.transaction.decode = some call) :
    ∃ op, call.operation? = some op ∧ p.statement.proofType = op.proofType ∧
      (InStep K replies base root version → root.bytes.length = 32) ∧
      (root.bytes.length = 32 → ∀ buff ∈ op.buffers, buff.bytes.length = 32) ∧
      (op.Carries K.primitives version p.statement ↔ InStep K replies base root version) := by
  unfold prepareShield completeShield draftShield fetchCurrentRoot syncTree prove appendOutput at h
  simp only [bind_assoc, pure_bind, get_bind, modify_bind, await_bind_returned,
    orThrow_bind_returned, throwIf_bind_returned] at h
  obtain ⟨asset, hasset, -, -, keys, hkeys, -, -, commits, hcommits, synced, hsynced, out, hout,
    text, htext, insertion, hinsertion, statement, hstatement, -, -, grown, hgrown, h⟩ := h
  obtain ⟨ciphertext, mid, -, h⟩ := bind_returned.mp h
  simp only [await_bind_returned, orThrow_bind_returned, pure_apply, Prod.mk.injEq,
    Ending.returned.injEq] at h
  obtain ⟨inclusion, -, transaction, htransaction, rfl, rfl⟩ := h
  unfold shieldInputs at hstatement
  simp only [except_bind_ok, except_pure_ok] at hstatement
  obtain ⟨element, helement, cm, hcm, oc, hoc, am, ham, old, hold, nr, hnr, li, hli, rfl⟩ :=
    hstatement
  obtain rfl : hexText root.bytes = text := Ending.returned.inj (hroot.symm.trans htext)
  obtain ⟨currency, args, hop, hcurrency, hamount, hsc, hso, hsr, hsr', hsi⟩ :=
    operation_of_submitShield htransaction hdecode
  obtain ⟨w, hw, -, holdRoot, hnewRoot⟩ := insertionFor_fields hinsertion
  obtain ⟨hbase, hfield⟩ := newNote_fields hout
  obtain ⟨hcommitment, -⟩ := newNoteFor_ok hout
  rw [hcommitment, bufBytes_toHex32 hcm] at hsc
  rw [bufBytes_toHex32 hoc] at hso
  rw [bufBytes_hexText] at hsr
  rw [currentRootHex, bufBytes_hexText] at hsr'
  rw [holdRoot] at hold
  rw [hnewRoot] at hnr
  refine ⟨_, hop, rfl, ?_, ?_, ?_⟩
  · intro hstep
    obtain ⟨-, -, hbefore, -⟩ := (inStep_iff hasset hkeys hcommits hsynced hout).mp hstep
    rw [← hbefore]
    exact rootBefore_length
  · intro hfull
    have hlengths : (encode cm).length = 32 ∧ (encode oc).length = 32 ∧
        (grown.2.root K.builtins).length = 32 :=
      ⟨encode_length cm, encode_length oc, root_insert_length hgrown⟩
    simp [Operation.buffers, hsc, hso, hsr, hsr', hfull, hlengths]
  · rw [inStep_iff hasset hkeys hcommits hsynced hout, ← asset_eq_iff hfield helement hcurrency,
      ← version_eq_iff hcurrency, ← encode_of_f rootBefore_length hold, rootAfter_of_insert hgrown,
      rootAfter_of_witness hw, Except.ok.injEq, ← encode_eq_iff (root_insert_length hgrown) hnr]
    have hleaf : encode li = StxShield.feUint args.leafIndex :=
      encode_eq_feUint hli hsi
    have hvalue : encode am = StxShield.feUint args.amount := by
      have hsame : (witnessNote out.note).amount = (args.amount.val : Int) := hbase.trans hamount
      rw [hsame] at ham
      exact encode_eq_feUint ham rfl
    have hop1 : encode (1 : Fr) = StxShield.feUint proofTypeShield := encode_ofNat (by decide)
    constructor
    · rintro ⟨hassetEq, -, -, -, -, hrootEq, hnewEq, -, hversionEq⟩
      exact ⟨hassetEq, hversionEq, hrootEq.trans hsr, hnewEq.trans hsr'⟩
    · rintro ⟨hassetEq, hversionEq, hrootEq, hnewEq⟩
      exact ⟨hassetEq, hop1, hsc.symm, hso.symm, hvalue, hrootEq.trans hsr.symm,
        hnewEq.trans hsr'.symm, hleaf, hversionEq⟩

theorem submitted_eq_some (h : submitted K replies base client = some (p, call)) :
    ∃ client', prepareShield K replies base client = (.returned p, client') ∧
      p.transaction.decode = some call := by
  unfold submitted at h
  cases hprepare : prepareShield K replies base client with
  | mk ending client' =>
      rw [hprepare] at h
      cases ending with
      | returned prepared =>
          obtain ⟨other, hdecode, hpair⟩ := Option.map_eq_some_iff.mp h
          cases hpair
          exact ⟨client', rfl, hdecode⟩
      | _ => cases h

end Shields

/-- The digest that the pool computes of what is submitted is that of the vector that was
proved exactly if chain and list are in step.  That this is necessary takes a hash that tells
the two vectors apart, and a root of 32 bytes. -/
theorem shield_statement {K : Packages} {replies : ShieldReplies} {base : Int} {client : Client}
    {root : Buff32} (version : Uint) {p : PreparedShield} {call : StxShield.Call}
    (hroot : replies.currentRoot = .returned (hexText root.bytes))
    (h : submitted K replies base client = some (p, call)) :
    ∃ op, call.operation? = some op ∧
      (InStep K replies base root version →
        K.primitives.keccak256 (op.inputs K.primitives version) =
          K.primitives.keccak256 p.statement.encode) ∧
      (root.bytes.length = 32 →
        Set.InjOn K.primitives.keccak256
          {op.inputs K.primitives version, p.statement.encode} →
        K.primitives.keccak256 (op.inputs K.primitives version) =
          K.primitives.keccak256 p.statement.encode →
        InStep K replies base root version) := by
  obtain ⟨client', hprepare, hdecode⟩ := submitted_eq_some h
  obtain ⟨op, hop, htype, hlength, hfull, hcarries⟩ :=
    prepareShield_carries version hprepare hroot hdecode
  have hinputs (hroot32 : root.bytes.length = 32) :
      op.inputs K.primitives version = p.statement.encode ↔
        InStep K replies base root version := by
    rw [inputs_eq_iff (hfull hroot32), Operation.fields_eq_iff htype]
    exact hcarries
  refine ⟨op, hop, ?_, ?_⟩
  · intro hstep
    exact congrArg K.primitives.keccak256 ((hinputs (hlength hstep)).mpr hstep)
  · intro hroot32 hinjective hdigest
    have hsame := hinjective (Set.mem_insert _ _) (Set.mem_insert_of_mem _ rfl) hdigest
    exact (hinputs hroot32).mp hsame

namespace Sample

/-- The tree of the API's list when the list is up to date. -/
def listed : Synced :=
  match rebuilt packages [inputNote.commitment] with
  | .ok synced => synced
  | .error _ => wallet.synced

def liveRoot : Buff32 := ⟨rootBefore packages listed.tree, rootBefore_length.le⟩

/-- The chain has the one commitment, and the API lists some. -/
def listing (commits : List String) : ShieldReplies where
  toReplies :=
    { crowded with
      commitments := .returned commits
      currentRoot := .returned (hexText liveRoot.bytes)
      meanwhile := id }
  elsewhere := id

def registryVersion : Uint := ⟨2, by decide⟩

theorem listing_inStep : InStep packages (listing [inputNote.commitment]) 1000000 liveRoot
    registryVersion where
  field asset hasset hzero := by
    cases hasset
    cases hzero
  version _ _ _ := rfl
  root commits synced hcommits hsynced := by
    obtain rfl : [inputNote.commitment] = commits := Ending.returned.inj hcommits
    have hlisted : listed = synced := by
      unfold listed
      rw [hsynced]
    have hbytes : liveRoot.bytes = rootBefore packages listed.tree := rfl
    have helsewhere : (listing [inputNote.commitment]).elsewhere synced = synced := rfl
    rw [helsewhere, hbytes, hlisted]
  undisturbed _ _ _ _ _ _ := rfl

/-- Whether the digest of what is submitted is that of the vector that was proved. -/
def shieldMatched (commits : List String) : Option Bool := do
  let sent ← submitted packages (listing commits) 1000000 wallet
  let op ← sent.2.operation?
  return packages.primitives.keccak256 (op.inputs packages.primitives 2) =
    packages.primitives.keccak256 sent.1.statement.encode

end Sample

/-- One STX is shielded when the API's list is up to date. -/
theorem shield_statement_in_step :
    ∃ p call op, submitted Sample.packages (Sample.listing [Sample.inputNote.commitment]) 1000000
        Sample.wallet = some (p, call) ∧
      call.operation? = some op ∧
      Sample.packages.primitives.keccak256
          (op.inputs Sample.packages.primitives Sample.registryVersion) =
        Sample.packages.primitives.keccak256 p.statement.encode := by
  have hsome : (submitted Sample.packages (Sample.listing [Sample.inputNote.commitment]) 1000000
      Sample.wallet).isSome = true := by decide +kernel
  obtain ⟨⟨p, call⟩, h⟩ := Option.isSome_iff_exists.mp hsome
  have hroot : (Sample.listing [Sample.inputNote.commitment]).currentRoot =
      .returned (hexText Sample.liveRoot.bytes) := rfl
  obtain ⟨op, hop, hmatches, -⟩ := shield_statement Sample.registryVersion hroot h
  exact ⟨p, call, op, h, hop, hmatches Sample.listing_inStep⟩

/-- The API has not seen the chain's commitment yet. -/
theorem shield_statement_lagging :
    ¬ ∀ (K : Packages) (replies : ShieldReplies) (base : Int) (client : Client) (root : Buff32)
      (p : PreparedShield) (call : StxShield.Call) (op : StxShield.Operation),
      replies.currentRoot = .returned (hexText root.bytes) →
      submitted K replies base client = some (p, call) → call.operation? = some op →
      K.primitives.keccak256 (op.inputs K.primitives 2) =
        K.primitives.keccak256 p.statement.encode := by
  intro halways
  have hmatched : Sample.shieldMatched [] = some false := by decide +kernel
  simp only [Sample.shieldMatched, Option.bind_eq_bind, Option.bind_eq_some_iff, Option.pure_def,
    Option.some.injEq, decide_eq_false_iff_not] at hmatched
  obtain ⟨⟨p, call⟩, hsubmitted, op, hop, hdigest⟩ := hmatched
  exact hdigest (halways _ _ _ _ Sample.liveRoot p call op rfl hsubmitted hop)

end StxShield.Sdk
