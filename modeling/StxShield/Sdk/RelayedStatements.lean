import StxShield.Relayer.ContractArguments
import StxShield.Sdk.Client
import StxShield.Sdk.Parity
import StxShield.Sdk.Wire

/-!
# Relayed operations and the statements they prove

An operation is proved before it is relayed, and what is relayed is made from the
client's state after the proof.  Here the statement that was proved is compared with
the operation that the contract is called for.
-/

namespace StxShield.Sdk

open Library JavaScript Circuit Async RootPublisher Relay

/-! ## The asset of an operation -/

section Assets

variable (K : Packages)

/-- STX, or the token an asset stands for. -/
def AssetInfo.currency? (asset : AssetInfo) : Except String Currency :=
  if asset.native then .ok .stx
  else
    match asset.token with
    | some text => Currency.sip10 <$> K.clarity.principal text
    | none => .error "token is null"

end Assets

variable {K : Packages}

/-- A request that is accepted names the asset's token. -/
theorem currency?_eq {asset : AssetInfo} {assetField : Option Int} {request : RelayRequest}
    (htoken : request.base.token = tokenParam asset) (haccepts : request.accepts = true)
    (hfield : assetFieldFor K asset = .ok assetField) :
    request.currency? K.clarity = asset.currency? K := by
  unfold RelayRequest.currency? RelayRequest.token? AssetInfo.currency?
  rw [htoken]
  unfold tokenParam
  by_cases hnative : asset.native = true
  · rw [if_pos hnative, if_pos hnative]
    rfl
  · rw [if_neg hnative, if_neg hnative]
    cases hname : asset.token with
    | none =>
        unfold assetFieldFor assetFieldOf at hfield
        rw [if_neg hnative, hname] at hfield
        cases hfield
    | some text =>
        unfold RelayRequest.accepts Base.accepts at haccepts
        rw [htoken] at haccepts
        unfold tokenParam at haccepts
        simp only [if_neg hnative, hname, Option.all_some, Bool.and_eq_true] at haccepts
        have hne : text ≠ "" := by
          rintro rfl
          have hempty : isPrincipal "" = false := by decide +kernel
          exact absurd (haccepts.1.2.symm.trans hempty) Bool.noConfusion
        rw [Option.filter_some, if_pos (decide_eq_true hne)]

/-- The statement is about the asset's token, unless its field counts as absent. -/
theorem asset_eq_iff {asset : AssetInfo} {assetField : Option Int} {field : Option Fr}
    {currency : Currency} (hfield : assetFieldFor K asset = .ok assetField)
    (hin : assetIn assetField = .ok field) (hcurrency : asset.currency? K = .ok currency) :
    field.map encode = currency.field? K.primitives ↔ assetField ≠ some 0 := by
  unfold AssetInfo.currency? at hcurrency
  unfold assetFieldFor at hfield
  by_cases hnative : asset.native = true
  · rw [if_pos hnative] at hfield hcurrency
    cases hfield
    cases hcurrency
    cases hin
    simp [Currency.field?]
  · rw [if_neg hnative] at hfield hcurrency
    obtain ⟨value, hvalue, rfl⟩ := except_map_ok.mp hfield
    unfold assetFieldOf at hvalue
    cases htoken : asset.token with
    | none =>
        rw [htoken] at hvalue
        cases hvalue
    | some text =>
        simp only [htoken] at hvalue hcurrency
        obtain ⟨token, htext, rfl⟩ := except_map_ok.mp hvalue
        obtain ⟨other, hother, rfl⟩ := except_map_ok.mp hcurrency
        obtain rfl : token = other := Except.ok.inj (htext.symm.trans hother)
        unfold assetIn truthy at hin
        by_cases hzero : bytesToBig (fePrincipal K.primitives token) = 0
        · rw [hzero] at hin
          cases hin
          simp [hzero, Currency.field?]
        · rw [Option.filter_some, if_pos (decide_eq_true hzero)] at hin
          obtain ⟨element, helement, rfl⟩ := except_map_ok.mp hin
          rw [fePrincipal_eq] at helement
          have hencode := encode_of_f (fePrincipal_length K.primitives token) helement
          rw [fePrincipal_eq] at hzero ⊢
          simp [hzero, Currency.field?, hencode]

/-! ## The fields of an operation -/

/-- A root that is sent is the one proved if both are the same element. -/
theorem encode_eq_iff {x : Int} {b : Bytes} {field : Fr} (hlength : b.length = 32)
    (h : f x = .ok field) : encode field = b ↔ bytesToBig b = x := by
  constructor
  · rintro rfl
    have hwide : fieldModulus ≤ 256 ^ 32 := by decide
    rw [f_ok.mp h]
    unfold bytesToBig encode
    rw [bigEndianValue_bigEndian, Nat.mod_eq_of_lt (Nat.lt_of_lt_of_le field.isLt hwide)]
  · rintro rfl
    exact encode_of_f hlength h

/-- An index or an amount is sent as the number proved. -/
theorem encode_eq_feUint {n : Nat} {field : Fr} {value : Uint} (h : f (n : Int) = .ok field)
    (hvalue : value.val = n) : encode field = StxShield.feUint value := by
  have hsame : n = field.val := Int.ofNat.inj (f_ok.mp h)
  rw [StxShield.feUint_eq value.isLt, hvalue, hsame]
  rfl

/-- The version proved is the one that the contracts bind. -/
theorem encode_circuitVersion (currency : Currency) :
    encode circuitVersion = StxShield.feUint (currency.boundVersion 2) := by
  cases currency with
  | stx => exact encode_ofNat (by decide)
  | sip10 token => exact encode_ofNat (by decide)

/-- A commitment is read back as it was made. -/
theorem bigInt_commitment {c value : Int} (hc : ∃ x : Fr, c = x.val)
    (hread : bigInt (toHex32 c) = .ok value) : value = c := by
  obtain ⟨x, rfl⟩ := hc
  have hwide : fieldModulus ≤ 16 ^ 64 := by decide
  rw [bigInt_toHex32 (Nat.lt_of_lt_of_le x.isLt hwide)] at hread
  exact (Except.ok.inj hread).symm

/-! ## What the operation is called for -/

section Conditions

variable (K : Packages)

/-- The root once a leaf is appended. -/
def rootAfter (tree : CommitmentTree) (leaf : Bytes) : Except String Int := do
  let grown ← tree.insert K.builtins leaf
  return bytesToBig (grown.2.root K.builtins)

/-- While a note's append is proved the tree is left as it was found, as far as the
two roots show. -/
def Undisturbed (replies : Replies) (commitment : String) : Prop :=
  ∀ commits synced, replies.commitments = .returned commits → rebuilt K commits = .ok synced →
    bytesToBig ((replies.meanwhile synced).tree.root K.builtins) =
        bytesToBig (synced.tree.root K.builtins) ∧
      rootAfter K (replies.meanwhile synced).tree (hexToBytes commitment) =
        rootAfter K synced.tree (hexToBytes commitment)

namespace Intent

/-- The asset an operation is about. -/
def asset (replies : Replies) : Intent → Ending AssetInfo
  | .transfer _ _ => replies.assets
  | .split note _ _ => .returned note.assetOf
  | .merge i1 _ => .returned i1.assetOf
  | .withdraw note _ => .returned note.assetOf

/-- The new note whose append is proved before the tree is read again. -/
def IsPending (replies : Replies) (intent : Intent) (out : NewNote) : Prop :=
  match intent with
  | .transfer base recipient =>
      ∃ asset address, replies.assets = .returned asset ∧ decodeAddress recipient = .ok address ∧
        recipientNote K base address (replies.blinding 0) asset = .ok out
  | .merge i1 i2 =>
      ∃ keys, replies.keys = .returned keys ∧
        newNote K (i1.amount + i2.amount) keys.owner (replies.blinding 0) i1.assetOf = .ok out
  | _ => False

/-- A note that an operation spends. -/
def Spends (replies : Replies) (store : List ShieldNote) (intent : Intent) (note : ShieldNote) :
    Prop :=
  match intent with
  | .transfer base _ => ∃ asset, replies.assets = .returned asset ∧ pickNote store base asset = .ok note
  | .split input _ _ => note = input
  | .merge i1 i2 => note = i1 ∨ note = i2
  | .withdraw input _ => note = input

/-- The asset has a field of its own, it is that of every note spent, and nothing
moves the tree in between. -/
structure Consistent (replies : Replies) (store : List ShieldNote) (intent : Intent) : Prop where
  field : ∀ asset, intent.asset replies = .returned asset → assetFieldFor K asset ≠ .ok (some 0)
  assets : ∀ asset note, intent.asset replies = .returned asset →
    intent.Spends replies store note → note.assetOf.currency? K = asset.currency? K
  undisturbed : ∀ out, intent.IsPending K replies out → Undisturbed K replies out.note.commitment

end Intent

end Conditions

/-! ## What the steps return -/

section Steps

variable {tree : CommitmentTree} {commitment : String} {leaf : Bytes}

theorem insertionFor_ok {insertion : InsertionWitness}
    (h : insertionFor K tree commitment = .ok insertion) :
    ∃ w, tree.insertionWitness K.builtins (hexToBytes commitment) = .ok w ∧
      insertion.leafIndex = w.index ∧ insertion.newRoot = bytesToBig w.newRoot := by
  obtain ⟨w, hw, hinsertion⟩ := except_bind_ok.mp h
  cases except_pure_ok.mp hinsertion
  exact ⟨w, hw, rfl, rfl⟩

theorem membership_ok {synced : Synced} {note : ShieldNote} {witnessed : MembershipWitness}
    (h : membership K synced note = .ok witnessed) :
    witnessed.merkleRoot = bytesToBig (synced.tree.root K.builtins) := by
  unfold membership at h
  split at h
  case h_1 => cases h
  case h_2 leafIndex hfound =>
    obtain ⟨proof, -, hwitnessed⟩ := except_bind_ok.mp h
    cases except_pure_ok.mp hwitnessed
    rfl

/-- A witness foretells the root the append gives. -/
theorem rootAfter_of_witness {w : CommitmentTree.InsertionWitness}
    (h : tree.insertionWitness K.builtins leaf = .ok w) :
    rootAfter K tree leaf = .ok (bytesToBig w.newRoot) := by
  have hroom : ¬ maxLeaves ≤ tree.count := by
    intro hfull
    unfold CommitmentTree.insertionWitness at h
    rw [if_pos hfull] at h
    cases h
  obtain ⟨⟨index, after⟩, hgrown⟩ : ∃ grown, tree.insert K.builtins leaf = .ok grown := by
    unfold CommitmentTree.insert
    rw [if_neg hroom]
    exact ⟨_, rfl⟩
  obtain ⟨hroot, -⟩ := CommitmentTree.root_insert hgrown h
  unfold rootAfter
  rw [hgrown, ← hroot]
  rfl

theorem rootAfter_of_insert {grown : Nat × CommitmentTree}
    (h : tree.insert K.builtins leaf = .ok grown) :
    rootAfter K tree leaf = .ok (bytesToBig (grown.2.root K.builtins)) := by
  unfold rootAfter
  rw [h]
  rfl

theorem undisturbed_iff {replies : Replies} {commits : List String} {synced : Synced}
    (hcommits : replies.commitments = .returned commits) (hsynced : rebuilt K commits = .ok synced) :
    Undisturbed K replies commitment ↔
      bytesToBig ((replies.meanwhile synced).tree.root K.builtins) =
          bytesToBig (synced.tree.root K.builtins) ∧
        rootAfter K (replies.meanwhile synced).tree (hexToBytes commitment) =
          rootAfter K synced.tree (hexToBytes commitment) := by
  constructor
  · intro h
    exact h commits synced hcommits hsynced
  · intro h commits' synced' hcommits' hsynced'
    obtain rfl : commits = commits' := Ending.returned.inj (hcommits.symm.trans hcommits')
    obtain rfl : synced = synced' := Except.ok.inj (hsynced.symm.trans hsynced')
    exact h

/-- The two roots that are sent are the two that were proved. -/
theorem roots_eq_iff {replies : Replies} {commits : List String} {synced : Synced}
    {w : CommitmentTree.InsertionWitness} {grown : Nat × CommitmentTree} {root newRoot : Fr}
    (hcommits : replies.commitments = .returned commits) (hsynced : rebuilt K commits = .ok synced)
    (hw : synced.tree.insertionWitness K.builtins (hexToBytes commitment) = .ok w)
    (hgrown : (replies.meanwhile synced).tree.insert K.builtins (hexToBytes commitment) = .ok grown)
    (hroot : f (bytesToBig (synced.tree.root K.builtins)) = .ok root)
    (hnewRoot : f (bytesToBig w.newRoot) = .ok newRoot)
    (hlength : ((replies.meanwhile synced).tree.root K.builtins).length = 32)
    (hlength' : (grown.2.root K.builtins).length = 32) :
    encode root = (replies.meanwhile synced).tree.root K.builtins ∧
        encode newRoot = grown.2.root K.builtins ↔
      Undisturbed K replies commitment := by
  rw [encode_eq_iff hlength hroot, encode_eq_iff hlength' hnewRoot,
    undisturbed_iff hcommits hsynced, rootAfter_of_insert hgrown, rootAfter_of_witness hw,
    Except.ok.injEq]

namespace Intent

/-- With the asset known. -/
theorem consistent_iff (intent : Intent) {replies : Replies} {store : List ShieldNote}
    {asset : AssetInfo} {assetField : Option Int}
    (hasset : intent.asset replies = .returned asset)
    (hfield : assetFieldFor K asset = .ok assetField) :
    intent.Consistent K replies store ↔
      assetField ≠ some 0 ∧
        (∀ note, intent.Spends replies store note →
          note.assetOf.currency? K = asset.currency? K) ∧
        ∀ out, intent.IsPending K replies out → Undisturbed K replies out.note.commitment := by
  constructor
  · intro h
    refine ⟨?_, fun note hspends => h.assets asset note hasset hspends, h.undisturbed⟩
    rintro rfl
    exact h.field asset hasset hfield
  · rintro ⟨hnonzero, hassets, hundisturbed⟩
    refine ⟨?_, ?_, hundisturbed⟩
    · intro asset' hasset' hzero
      obtain rfl : asset = asset' := Ending.returned.inj (hasset.symm.trans hasset')
      exact hnonzero (Except.ok.inj (hfield.symm.trans hzero))
    · intro asset' note hasset' hspends
      obtain rfl : asset = asset' := Ending.returned.inj (hasset.symm.trans hasset')
      exact hassets note hspends

end Intent

/-- The commitment of a new note is a field element and stands in the note as text. -/
theorem newNoteFor_ok {amount ownerSk x y blinding : Int} {asset : AssetInfo} {out : NewNote}
    (h : newNoteFor K amount ownerSk x y blinding asset = .ok out) :
    out.note.commitment = toHex32 out.commitment ∧ ∃ field : Fr, out.commitment = field.val := by
  obtain ⟨assetField, -, hout⟩ := except_bind_ok.mp h
  cases except_pure_ok.mp hout
  refine ⟨rfl, ?_⟩
  simp only [commitmentOf]
  cases truthy assetField with
  | none => exact ⟨_, rfl⟩
  | some field => exact ⟨_, rfl⟩

end Steps

/-! ## The four operations -/

section Operations

variable {replies : Replies} {client client' : Client} {p : Prepared} {op : Operation}

/-- Statement and operation match if and only if the asset's field is not zero and
both roots stand. -/
theorem prepareTransfer_carries {base : Int} {recipient : String}
    (h : prepareTransfer K replies base recipient client = (.returned p, client'))
    (haccepts : p.request.accepts = true) (hmeans : p.request.Says K.clarity op.action)
    (hcurrency : p.request.currency? K.clarity = .ok op.currency) :
    p.statement.proofType = op.proofType ∧
      ((op.Carries K.primitives 2 p.statement ∧
          ∀ note ∈ p.inputs, note.assetOf.currency? K = .ok op.currency) ↔
        (Intent.transfer base recipient).Consistent K replies client.store) := by
  unfold prepareTransfer syncTree prove appendOutput at h
  simp only [bind_assoc, pure_bind, get_bind, modify_bind, await_bind_returned,
    orThrow_bind_returned, pure_apply, Prod.mk.injEq, Ending.returned.injEq] at h
  obtain ⟨asset, hasset, input, hpick, address, haddress, out, hout, commits, hcommits, synced,
    hsynced, c, hc, insertion, hinsertion, newCommitment, hnew, witnessed, hwitnessed, assetField,
    hfield, statement, hstatement, _, hproof, grown, hgrown, inclusion, hinclusion, rfl, rfl⟩ := h
  unfold transferInputs at hstatement
  simp only [except_bind_ok, except_pure_ok] at hstatement
  obtain ⟨element, helement, n, hn, cm, hcm, oc, hoc, mr, hmr, nr, hnr, li, hli, rfl⟩ := hstatement
  rw [currency?_eq rfl haccepts hfield] at hcurrency
  obtain ⟨currency, action⟩ := op
  cases action with
  | transfer args =>
      simp only [RelayRequest.Says, currentRootHex, bufBytes_hexText] at hmeans
      obtain ⟨hsn, hsc, hso, -, hsr, hsr', hsi⟩ := hmeans
      simp only [RelayRequest.accepts, Bool.and_eq_true] at haccepts
      obtain ⟨-, ⟨-, hlr⟩, hlr'⟩ := haccepts
      obtain ⟨w, hw, hindex, hnewRoot⟩ := insertionFor_ok hinsertion
      obtain ⟨htext, hcanonical⟩ := newNoteFor_ok hout
      rw [htext] at hnew
      obtain rfl := bigInt_commitment hcanonical hnew
      rw [htext, bufBytes_toHex32 hcm] at hsc
      rw [bufBytes_toHex32 hn] at hsn
      rw [bufBytes_toHex32 hoc] at hso
      rw [membership_ok hwitnessed] at hmr
      rw [hnewRoot] at hnr
      have hleaf := encode_eq_feUint hli (Option.some.inj hsi).symm
      have hpending (other : NewNote) :
          (Intent.transfer base recipient).IsPending K replies other ↔ other = out := by
        simp [Intent.IsPending, hasset, haddress, hout, eq_comm]
      have hspends (note : ShieldNote) :
          (Intent.transfer base recipient).Spends replies client.store note ↔ note = input := by
        simp [Intent.Spends, hasset, hpick, eq_comm]
      refine ⟨rfl, ?_⟩
      rw [Intent.consistent_iff (.transfer base recipient) hasset hfield, ← asset_eq_iff hfield helement hcurrency]
      simp only [hpending, hspends, forall_eq, hcurrency]
      rw [← roots_eq_iff hcommits hsynced hw hgrown hmr hnr (length_of_isBytes32 hlr)
        (length_of_isBytes32 hlr')]
      constructor
      · rintro ⟨⟨hassetEq, -, -, -, -, hroot, hnewRoot, -, -⟩, hinputs⟩
        exact ⟨hassetEq, hinputs input List.mem_cons_self, hroot.trans hsr, hnewRoot.trans hsr'⟩
      · rintro ⟨hassetEq, hown, hroot, hnewRoot⟩
        refine ⟨⟨hassetEq, encode_ofNat (by decide), hsn.symm, hsc.symm, hso.symm,
          hroot.trans hsr.symm, hnewRoot.trans hsr'.symm, hleaf, encode_circuitVersion currency⟩, ?_⟩
        intro note hnote
        obtain rfl := List.mem_singleton.mp hnote
        exact hown
  | _ => cases hmeans

/-- The roots of a split are taken before the proof, so that only its asset matters. -/
theorem prepareSplit_carries {note : ShieldNote} {a1 a2 : Int}
    (h : prepareSplit K replies note a1 a2 client = (.returned p, client'))
    (haccepts : p.request.accepts = true) (hmeans : p.request.Says K.clarity op.action)
    (hcurrency : p.request.currency? K.clarity = .ok op.currency) :
    p.statement.proofType = op.proofType ∧
      ((op.Carries K.primitives 2 p.statement ∧
          ∀ note ∈ p.inputs, note.assetOf.currency? K = .ok op.currency) ↔
        (Intent.split note a1 a2).Consistent K replies client.store) := by
  unfold prepareSplit syncTree prove appendOutput at h
  simp only [bind_assoc, pure_bind, get_bind, modify_bind, await_bind_returned,
    orThrow_bind_returned, throwIf_bind_returned, pure_apply, Prod.mk.injEq,
    Ending.returned.injEq] at h
  obtain ⟨keys, hkeys, hsum, commits, hcommits, synced, hsynced, o1, ho1, o2, ho2, c, hc, witnessed,
    hwitnessed, insertion1, hinsertion1, grown1, hgrown1, insertion2, hinsertion2,
    ⟨l2, after2⟩, hgrown2, assetField, hfield, statement, hstatement, _, hproof, inclusion,
    hinclusion, rfl, rfl⟩ := h
  unfold splitInputs at hstatement
  simp only [except_bind_ok, except_pure_ok] at hstatement
  obtain ⟨element, helement, n, hn, c1, hc1, p1, hp1, c2, hc2, p2, hp2, mr, hmr, nr, hnr, li, hli,
    rfl⟩ := hstatement
  rw [currency?_eq rfl haccepts hfield] at hcurrency
  obtain ⟨currency, action⟩ := op
  cases action with
  | split args =>
      simp only [RelayRequest.Says, currentRootHex, bufBytes_hexText] at hmeans
      obtain ⟨hsn, hsc1, hso1, -, hsc2, hso2, -, hsr, hsr', hsi⟩ := hmeans
      simp only [RelayRequest.accepts, Bool.and_eq_true] at haccepts
      obtain ⟨-, ⟨-, hlr⟩, hlr'⟩ := haccepts
      obtain ⟨w1, hw1, hindex1, -⟩ := insertionFor_ok hinsertion1
      obtain ⟨w2, hw2, -, hnewRoot2⟩ := insertionFor_ok hinsertion2
      obtain ⟨htext1, -⟩ := newNoteFor_ok ho1
      obtain ⟨htext2, -⟩ := newNoteFor_ok ho2
      rw [htext1, bufBytes_toHex32 hc1] at hsc1
      rw [htext2, bufBytes_toHex32 hc2] at hsc2
      rw [bufBytes_toHex32 hn] at hsn
      rw [bufBytes_toHex32 hp1] at hso1
      rw [bufBytes_toHex32 hp2] at hso2
      rw [membership_ok hwitnessed] at hmr
      obtain ⟨hforetold, -⟩ := CommitmentTree.root_insert hgrown2 hw2
      rw [hnewRoot2, ← hforetold] at hnr
      have hroot := encode_of_f (length_of_isBytes32 hlr) hmr
      have hroot' := encode_of_f (length_of_isBytes32 hlr') hnr
      have hleaf := encode_eq_feUint hli (Option.some.inj hsi).symm
      refine ⟨rfl, ?_⟩
      rw [Intent.consistent_iff (.split note a1 a2) rfl hfield,
        ← asset_eq_iff hfield helement hcurrency]
      constructor
      · rintro ⟨⟨hassetEq, -⟩, -⟩
        refine ⟨hassetEq, ?_, ?_⟩
        · rintro other rfl
          rfl
        · intro out hpending
          cases hpending
      · rintro ⟨hassetEq, -, -⟩
        refine ⟨⟨hassetEq, encode_ofNat (by decide), hsn.symm, hsc1.symm, hso1.symm, hsc2.symm,
          hso2.symm, hroot.trans hsr.symm, hroot'.trans hsr'.symm, hleaf,
          encode_circuitVersion currency⟩, ?_⟩
        intro other hother
        obtain rfl := List.mem_singleton.mp hother
        exact hcurrency
  | _ => cases hmeans

/-- As for a transfer, and both notes must be of one asset. -/
theorem prepareMerge_carries {i1 i2 : ShieldNote}
    (h : prepareMerge K replies i1 i2 client = (.returned p, client'))
    (haccepts : p.request.accepts = true) (hmeans : p.request.Says K.clarity op.action)
    (hcurrency : p.request.currency? K.clarity = .ok op.currency) :
    p.statement.proofType = op.proofType ∧
      ((op.Carries K.primitives 2 p.statement ∧
          ∀ note ∈ p.inputs, note.assetOf.currency? K = .ok op.currency) ↔
        (Intent.merge i1 i2).Consistent K replies client.store) := by
  unfold prepareMerge syncTree prove appendOutput at h
  simp only [bind_assoc, pure_bind, get_bind, modify_bind, await_bind_returned,
    orThrow_bind_returned, throwIf_bind_returned, pure_apply, Prod.mk.injEq,
    Ending.returned.injEq] at h
  obtain ⟨keys, hkeys, hsame, out, hout, commits, hcommits, synced, hsynced, c1, hc1, c2, hc2,
    insertion, hinsertion, witnessed1, hwitnessed1, witnessed2, hwitnessed2, assetField, hfield,
    statement, hstatement, _, hproof, grown, hgrown, inclusion, hinclusion, rfl, rfl⟩ := h
  unfold mergeInputs at hstatement
  simp only [except_bind_ok, except_pure_ok] at hstatement
  obtain ⟨element, helement, n1, hn1, n2, hn2, cm, hcm, oc, hoc, mr, hmr, nr, hnr, li, hli, rfl⟩ :=
    hstatement
  rw [currency?_eq rfl haccepts hfield] at hcurrency
  obtain ⟨currency, action⟩ := op
  cases action with
  | merge args =>
      simp only [RelayRequest.Says, currentRootHex, bufBytes_hexText] at hmeans
      obtain ⟨hsn1, hsn2, hsc, hso, -, hsr, hsr', hsi⟩ := hmeans
      simp only [RelayRequest.accepts, Bool.and_eq_true] at haccepts
      obtain ⟨-, ⟨-, hlr⟩, hlr'⟩ := haccepts
      obtain ⟨w, hw, hindex, hnewRoot⟩ := insertionFor_ok hinsertion
      obtain ⟨htext, -⟩ := newNoteFor_ok hout
      rw [htext, bufBytes_toHex32 hcm] at hsc
      rw [bufBytes_toHex32 hn1] at hsn1
      rw [bufBytes_toHex32 hn2] at hsn2
      rw [bufBytes_toHex32 hoc] at hso
      rw [membership_ok hwitnessed1] at hmr
      rw [hnewRoot] at hnr
      have hleaf := encode_eq_feUint hli (Option.some.inj hsi).symm
      have hpending (other : NewNote) :
          (Intent.merge i1 i2).IsPending K replies other ↔ other = out := by
        simp [Intent.IsPending, hkeys, hout, eq_comm]
      refine ⟨rfl, ?_⟩
      rw [Intent.consistent_iff (.merge i1 i2) rfl hfield, ← asset_eq_iff hfield helement hcurrency]
      simp only [hpending, forall_eq, hcurrency]
      rw [← roots_eq_iff hcommits hsynced hw hgrown hmr hnr (length_of_isBytes32 hlr)
        (length_of_isBytes32 hlr')]
      constructor
      · rintro ⟨⟨hassetEq, -, -, -, -, -, hroot, hnewRoot, -, -⟩, hinputs⟩
        refine ⟨hassetEq, ?_, hroot.trans hsr, hnewRoot.trans hsr'⟩
        rintro note (rfl | rfl)
        · exact hinputs note (by simp)
        · exact hinputs note (by simp)
      · rintro ⟨hassetEq, hown, hroot, hnewRoot⟩
        refine ⟨⟨hassetEq, encode_ofNat (by decide), hsn1.symm, hsn2.symm, hsc.symm, hso.symm,
          hroot.trans hsr.symm, hnewRoot.trans hsr'.symm, hleaf, encode_circuitVersion currency⟩, ?_⟩
        intro note hnote
        have heither : note = i1 ∨ note = i2 := by simpa using hnote
        exact hown note heither
  | _ => cases hmeans

/-- The root of a withdrawal is taken before the proof. -/
theorem prepareWithdraw_carries {note : ShieldNote} {recipient : Ending String}
    (h : prepareWithdraw K replies note recipient client = (.returned p, client'))
    (haccepts : p.request.accepts = true) (hmeans : p.request.Says K.clarity op.action)
    (hcurrency : p.request.currency? K.clarity = .ok op.currency) :
    p.statement.proofType = op.proofType ∧
      ((op.Carries K.primitives 2 p.statement ∧
          ∀ note ∈ p.inputs, note.assetOf.currency? K = .ok op.currency) ↔
        (Intent.withdraw note recipient).Consistent K replies client.store) := by
  unfold prepareWithdraw syncTree prove at h
  simp only [bind_assoc, pure_bind, get_bind, modify_bind, await_bind_returned,
    orThrow_bind_returned, throwIf_bind_returned, pure_apply, Prod.mk.injEq,
    Ending.returned.injEq] at h
  obtain ⟨hminimum, address, haddress, commits, hcommits, synced, hsynced, c, hc, principal,
    hprincipal, witnessed, hwitnessed, assetField, hfield, statement, hstatement, _, hproof,
    inclusion, hinclusion, rfl, rfl⟩ := h
  unfold withdrawInputs at hstatement
  simp only [except_bind_ok, except_pure_ok] at hstatement
  obtain ⟨element, helement, n, hn, amount, hamount, hash, hhash, mr, hmr, rfl⟩ := hstatement
  rw [currency?_eq rfl haccepts hfield] at hcurrency
  obtain ⟨currency, action⟩ := op
  cases action with
  | withdraw args =>
      simp only [RelayRequest.Says, currentRootHex, bufBytes_hexText] at hmeans
      obtain ⟨hsn, hsa, hsrecipient, hsr⟩ := hmeans
      simp only [RelayRequest.accepts, Bool.and_eq_true] at haccepts
      obtain ⟨-, -, hlr⟩ := haccepts
      rw [bufBytes_toHex32 hn] at hsn
      rw [membership_ok hwitnessed] at hmr
      obtain rfl : principal = args.recipient := Except.ok.inj (hprincipal.symm.trans hsrecipient)
      rw [f_ok.mp hamount, bigIntOf_textOf] at hsa
      have hroot := encode_of_f (length_of_isBytes32 hlr) hmr
      rw [fePrincipal_eq] at hhash
      have hrecipient := encode_of_f (fePrincipal_length K.primitives args.recipient) hhash
      rw [f_ok.mp hamount] at hamount
      have hpaid := encode_eq_feUint hamount hsa
      refine ⟨rfl, ?_⟩
      rw [Intent.consistent_iff (.withdraw note recipient) rfl hfield,
        ← asset_eq_iff hfield helement hcurrency]
      constructor
      · rintro ⟨⟨hassetEq, -⟩, -⟩
        refine ⟨hassetEq, ?_, ?_⟩
        · rintro other rfl
          rfl
        · intro out hpending
          cases hpending
      · rintro ⟨hassetEq, -, -⟩
        refine ⟨⟨hassetEq, encode_ofNat (by decide), hsn.symm, hpaid, hrecipient,
          hroot.trans hsr.symm, encode_circuitVersion currency⟩, ?_⟩
        intro other hother
        obtain rfl := List.mem_singleton.mp hother
        exact hcurrency
  | _ => cases hmeans

end Operations

end StxShield.Sdk
