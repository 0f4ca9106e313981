import StxShield.Relayer.JobOutcomes
import StxShield.Sdk.RelayedStatements
import StxShield.Security.Solvency

/-!
# Relayed operations carry the statement that was proved

From the client's note to the digest that a contract computes: the relayer accepts
the request, builds a call of it, and the contract hashes the arguments it reads.
-/

namespace StxShield.Sdk

open Library JavaScript Circuit Async RootPublisher Relay

/-! ## Full buffers -/

theorem digitValue_of_isHexDigit {c : Char} (h : isHexDigit c = true) : digitValue c < 16 := by
  simp only [isHexDigit, Bool.or_eq_true, Bool.and_eq_true, decide_eq_true_eq, Char.le_def,
    UInt32.le_iff_toNat_le] at h
  have hzero : '0'.val.toNat = 48 := rfl
  have hnine : '9'.val.toNat = 57 := rfl
  have ha : 'a'.val.toNat = 97 := rfl
  have hf : 'f'.val.toNat = 102 := rfl
  have hA : 'A'.val.toNat = 65 := rfl
  have hF : 'F'.val.toNat = 70 := rfl
  simp only [digitValue, Char.le_def, UInt32.le_iff_toNat_le, Char.toNat]
  have hz : 'z'.val.toNat = 122 := rfl
  have hZ : 'Z'.val.toNat = 90 := rfl
  split
  · omega
  · split
    · omega
    · split <;> omega

theorem length_bufBytes {text : String} (h : isBytes32 text = true) :
    (bufBytes text).length = 32 := by
  simp only [isBytes32, Bool.and_eq_true, decide_eq_true_eq, List.all_eq_true] at h
  obtain ⟨⟨hmark, hlength⟩, hdigits⟩ := h
  unfold bufBytes
  rw [if_pos hmark]
  exact hexPairs_length hlength fun c hc => digitValue_of_isHexDigit (hdigits c hc)

/-- What the relayer accepts fills the buffers of the operation. -/
theorem full_of_accepts {lib : StacksLibrary} {request : RelayRequest} {op : Operation}
    (haccepts : request.accepts = true) (hmeans : request.Says lib op.action) :
    ∀ buff ∈ op.buffers, buff.bytes.length = 32 := by
  obtain ⟨currency, action⟩ := op
  cases request with
  | transfer t =>
      cases action with
      | transfer args =>
          simp only [RelayRequest.accepts, Bool.and_eq_true] at haccepts
          obtain ⟨-, ⟨⟨⟨⟨hn, hc⟩, ho⟩, -⟩, hr⟩, hr'⟩ := haccepts
          obtain ⟨hsn, hsc, hso, -, hsr, hsr', -⟩ := hmeans
          simp [Operation.buffers, hsn, hsc, hso, hsr, hsr', length_bufBytes, hn, hc, ho, hr, hr']
      | _ => cases hmeans
  | withdraw w =>
      cases action with
      | withdraw args =>
          simp only [RelayRequest.accepts, Bool.and_eq_true] at haccepts
          obtain ⟨-, ⟨⟨hn, -⟩, -⟩, hr⟩ := haccepts
          obtain ⟨hsn, -, -, hsr⟩ := hmeans
          simp [Operation.buffers, hsn, hsr, length_bufBytes, hn, hr]
      | _ => cases hmeans
  | split s =>
      cases action with
      | split args =>
          simp only [RelayRequest.accepts, Bool.and_eq_true] at haccepts
          obtain ⟨-, ⟨⟨⟨⟨⟨⟨⟨hn, hc₁⟩, ho₁⟩, -⟩, hc₂⟩, ho₂⟩, -⟩, hr⟩, hr'⟩ := haccepts
          obtain ⟨hsn, hsc₁, hso₁, -, hsc₂, hso₂, -, hsr, hsr', -⟩ := hmeans
          simp [Operation.buffers, hsn, hsc₁, hso₁, hsc₂, hso₂, hsr, hsr', length_bufBytes, hn, hc₁,
            ho₁, hc₂, ho₂, hr, hr']
      | _ => cases hmeans
  | merge m =>
      cases action with
      | merge args =>
          simp only [RelayRequest.accepts, Bool.and_eq_true] at haccepts
          obtain ⟨-, ⟨⟨⟨⟨⟨hn₁, hn₂⟩, hc⟩, ho⟩, -⟩, hr⟩, hr'⟩ := haccepts
          obtain ⟨hsn₁, hsn₂, hsc, hso, -, hsr, hsr', -⟩ := hmeans
          simp [Operation.buffers, hsn₁, hsn₂, hsc, hso, hsr, hsr', length_bufBytes, hn₁, hn₂, hc,
            ho, hr, hr']
      | _ => cases hmeans

/-- With full buffers the bytes that are hashed determine the fields. -/
theorem inputs_eq_iff {P : Primitives} {op : Operation} {statement : Statement} {version : Nat}
    (hfull : ∀ buff ∈ op.buffers, buff.bytes.length = 32) :
    op.inputs P version = statement.encode ↔ statement.fields.map encode = op.fields P version := by
  have hlengths : ∀ field ∈ op.fields P version, field.length = 32 := by
    obtain ⟨currency, action⟩ := op
    cases currency <;> cases action <;>
      simp_all [Operation.buffers, Operation.fields, Operation.arguments, Currency.field?]
  rw [Operation.inputs_eq_flatten]
  constructor
  · intro h
    exact flatten_injective (by decide) Operation.statement_fields_length hlengths h.symm
  · intro h
    rw [← h]
    rfl

/-! ## The statement that is relayed -/

/-- An operation, up to the contract call that is made of it. -/
def relayed (K : Packages) (replies : Replies) (intent : Intent) (client : Client) :
    Option (Prepared × StxShield.Call) :=
  match (prepare K replies intent client).1 with
  | .returned p =>
      if p.request.accepts then
        match buildCall K.clarity p.request with
        | .ok call => call.decode.map fun chainCall => (p, chainCall)
        | .error _ => none
      else none
  | _ => none

theorem relayed_eq_some {K : Packages} {replies : Replies} {intent : Intent} {client : Client}
    {p : Prepared} {chainCall : StxShield.Call}
    (h : relayed K replies intent client = some (p, chainCall)) :
    ∃ client' call, prepare K replies intent client = (.returned p, client') ∧
      p.request.accepts = true ∧ buildCall K.clarity p.request = .ok call ∧
      call.decode = some chainCall := by
  unfold relayed at h
  cases hprepare : prepare K replies intent client with
  | mk ending client' =>
      rw [hprepare] at h
      cases ending with
      | returned prepared =>
          by_cases haccepts : prepared.request.accepts = true
          · simp only [haccepts, if_true] at h
            cases hbuild : buildCall K.clarity prepared.request with
            | error e =>
                rw [hbuild] at h
                cases h
            | ok call =>
                rw [hbuild] at h
                obtain ⟨other, hdecode, hpair⟩ := Option.map_eq_some_iff.mp h
                cases hpair
                exact ⟨client', call, rfl, haccepts, hbuild, hdecode⟩
          · simp only [haccepts] at h
            cases h
      | _ => cases h

theorem prepare_carries {K : Packages} {replies : Replies} {intent : Intent}
    {client client' : Client} {p : Prepared} {op : Operation}
    (h : prepare K replies intent client = (.returned p, client'))
    (haccepts : p.request.accepts = true) (hmeans : p.request.Says K.clarity op.action)
    (hcurrency : p.request.currency? K.clarity = .ok op.currency) :
    p.statement.proofType = op.proofType ∧
      ((op.Carries K.primitives 2 p.statement ∧
          ∀ note ∈ p.inputs, note.assetOf.currency? K = .ok op.currency) ↔
        intent.Consistent K replies client.store) := by
  cases intent with
  | transfer base recipient => exact prepareTransfer_carries h haccepts hmeans hcurrency
  | split note a1 a2 => exact prepareSplit_carries h haccepts hmeans hcurrency
  | merge i1 i2 => exact prepareMerge_carries h haccepts hmeans hcurrency
  | withdraw note recipient => exact prepareWithdraw_carries h haccepts hmeans hcurrency

/-- The digest a contract computes is that of the vector that was proved, and the
call is for the pool and token of every note spent, exactly if the asset's field is
not zero, the notes spent are of that asset, and nothing moved the client's tree
while a transfer or a merge was being proved.  That this is necessary takes a hash
that tells the two vectors apart. -/
theorem relayed_statement {K : Packages} {replies : Replies} {intent : Intent} {client : Client}
    {p : Prepared} {chainCall : StxShield.Call}
    (h : relayed K replies intent client = some (p, chainCall)) :
    ∃ op, chainCall.operation? = some op ∧
      (intent.Consistent K replies client.store →
        K.primitives.keccak256 (op.inputs K.primitives 2) =
            K.primitives.keccak256 p.statement.encode ∧
          ∀ note ∈ p.inputs, note.assetOf.currency? K = .ok op.currency) ∧
      (Set.InjOn K.primitives.keccak256 {op.inputs K.primitives 2, p.statement.encode} →
        K.primitives.keccak256 (op.inputs K.primitives 2) =
            K.primitives.keccak256 p.statement.encode ∧
          (∀ note ∈ p.inputs, note.assetOf.currency? K = .ok op.currency) →
        intent.Consistent K replies client.store) := by
  obtain ⟨client', call, hprepare, haccepts, hbuild, hdecode⟩ := relayed_eq_some h
  obtain ⟨op, hop, hcurrency, hmeans⟩ := operation_of_buildCall hbuild hdecode
  obtain ⟨htype, hcarries⟩ := prepare_carries hprepare haccepts hmeans hcurrency
  have hinputs : op.inputs K.primitives 2 = p.statement.encode ↔ _ :=
    inputs_eq_iff (full_of_accepts haccepts hmeans)
  rw [Operation.fields_eq_iff htype] at hinputs
  refine ⟨op, hop, ?_, ?_⟩
  · intro hconsistent
    obtain ⟨hsame, hnotes⟩ := hcarries.mpr hconsistent
    exact ⟨congrArg K.primitives.keccak256 (hinputs.mpr hsame), hnotes⟩
  · rintro hinjective ⟨hdigest, hnotes⟩
    have hsame := hinjective (Set.mem_insert _ _) (Set.mem_insert_of_mem _ rfl) hdigest
    exact hcarries.mp ⟨hinputs.mp hsame, hnotes⟩

namespace Sample

def packages : Packages where
  clarity := Relay.Sample.stacksLibrary
  primitives := StxShield.Sample.primitives
  builtins := StxShield.Sample.builtins
  encryptNote payload _ := payload.commitment

/-- A note of one STX, at the first leaf. -/
def inputNote : ShieldNote where
  commitment := toHex32 (commitmentOf packages 1000000 3 0 11 none)
  ciphertext := ""
  root := ""
  txid := ""
  amount := 1000000
  asset := none
  spent := false
  secret :=
    { ownerSk := 3, ownerPkX := 3, ownerPkY := 0, blinding := 11, leafIndex := none,
      assetId := none, assetField := none }

def wallet : Client where
  synced := { tree := CommitmentTree.empty, commitmentIndex := ∅ }
  store := [inputNote]
  authenticated := true
  api := []
  vault := some ∅

/-- Another operation of the client appends its output while this one is proved. -/
def crowded : Replies where
  assets := .returned nativeAsset
  keys := .returned { owner := { sk := 3, pkX := 3, pkY := 0 }, viewingPk := [] }
  connect := .returned ()
  commitments := .returned [inputNote.commitment]
  currentRoot := .returned ""
  proof := .returned ()
  meanwhile synced :=
    match synced.tree.insert packages.builtins (bigEndian 32 77) with
    | .ok grown => { synced with tree := grown.2 }
    | .error _ => synced
  inclusion := .returned { domainId := 0, aggregationId := 7, merklePath := [], leafIndex := 0 }
  relayers := []
  broadcast := .returned "txid"
  confirmation := .returned true
  consumed _ :=
    { setSpent := .returned (), register := fun _ => .accepted, markSpent := .returned () }
  registered _ := .accepted
  registered2 _ := .accepted
  put _ := true
  removed := (true, .returned ())
  blindingBytes n := ⟨bigEndian 31 (99 + n), bigEndian_length 31 _⟩
  nonceBytes n := ⟨bigEndian 31 (199 + n), bigEndian_length 31 _⟩

def recipient : String :=
  String.ofList ("stxsh1".toList ++ fixedHex 64 5 ++ fixedHex 64 0 ++ fixedHex 64 9)

/-- Whether the contract's digest is that of the vector that was proved. -/
def matched (replies : Replies) (intent : Intent) : Option Bool := do
  let sent ← relayed packages replies intent wallet
  let op ← sent.2.operation?
  return packages.primitives.keccak256 (op.inputs packages.primitives 2) =
    packages.primitives.keccak256 sent.1.statement.encode

end Sample

/-- A note is withdrawn: nothing is appended, and the digests agree. -/
theorem relayed_statement_withdrawn :
    ∃ p chainCall op, relayed Sample.packages Sample.crowded
        (.withdraw Sample.inputNote (.returned "ST2CY5V39NHDPWSXMW9QDT3HC3GD6Q6XX4CFRK9AG"))
        Sample.wallet = some (p, chainCall) ∧
      chainCall.operation? = some op ∧
      Sample.packages.primitives.keccak256 (op.inputs Sample.packages.primitives 2) =
        Sample.packages.primitives.keccak256 p.statement.encode := by
  have hsome : (relayed Sample.packages Sample.crowded
      (.withdraw Sample.inputNote (.returned "ST2CY5V39NHDPWSXMW9QDT3HC3GD6Q6XX4CFRK9AG"))
      Sample.wallet).isSome = true := by decide +kernel
  obtain ⟨⟨p, chainCall⟩, h⟩ := Option.isSome_iff_exists.mp hsome
  obtain ⟨op, hop, hsound, -⟩ := relayed_statement h
  refine ⟨p, chainCall, op, h, hop, (hsound ?_).1⟩
  exact
    { field := by
        intro asset hasset hzero
        cases hasset
        cases hzero
      assets := by
        intro asset note hasset hnote
        obtain rfl : Sample.inputNote.assetOf = asset := Ending.returned.inj hasset
        obtain rfl : note = Sample.inputNote := hnote
        rfl
      undisturbed := by
        intro out hpending
        cases hpending }

/-- Two transfers of one client at a time: what is relayed is not what was proved. -/
theorem relayed_statement_stale :
    ∃ p chainCall op, relayed Sample.packages Sample.crowded
        (.transfer 1000000 Sample.recipient) Sample.wallet = some (p, chainCall) ∧
      chainCall.operation? = some op ∧
      Sample.packages.primitives.keccak256 (op.inputs Sample.packages.primitives 2) ≠
        Sample.packages.primitives.keccak256 p.statement.encode := by
  have hmatched : Sample.matched Sample.crowded (.transfer 1000000 Sample.recipient) =
      some false := by decide +kernel
  simp only [Sample.matched, Option.bind_eq_bind, Option.bind_eq_some_iff, Option.pure_def,
    Option.some.injEq, decide_eq_false_iff_not] at hmatched
  obtain ⟨⟨p, chainCall⟩, hrelayed, op, hop, hdigest⟩ := hmatched
  exact ⟨p, chainCall, op, hrelayed, hop, hdigest⟩

end StxShield.Sdk
