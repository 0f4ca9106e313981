import StxShield.Circuits.Transaction
import StxShield.Witnesses.Assembly
import StxShield.Sdk.Shielding

/-!
# What the engine can prove

Each operation is taken up to its call of the engine.  For a listed note that the client
holds the secret of, the witness it hands over satisfies its circuit exactly if the
amounts are of 64 bits, the recipient's key is one, and the outputs, or the inputs, differ.
-/

namespace StxShield.Sdk

open Library JavaScript Circuit Async RootPublisher

/-! ## Up to the engine -/

section Drafts

variable (K : Packages) (replies : Replies)

/-- `transfer`, up to `proveTransfer`. -/
def draftTransfer (base : Int) (recipient : String) : Async Client EngineWitness := do
  let asset ← await replies.assets
  let client ← get
  let input ← orThrow (pickNote client.store base asset)
  let address ← orThrow (decodeAddress recipient)
  let out ← orThrow (recipientNote K base address (replies.blinding 0) asset)
  syncTree K replies
  let { synced, .. } ← get
  let inputCommitment ← orThrow (bigInt input.commitment)
  let nf := nullifierOf K inputCommitment input.secret.ownerSk
  let insertion ← orThrow (insertionFor K synced.tree out.note.commitment)
  let newCommitment ← orThrow (bigInt out.note.commitment)
  let witnessed ← orThrow (membership K synced input)
  let assetField ← orThrow (assetFieldFor K asset)
  pure (.transfer
    { nullifier := nf
      newCommitment := newCommitment
      newOwnerCommitment := out.ownerCommitment
      input := witnessNote input
      ownerSk := input.secret.ownerSk
      output := witnessNote out.note
      membership := witnessed
      insertion := insertion
      assetField := assetField })

/-- `split`, up to `proveSplit`. -/
def draftSplit (note : ShieldNote) (a1 a2 : Int) : Async Client EngineWitness := do
  let keys ← await replies.keys
  let asset := note.assetOf
  throwIf (a1 + a2 ≠ note.amount) "split amounts must sum to the note amount"
  syncTree K replies
  let { synced, .. } ← get
  let o1 ← orThrow (newNote K a1 keys.owner (replies.blinding 0) asset)
  let o2 ← orThrow (newNote K a2 keys.owner (replies.blinding 1) asset)
  let commitment ← orThrow (bigInt note.commitment)
  let nf := nullifierOf K commitment note.secret.ownerSk
  let witnessed ← orThrow (membership K synced note)
  let insertion1 ← orThrow (insertionFor K synced.tree o1.note.commitment)
  let _ ← appendOutput K o1.note.commitment
  let middle ← get
  let insertion2 ← orThrow (insertionFor K middle.synced.tree o2.note.commitment)
  let _ ← appendOutput K o2.note.commitment
  let assetField ← orThrow (assetFieldFor K asset)
  pure (.split
    { nullifier := nf
      commitment1 := o1.commitment
      ownerCommitment1 := o1.ownerCommitment
      commitment2 := o2.commitment
      ownerCommitment2 := o2.ownerCommitment
      input := witnessNote note
      ownerSk := note.secret.ownerSk
      out1 := witnessNote o1.note
      out2 := witnessNote o2.note
      membership := witnessed
      insertion1 := insertion1
      insertion2 := insertion2
      assetField := assetField })

/-- `merge`, up to `proveMerge`. -/
def draftMerge (i1 i2 : ShieldNote) : Async Client EngineWitness := do
  let keys ← await replies.keys
  let asset := i1.assetOf
  throwIf (¬ sameAsset i2.asset asset) "cannot merge notes of different assets"
  let out ← orThrow (newNote K (i1.amount + i2.amount) keys.owner (replies.blinding 0) asset)
  syncTree K replies
  let { synced, .. } ← get
  let commitment1 ← orThrow (bigInt i1.commitment)
  let commitment2 ← orThrow (bigInt i2.commitment)
  let nf1 := nullifierOf K commitment1 i1.secret.ownerSk
  let nf2 := nullifierOf K commitment2 i2.secret.ownerSk
  let insertion ← orThrow (insertionFor K synced.tree out.note.commitment)
  let membership1 ← orThrow (membership K synced i1)
  let membership2 ← orThrow (membership K synced i2)
  let assetField ← orThrow (assetFieldFor K asset)
  pure (.merge
    { nullifier1 := nf1
      nullifier2 := nf2
      commitment := out.commitment
      ownerCommitment := out.ownerCommitment
      input1 := witnessNote i1
      ownerSk1 := i1.secret.ownerSk
      membership1 := membership1
      input2 := witnessNote i2
      ownerSk2 := i2.secret.ownerSk
      membership2 := membership2
      output := witnessNote out.note
      insertion := insertion
      assetField := assetField })

/-- `withdraw`, up to `proveWithdraw`. -/
def draftWithdraw (note : ShieldNote) (recipient : Ending String) :
    Async Client EngineWitness := do
  let asset := note.assetOf
  throwIf (asset.native ∧ note.amount < minWithdrawal) "minimum withdrawal is 1 STX"
  let address ← await recipient
  syncTree K replies
  let { synced, .. } ← get
  let commitment ← orThrow (bigInt note.commitment)
  let nf := nullifierOf K commitment note.secret.ownerSk
  let recipientPrincipal ← orThrow (K.clarity.principal address)
  let witnessed ← orThrow (membership K synced note)
  let assetField ← orThrow (assetFieldFor K asset)
  pure (.withdraw
    { nullifier := nf
      amount := note.amount
      recipientHash := bytesToBig (fePrincipal K.primitives recipientPrincipal)
      input := witnessNote note
      ownerSk := note.secret.ownerSk
      membership := witnessed
      assetField := assetField })

def draft : Intent → Async Client EngineWitness
  | .transfer base recipient => draftTransfer K replies base recipient
  | .split note a1 a2 => draftSplit K replies note a1 a2
  | .merge i1 i2 => draftMerge K replies i1 i2
  | .withdraw note recipient => draftWithdraw K replies note recipient

end Drafts

variable {K : Packages} {replies : Replies} {client mid : Client} {w : EngineWitness}

/-- The tree after an output is appended. -/
def grownBy (grown : Nat × CommitmentTree) (client : Client) : Client :=
  { client with synced := { client.synced with tree := grown.2 } }

theorem appendOutput_bind {α : Type} {commitment : String} {grown : Nat × CommitmentTree}
    {next : Nat → Async Client α}
    (h : client.synced.tree.insert K.builtins (hexToBytes commitment) = .ok grown) :
    (appendOutput K commitment >>= next) client = next grown.1 (grownBy grown client) := by
  unfold appendOutput
  simp only [bind_assoc, get_bind, h, ok_bind, modify_bind, pure_bind]
  rfl

theorem appendOutput_bind_returned {α : Type} {commitment : String} {next : Nat → Async Client α}
    {value : α} {last : Client} :
    (appendOutput K commitment >>= next) client = (.returned value, last) ↔
      ∃ grown, client.synced.tree.insert K.builtins (hexToBytes commitment) = .ok grown ∧
        next grown.1 (grownBy grown client) = (.returned value, last) := by
  unfold appendOutput
  simp only [bind_assoc, get_bind, orThrow_bind_returned, modify_bind, pure_bind]
  rfl

/-- An operation goes on with the proof of what it has drafted. -/
theorem prepare_of_draft {intent : Intent} (h : draft K replies intent client = (.returned w, mid)) :
    ∃ rest : Statement → Async Client Prepared,
      prepare K replies intent client = (prove replies w.publicInputs >>= rest) mid := by
  cases intent with
  | transfer base recipient =>
      unfold draft draftTransfer syncTree at h
      simp only [bind_assoc, get_bind, modify_bind, await_bind_returned,
        orThrow_bind_returned, pure_apply, Prod.mk.injEq, Ending.returned.injEq] at h
      obtain ⟨asset, hasset, input, hpick, address, haddress, out, hout, commits, hcommits, synced,
        hsynced, c, hc, insertion, hinsertion, newCommitment, hnew, witnessed, hwitnessed,
        assetField, hfield, rfl, rfl⟩ := h
      unfold prepare prepareTransfer syncTree
      simp only [hasset, hpick, haddress, hout, hcommits, hsynced, hc, hinsertion, hnew, hwitnessed,
        hfield, bind_assoc, get_bind, modify_bind, returned_bind, ok_bind, EngineWitness.publicInputs]
      exact ⟨_, rfl⟩
  | split note a1 a2 =>
      unfold draft draftSplit syncTree at h
      simp only [bind_assoc, get_bind, modify_bind, await_bind_returned, orThrow_bind_returned,
        throwIf_bind_returned, appendOutput_bind_returned, pure_apply, Prod.mk.injEq,
        Ending.returned.injEq] at h
      obtain ⟨keys, hkeys, hsum, commits, hcommits, synced, hsynced, o1, ho1, o2, ho2, c, hc,
        witnessed, hwitnessed, insertion1, hinsertion1, grown1, hgrown1, insertion2, hinsertion2,
        grown2, hgrown2, assetField, hfield, rfl, rfl⟩ := h
      have happend1 (next : Nat → Async Client Prepared) :
          (appendOutput K o1.note.commitment >>= next) { client with synced := synced } =
            next grown1.1 (grownBy grown1 { client with synced := synced }) :=
        appendOutput_bind hgrown1
      have happend2 (next : Nat → Async Client Prepared) :
          (appendOutput K o2.note.commitment >>= next)
              (grownBy grown1 { client with synced := synced }) =
            next grown2.1 (grownBy grown2 (grownBy grown1 { client with synced := synced })) :=
        appendOutput_bind hgrown2
      unfold prepare prepareSplit syncTree throwIf
      simp only [hkeys, if_neg hsum, hcommits, hsynced, ho1, ho2, hc, hwitnessed, bind_assoc,
        pure_bind, get_bind, modify_bind, returned_bind, ok_bind]
      rw [hinsertion1]
      simp only [ok_bind, happend1, get_bind]
      rw [hinsertion2]
      simp only [ok_bind, happend2, get_bind, hfield, EngineWitness.publicInputs]
      exact ⟨_, rfl⟩
  | merge i1 i2 =>
      unfold draft draftMerge syncTree at h
      simp only [bind_assoc, get_bind, modify_bind, await_bind_returned,
        orThrow_bind_returned, throwIf_bind_returned, pure_apply, Prod.mk.injEq,
        Ending.returned.injEq] at h
      obtain ⟨keys, hkeys, hsame, out, hout, commits, hcommits, synced, hsynced, c1, hc1, c2, hc2,
        insertion, hinsertion, witnessed1, hwitnessed1, witnessed2, hwitnessed2, assetField, hfield,
        rfl, rfl⟩ := h
      unfold prepare prepareMerge syncTree throwIf
      simp only [hkeys, if_neg hsame, hout, hcommits, hsynced, hc1, hc2, hinsertion, hwitnessed1,
        hwitnessed2, hfield, bind_assoc, pure_bind, get_bind, modify_bind, returned_bind, ok_bind,
        EngineWitness.publicInputs]
      exact ⟨_, rfl⟩
  | withdraw note recipient =>
      unfold draft draftWithdraw syncTree at h
      simp only [bind_assoc, get_bind, modify_bind, await_bind_returned,
        orThrow_bind_returned, throwIf_bind_returned, pure_apply, Prod.mk.injEq,
        Ending.returned.injEq] at h
      obtain ⟨hminimum, address, haddress, commits, hcommits, synced, hsynced, c, hc, principal,
        hprincipal, witnessed, hwitnessed, assetField, hfield, rfl, rfl⟩ := h
      unfold prepare prepareWithdraw syncTree throwIf
      simp only [haddress, if_neg hminimum, hcommits, hsynced, hc, hprincipal, hwitnessed, hfield,
        bind_assoc, pure_bind, get_bind, modify_bind, returned_bind, ok_bind,
        EngineWitness.publicInputs]
      exact ⟨_, rfl⟩

/-! ## What an operation relies on, and what it has to be -/

/-- An integer that the engine takes for a field element. -/
def IsElement (x : Int) : Prop := 0 ≤ x ∧ x < fieldModulus

namespace Intent

variable (K : Packages) (replies : Replies)

/-- The API lists the chain's commitments; the notes spent are the client's own, and of
the operation's asset; its keys are derived by the engine. -/
structure Honest (store : List ShieldNote) (leaves : List Fr) (intent : Intent) : Prop where
  listing : Listing replies leaves
  opens : ∀ note, intent.Spends replies store note → ∃ coin secret, Opens K note coin secret
  assets : ∀ asset note, intent.asset replies = .returned asset →
    intent.Spends replies store note → assetFieldFor K note.assetOf = assetFieldFor K asset
  keys : ∀ keys, replies.keys = .returned keys →
    ∃ secret, deriveOwnerKey K.builtins secret = .ok keys.owner

/-- The amounts created are of 64 bits, a recipient's key is made of field elements, and
two outputs, or two inputs, are not the same. -/
def Fits : Intent → Prop
  | .transfer base recipient =>
      base < 2 ^ 64 ∧ ∀ address, decodeAddress recipient = .ok address →
        IsElement address.ownerPkX ∧ IsElement address.ownerPkY
  | .split note a1 a2 =>
      (0 ≤ a1 ∧ a1 < 2 ^ 64) ∧ (0 ≤ a2 ∧ a2 < 2 ^ 64) ∧
        ∀ keys o1 o2, replies.keys = .returned keys →
          newNote K a1 keys.owner (replies.blinding 0) note.assetOf = .ok o1 →
          newNote K a2 keys.owner (replies.blinding 1) note.assetOf = .ok o2 →
            o1.commitment ≠ o2.commitment
  | .merge i1 i2 =>
      i1.amount + i2.amount < 2 ^ 64 ∧ i1.commitment ≠ i2.commitment ∧
        ∀ c1 c2, bigInt i1.commitment = .ok c1 → bigInt i2.commitment = .ok c2 →
          nullifierOf K c1 i1.secret.ownerSk ≠ nullifierOf K c2 i2.secret.ownerSk
  | .withdraw note recipient =>
      note.amount < 2 ^ 64 ∧ ∀ address principal, recipient = .returned address →
        K.clarity.principal address = .ok principal →
          bytesToBig (fePrincipal K.primitives principal) ≠ 0

end Intent

/-! ## Inputs that are taken -/

section Inputs

variable {B : Builtins}

theorem isElement_val (x : Fr) : IsElement (x.val : Int) := by
  have hlt := x.isLt
  exact ⟨Int.natCast_nonneg _, by omega⟩

theorem isElement_blinding (replies : Replies) (k : Nat) : IsElement (replies.blinding k) := by
  obtain ⟨hpos, hlt⟩ := randomBlinding_range (replies.blindingBytes k)
  exact ⟨hpos.le, hlt⟩

theorem f_reduce {x : Int} (h : IsElement x) : f x = .ok (reduce x) := by
  obtain ⟨field, rfl⟩ := f_eq h
  rw [f_val, reduce_val]

theorem noteInput_reduced {n : NoteWitness} (hamount : IsElement n.amount)
    (hx : IsElement n.ownerPkX) (hy : IsElement n.ownerPkY) (hblinding : IsElement n.blinding) :
    noteInput n = .ok (reducedNote n) := by
  unfold noteInput
  rw [f_reduce hamount, f_reduce hx, f_reduce hy, f_reduce hblinding]
  rfl

theorem pathInput_values (path : MerklePath) : pathInput (pathValues path) = .ok path :=
  pathInput_val path

/-- The range check on an amount that is passed. -/
theorem amount_lt_iff {x : Int} {element : Fr} (h : x = element.val) :
    element.val < 2 ^ 64 ↔ x < 2 ^ 64 := by
  omega

theorem range_of_amount {x : Int} {element : Fr} (h : x = element.val)
    (hrange : element.val < 2 ^ 64) : 0 ≤ x ∧ x < 2 ^ 64 := by
  omega

theorem isElement_of_range {x : Int} (hnonneg : 0 ≤ x) (h : x < 2 ^ 64) : IsElement x := by
  have hwide : (2 : Int) ^ 64 < fieldModulus := by decide
  exact ⟨hnonneg, by omega⟩

/-- The coordinates of a derived key are field elements. -/
theorem isElement_of_derived {secret : Bytes} {owner : OwnerKey}
    (h : deriveOwnerKey B secret = .ok owner) : IsElement owner.pkX ∧ IsElement owner.pkY := by
  obtain ⟨sk, hsk⟩ := deriveOwnerKey_ok (B := B) secret
  cases hsk.symm.trans h
  exact ⟨isElement_val _, isElement_val _⟩

theorem isElement_fePrincipal (P : Primitives) (who : Principal) :
    IsElement (bytesToBig (fePrincipal P who)) := by
  have hlength := fePrincipal_length P who
  have htail : (slice (P.sha256 (P.consensusBuff who)).bytes 1 32).length = 31 :=
    Nat.succ.inj hlength
  have hbound := bigEndianValue_lt (slice (P.sha256 (P.consensusBuff who)).bytes 1 32)
  have hwide : (256 : Nat) ^ 31 < fieldModulus := by decide
  rw [htail] at hbound
  rw [fePrincipal_eq]
  unfold StxShield.fePrincipal bytesToBig
  rw [bigEndianValue, UInt8.toNat_zero, Nat.zero_mul, Nat.zero_add]
  exact ⟨Int.natCast_nonneg _, by omega⟩

/-- A token's field is passed as it is. -/
theorem exists_assetIn {asset : AssetInfo} {assetField : Option Int}
    (h : assetFieldFor K asset = .ok assetField) : ∃ element, assetIn assetField = .ok element := by
  unfold assetFieldFor at h
  split at h
  case isTrue =>
    cases h
    exact ⟨none, rfl⟩
  case isFalse =>
    obtain ⟨value, hvalue, rfl⟩ := except_map_ok.mp h
    unfold assetFieldOf at hvalue
    split at hvalue
    case h_1 text =>
      obtain ⟨token, -, rfl⟩ := except_map_ok.mp hvalue
      unfold assetIn truthy
      by_cases hzero : bytesToBig (fePrincipal K.primitives token) = 0
      · rw [hzero]
        exact ⟨none, rfl⟩
      · rw [Option.filter_some, if_pos (decide_eq_true hzero)]
        simp only [f_reduce (isElement_fePrincipal K.primitives token)]
        exact ⟨_, rfl⟩
    case h_2 => cases hvalue

end Inputs

/-! ## The four operations -/

section Operations

variable {leaves : List Fr}

/-- With the public inputs known. -/
theorem proved_iff {B : Builtins} {statement : Statement} (h : w.publicInputs = .ok statement) :
    (∃ proved, proveCircuit B w = .ok proved) ↔
      ∃ inputs, w.privateInputs = .ok inputs ∧ Satisfied (program B statement inputs) := by
  constructor
  · rintro ⟨proved, hproved⟩
    obtain ⟨hpublic, hrest⟩ := proveCircuit_ok.mp hproved
    cases h.symm.trans hpublic
    exact hrest
  · intro hrest
    exact ⟨statement, proveCircuit_ok.mpr ⟨h, hrest⟩⟩

theorem pickNote_amount {store : List ShieldNote} {base : Int} {asset : AssetInfo}
    {note : ShieldNote} (h : pickNote store base asset = .ok note) : note.amount = base := by
  unfold pickNote at h
  split at h
  case h_1 exact hfound =>
    cases h
    have hsame := List.find?_some hfound
    simp only [decide_eq_true_eq] at hsame
    exact hsame.2.1
  case h_2 => cases h

/-- The coin that a note opens to is spent, along the path that is handed over. -/
theorem Opens.spent {note : ShieldNote} {coin : Coin} {secret root : Fr} {path : MerklePath}
    (h : Opens K note coin secret)
    (hclimb : MerkleTree.climb K.builtins.hash2 (coin.commitment K.builtins) path.steps = root) :
    Spent K.builtins ⟨coin.asset, coin.note⟩ secret
      (K.builtins.hash2 (coin.commitment K.builtins) secret) root path :=
  ⟨h.key, rfl, hclimb⟩

/-- The header of a statement that the client makes. -/
theorem header_of_assetIn {assetField : Option Int} {element : Option Fr} (op : Fr)
    (h : assetIn assetField = .ok element) : Header element op circuitVersion op :=
  ⟨rfl, rfl, (assetIn_eq h).2⟩

theorem withdraw_proved {note : ShieldNote} {recipient : Ending String}
    (hhonest : (Intent.withdraw note recipient).Honest K replies client.store leaves)
    (h : draftWithdraw K replies note recipient client = (.returned w, mid)) :
    (∃ statement, proveCircuit K.builtins w = .ok statement) ↔
      (Intent.withdraw note recipient).Fits K replies := by
  unfold draftWithdraw syncTree at h
  simp only [bind_assoc, get_bind, modify_bind, await_bind_returned, orThrow_bind_returned,
    throwIf_bind_returned, pure_apply, Prod.mk.injEq, Ending.returned.injEq] at h
  obtain ⟨-, address, haddress, commits, hcommits, synced, hsynced, c, hc, principal, hprincipal,
    witnessed, hwitnessed, assetField, hfield, rfl, rfl⟩ := h
  obtain ⟨coin, secret, hopens⟩ := hhonest.opens note rfl
  obtain ⟨own, hown, hin⟩ := hopens.asset
  obtain rfl : own = assetField := Except.ok.inj (hown.symm.trans hfield)
  obtain ⟨hmirrors, hlisted⟩ := hhonest.listing.mirrors hcommits hsynced
  obtain ⟨merkle, hmerkle, hroot, hclimb⟩ :=
    membership_path hmirrors hhonest.listing.fits hlisted hopens.commitment hwitnessed
  obtain ⟨hash, hhash⟩ := f_eq (isElement_fePrincipal K.primitives principal)
  have hspent := hopens.spent hclimb
  let x : Withdraw.Public :=
    { op := 3
      nullifier := K.builtins.hash2 (coin.commitment K.builtins) secret
      amount := coin.note.amount
      recipientHash := hash
      merkleRoot := CommitmentTree.naiveRoot K.builtins leaves
      circuitVersion := circuitVersion }
  let inputs : Withdraw.Witness := { input := coin.note, ownerSk := secret, merkle := merkle }
  have hsatisfied : Satisfied (Withdraw.circuit K.builtins coin.asset x inputs) ↔
      note.amount < 2 ^ 64 ∧ hash ≠ 0 := by
    rw [Withdraw.satisfied_iff, ← amount_lt_iff hopens.amount]
    constructor
    · rintro ⟨-, -, -, hrange, hrecipient⟩
      exact ⟨hrange, hrecipient⟩
    · rintro ⟨hrange, hrecipient⟩
      exact ⟨header_of_assetIn 3 hin, hspent, rfl, hrange, hrecipient⟩
  have hfits : (Intent.withdraw note recipient).Fits K replies ↔
      note.amount < 2 ^ 64 ∧ hash ≠ 0 := by
    have hzero : hash ≠ 0 ↔ bytesToBig (fePrincipal K.primitives principal) ≠ 0 := by
      rw [hhash, Ne, Ne, Int.natCast_eq_zero, Fin.val_eq_zero_iff]
    rw [hzero]
    constructor
    · rintro ⟨hrange, hrecipient⟩
      exact ⟨hrange, hrecipient address principal haddress hprincipal⟩
    · rintro ⟨hrange, hrecipient⟩
      refine ⟨hrange, ?_⟩
      intro other who hother hwho
      obtain rfl : address = other := Ending.returned.inj (haddress.symm.trans hother)
      obtain rfl : principal = who := Except.ok.inj (hprincipal.symm.trans hwho)
      exact hrecipient
  rw [proved_iff (withdraw_publicInputs (x := x) hin rfl rfl (hopens.nullifier hc) hopens.amount
    hhash hroot), hfits, ← hsatisfied]
  constructor
  · rintro ⟨given, hprivate, hsat⟩
    simp only [EngineWitness.privateInputs, hopens.noteInput, hopens.ownerSk, f_val, hmerkle,
      pathInput_values] at hprivate
    cases hprivate
    exact hsat
  · intro hsat
    refine ⟨.withdraw inputs, ?_, hsat⟩
    simp only [EngineWitness.privateInputs, hopens.noteInput, hopens.ownerSk, f_val, hmerkle,
      pathInput_values]
    rfl

theorem transfer_proved {base : Int} {recipient : String}
    (hhonest : (Intent.transfer base recipient).Honest K replies client.store leaves)
    (h : draftTransfer K replies base recipient client = (.returned w, mid)) :
    (∃ statement, proveCircuit K.builtins w = .ok statement) ↔
      (Intent.transfer base recipient).Fits K replies := by
  unfold draftTransfer syncTree at h
  simp only [bind_assoc, get_bind, modify_bind, await_bind_returned, orThrow_bind_returned,
    pure_apply, Prod.mk.injEq, Ending.returned.injEq] at h
  obtain ⟨asset, hasset, input, hpick, address, haddress, out, hout, commits, hcommits, synced,
    hsynced, c, hc, insertion, hinsertion, newCommitment, hnew, witnessed, hwitnessed, assetField,
    hfield, rfl, rfl⟩ := h
  obtain ⟨coin, secret, hopens⟩ := hhonest.opens input ⟨asset, hasset, hpick⟩
  obtain ⟨own, hown, hin⟩ := hopens.asset
  have hsame := hhonest.assets asset input hasset ⟨asset, hasset, hpick⟩
  obtain rfl : own = assetField := Except.ok.inj (hown.symm.trans (hsame.trans hfield))
  have hmakes := newNoteFor_makes hout hfield hin
  obtain ⟨hmirrors, hlisted⟩ := hhonest.listing.mirrors hcommits hsynced
  obtain ⟨merkle, hmerkle, hroot, hclimb⟩ :=
    membership_path hmirrors hhonest.listing.fits hlisted hopens.commitment hwitnessed
  rw [hmakes.text, hmakes.commitment] at hinsertion hnew
  obtain ⟨hroom, hslot, -, hnewRoot, slot, hslotPath, happended⟩ :=
    insertion_path hmirrors.tree hinsertion
  rw [bigInt_toHex32_val] at hnew
  have hbase : base = coin.note.amount.val := (pickNote_amount hpick).symm.trans hopens.amount
  have hspent := hopens.spent hclimb
  let output : NoteWitness := ⟨base, address.ownerPkX, address.ownerPkY, replies.blinding 0⟩
  let created : Coin := ⟨coin.asset, reducedNote output⟩
  let x : Transfer.Public :=
    { op := 2
      nullifier := K.builtins.hash2 (coin.commitment K.builtins) secret
      newCommitment := created.commitment K.builtins
      newOwnerCommitment := K.builtins.hash2 created.note.ownerPkX created.note.ownerPkY
      merkleRoot := CommitmentTree.naiveRoot K.builtins leaves
      newRoot := CommitmentTree.naiveRoot K.builtins (leaves ++ [created.commitment K.builtins])
      leafIndex := Fin.ofNat _ leaves.length
      circuitVersion := circuitVersion }
  have hindex : (insertion.leafIndex : Int) = x.leafIndex.val := by
    rw [hslot, CommitmentTree.ofNat_val (Nat.le_of_lt hroom)]
  rw [proved_iff (transfer_publicInputs (x := x) hin rfl rfl (hopens.nullifier hc)
    (Except.ok.inj hnew).symm hmakes.owner hroot hnewRoot hindex)]
  constructor
  · rintro ⟨given, hprivate, hsat⟩
    simp only [EngineWitness.privateInputs, except_bind_ok, except_pure_ok] at hprivate
    obtain ⟨i, -, sk, -, m, -, s, -, o, ho, rfl⟩ := hprivate
    obtain ⟨-, -, -, hcreated, -⟩ := Transfer.satisfied_iff.mp hsat
    rw [hmakes.witness] at ho
    obtain ⟨hamount, hx, hy, -⟩ := noteInput_ok.mp ho
    refine ⟨(amount_lt_iff hamount).mp hcreated.range, ?_⟩
    intro other hother
    obtain rfl : address = other := Except.ok.inj (haddress.symm.trans hother)
    have helements : IsElement output.ownerPkX ∧ IsElement output.ownerPkY := by
      rw [hx, hy]
      exact ⟨isElement_val _, isElement_val _⟩
    exact helements
  · rintro ⟨hrange, hkey⟩
    obtain ⟨hx, hy⟩ := hkey address haddress
    have hamount : IsElement base := hbase ▸ isElement_val _
    have hinput : noteInput output = .ok (reducedNote output) :=
      noteInput_reduced hamount hx hy (isElement_blinding replies 0)
    have hvalue : coin.note.amount = (reducedNote output).amount := by
      change coin.note.amount = reduce base
      rw [hbase, reduce_val]
    have hranged : created.amount < 2 ^ 64 :=
      (amount_lt_iff (noteInput_ok.mp hinput).1).mpr hrange
    refine ⟨.transfer
      { input := coin.note
        ownerSk := secret
        merkle := merkle
        insertion := slot
        output := reducedNote output }, ?_, ?_⟩
    · simp only [EngineWitness.privateInputs, hopens.noteInput, hopens.ownerSk, f_val, hmerkle,
        hslotPath, pathInput_values, hmakes.witness]
      rw [hinput]
      rfl
    · exact Transfer.satisfied_iff.mpr ⟨header_of_assetIn 2 hin, hspent, hvalue,
        ⟨hranged, rfl, rfl⟩, happended⟩

/-- An output that is appended extends the list. -/
theorem holds_grown {tree : CommitmentTree} {c : Fr} {grown : Nat × CommitmentTree}
    (htree : CommitmentTree.Holds K.builtins tree (leaves.map encode))
    (h : tree.insert K.builtins (hexToBytes (toHex32 c.val)) = .ok grown) :
    CommitmentTree.Holds K.builtins grown.2 ((leaves ++ [c]).map encode) := by
  rw [hexToBytes_toHex32] at h
  rw [List.map_append]
  exact (htree.insert h).2

theorem split_proved {note : ShieldNote} {a1 a2 : Int}
    (hhonest : (Intent.split note a1 a2).Honest K replies client.store leaves)
    (h : draftSplit K replies note a1 a2 client = (.returned w, mid)) :
    (∃ statement, proveCircuit K.builtins w = .ok statement) ↔
      (Intent.split note a1 a2).Fits K replies := by
  unfold draftSplit syncTree at h
  simp only [bind_assoc, get_bind, modify_bind, await_bind_returned, orThrow_bind_returned,
    throwIf_bind_returned, appendOutput_bind_returned, pure_apply, Prod.mk.injEq,
    Ending.returned.injEq] at h
  obtain ⟨keys, hkeys, hsum, commits, hcommits, synced, hsynced, o1, ho1, o2, ho2, c, hc, witnessed,
    hwitnessed, insertion1, hinsertion1, grown1, hgrown1, insertion2, hinsertion2, grown2, hgrown2,
    assetField, hfield, rfl, rfl⟩ := h
  obtain ⟨coin, secret, hopens⟩ := hhonest.opens note rfl
  obtain ⟨own, hown, hin⟩ := hopens.asset
  obtain rfl : own = assetField := Except.ok.inj (hown.symm.trans hfield)
  obtain ⟨derived, hderived⟩ := hhonest.keys keys hkeys
  obtain ⟨hx, hy⟩ := isElement_of_derived hderived
  have hmakes1 := newNoteFor_makes ho1 hfield hin
  have hmakes2 := newNoteFor_makes ho2 hfield hin
  obtain ⟨hmirrors, hlisted⟩ := hhonest.listing.mirrors hcommits hsynced
  obtain ⟨merkle, hmerkle, hroot, hclimb⟩ :=
    membership_path hmirrors hhonest.listing.fits hlisted hopens.commitment hwitnessed
  rw [hmakes1.text, hmakes1.commitment] at hinsertion1 hgrown1
  rw [hmakes2.text, hmakes2.commitment] at hinsertion2
  obtain ⟨hroom1, hslot1, -, -, slot1, hslotPath1, happended1⟩ :=
    insertion_path hmirrors.tree hinsertion1
  obtain ⟨hroom2, -, -, hnewRoot, slot2, hslotPath2, happended2⟩ :=
    insertion_path (holds_grown hmirrors.tree hgrown1) hinsertion2
  have hspent := hopens.spent hclimb
  let output1 : NoteWitness := ⟨a1, keys.owner.pkX, keys.owner.pkY, replies.blinding 0⟩
  let output2 : NoteWitness := ⟨a2, keys.owner.pkX, keys.owner.pkY, replies.blinding 1⟩
  let created1 : Coin := ⟨coin.asset, reducedNote output1⟩
  let created2 : Coin := ⟨coin.asset, reducedNote output2⟩
  let x : Split.Public :=
    { op := 4
      nullifier := K.builtins.hash2 (coin.commitment K.builtins) secret
      commitment1 := created1.commitment K.builtins
      ownerCommitment1 := K.builtins.hash2 created1.note.ownerPkX created1.note.ownerPkY
      commitment2 := created2.commitment K.builtins
      ownerCommitment2 := K.builtins.hash2 created2.note.ownerPkX created2.note.ownerPkY
      merkleRoot := CommitmentTree.naiveRoot K.builtins leaves
      newRoot := CommitmentTree.naiveRoot K.builtins
        (leaves ++ [created1.commitment K.builtins] ++ [created2.commitment K.builtins])
      leafIndex := Fin.ofNat _ leaves.length
      circuitVersion := circuitVersion }
  have hindex : (insertion1.leafIndex : Int) = x.leafIndex.val := by
    rw [hslot1, CommitmentTree.ofNat_val (Nat.le_of_lt hroom1)]
  have hdiffer : o1.commitment ≠ o2.commitment ↔ x.commitment1 ≠ x.commitment2 := by
    rw [hmakes1.commitment, hmakes2.commitment, Ne, Int.natCast_inj, ← Fin.ext_iff]
  rw [proved_iff (split_publicInputs (x := x) hin rfl rfl (hopens.nullifier hc)
    hmakes1.commitment hmakes1.owner hmakes2.commitment hmakes2.owner hroot hnewRoot hindex)]
  constructor
  · rintro ⟨given, hprivate, hsat⟩
    simp only [EngineWitness.privateInputs, except_bind_ok, except_pure_ok] at hprivate
    obtain ⟨i, -, sk, -, m, -, n1, hn1, n2, hn2, s1, -, s2, -, rfl⟩ := hprivate
    obtain ⟨-, -, -, hcreated1, hcreated2, hne, -⟩ := Split.satisfied_iff.mp hsat
    rw [hmakes1.witness] at hn1
    rw [hmakes2.witness] at hn2
    obtain ⟨hamount1, -⟩ := noteInput_ok.mp hn1
    obtain ⟨hamount2, -⟩ := noteInput_ok.mp hn2
    refine ⟨range_of_amount hamount1 hcreated1.range, range_of_amount hamount2 hcreated2.range, ?_⟩
    intro keys' o1' o2' hkeys' ho1' ho2'
    obtain rfl : keys = keys' := Ending.returned.inj (hkeys.symm.trans hkeys')
    obtain rfl : o1 = o1' := Except.ok.inj (ho1.symm.trans ho1')
    obtain rfl : o2 = o2' := Except.ok.inj (ho2.symm.trans ho2')
    exact hdiffer.mpr hne
  · rintro ⟨⟨hnonneg1, hrange1⟩, ⟨hnonneg2, hrange2⟩, hdistinct⟩
    have hne := hdiffer.mp (hdistinct keys o1 o2 hkeys ho1 ho2)
    have hinput1 : noteInput output1 = .ok (reducedNote output1) :=
      noteInput_reduced (isElement_of_range hnonneg1 hrange1) hx hy (isElement_blinding replies 0)
    have hinput2 : noteInput output2 = .ok (reducedNote output2) :=
      noteInput_reduced (isElement_of_range hnonneg2 hrange2) hx hy (isElement_blinding replies 1)
    have hamount1 : a1 = (reducedNote output1).amount.val := (noteInput_ok.mp hinput1).1
    have hamount2 : a2 = (reducedNote output2).amount.val := (noteInput_ok.mp hinput2).1
    have hranged1 : created1.amount < 2 ^ 64 := (amount_lt_iff hamount1).mpr hrange1
    have hranged2 : created2.amount < 2 ^ 64 := (amount_lt_iff hamount2).mpr hrange2
    have hvalue : coin.note.amount = (reducedNote output1).amount + (reducedNote output2).amount := by
      refine Fin.ext ?_
      have htotal : (coin.note.amount.val : Int) =
          (reducedNote output1).amount.val + (reducedNote output2).amount.val := by
        rw [← hopens.amount, ← hamount1, ← hamount2]
        exact (not_not.mp hsum).symm
      rw [val_add_of_range hranged1 hranged2]
      exact_mod_cast htotal
    have hnext : Fin.ofNat fieldModulus (leaves ++ [created1.commitment K.builtins]).length =
        x.leafIndex + 1 := by
      refine Fin.ext ?_
      rw [CommitmentTree.ofNat_val (Nat.le_of_lt hroom2), val_succ_of_position happended1.slot,
        CommitmentTree.ofNat_val (Nat.le_of_lt hroom1), List.length_append]
      rfl
    refine ⟨.split
      { input := coin.note
        ownerSk := secret
        merkle := merkle
        out1 := reducedNote output1
        out2 := reducedNote output2
        insertion1 := slot1
        insertion2 := slot2 }, ?_, ?_⟩
    · simp only [EngineWitness.privateInputs, hopens.noteInput, hopens.ownerSk, f_val, hmerkle,
        hslotPath1, hslotPath2, pathInput_values, hmakes1.witness, hmakes2.witness]
      rw [hinput1, hinput2]
      rfl
    · exact Split.satisfied_iff.mpr ⟨header_of_assetIn 4 hin, hspent, hvalue, ⟨hranged1, rfl, rfl⟩,
        ⟨hranged2, rfl, rfl⟩, hne, _, happended1, hnext ▸ happended2⟩

theorem merge_proved {i1 i2 : ShieldNote}
    (hhonest : (Intent.merge i1 i2).Honest K replies client.store leaves)
    (h : draftMerge K replies i1 i2 client = (.returned w, mid)) :
    (∃ statement, proveCircuit K.builtins w = .ok statement) ↔
      (Intent.merge i1 i2).Fits K replies := by
  unfold draftMerge syncTree at h
  simp only [bind_assoc, get_bind, modify_bind, await_bind_returned, orThrow_bind_returned,
    throwIf_bind_returned, pure_apply, Prod.mk.injEq, Ending.returned.injEq] at h
  obtain ⟨keys, hkeys, -, out, hout, commits, hcommits, synced, hsynced, c1, hc1, c2, hc2,
    insertion, hinsertion, witnessed1, hwitnessed1, witnessed2, hwitnessed2, assetField, hfield,
    rfl, rfl⟩ := h
  obtain ⟨coin1, secret1, hopens1⟩ := hhonest.opens i1 (.inl rfl)
  obtain ⟨coin2, secret2, hopens2⟩ := hhonest.opens i2 (.inr rfl)
  obtain ⟨own1, hown1, hin⟩ := hopens1.asset
  obtain ⟨own2, hown2, hin2⟩ := hopens2.asset
  obtain rfl : own1 = assetField := Except.ok.inj (hown1.symm.trans hfield)
  have hsame := hhonest.assets i1.assetOf i2 rfl (.inr rfl)
  obtain rfl : own2 = own1 := Except.ok.inj (hown2.symm.trans (hsame.trans hfield))
  have hasset : coin2.asset = coin1.asset := Except.ok.inj (hin2.symm.trans hin)
  obtain ⟨derived, hderived⟩ := hhonest.keys keys hkeys
  obtain ⟨hx, hy⟩ := isElement_of_derived hderived
  have hmakes := newNoteFor_makes hout hfield hin
  obtain ⟨hmirrors, hlisted⟩ := hhonest.listing.mirrors hcommits hsynced
  obtain ⟨merkle1, hmerkle1, hroot, hclimb1⟩ :=
    membership_path hmirrors hhonest.listing.fits hlisted hopens1.commitment hwitnessed1
  obtain ⟨merkle2, hmerkle2, -, hclimb2⟩ :=
    membership_path hmirrors hhonest.listing.fits hlisted hopens2.commitment hwitnessed2
  rw [hmakes.text, hmakes.commitment] at hinsertion
  obtain ⟨hroom, hslot, -, hnewRoot, slot, hslotPath, happended⟩ :=
    insertion_path hmirrors.tree hinsertion
  have hspent1 := hopens1.spent hclimb1
  have hspent2 := hopens2.spent hclimb2
  rw [hasset] at hspent2
  let output : NoteWitness :=
    ⟨i1.amount + i2.amount, keys.owner.pkX, keys.owner.pkY, replies.blinding 0⟩
  let created : Coin := ⟨coin1.asset, reducedNote output⟩
  let x : Merge.Public :=
    { op := 5
      nullifier1 := K.builtins.hash2 (coin1.commitment K.builtins) secret1
      nullifier2 := K.builtins.hash2 (coin2.commitment K.builtins) secret2
      commitment := created.commitment K.builtins
      ownerCommitment := K.builtins.hash2 created.note.ownerPkX created.note.ownerPkY
      merkleRoot := CommitmentTree.naiveRoot K.builtins leaves
      newRoot := CommitmentTree.naiveRoot K.builtins (leaves ++ [created.commitment K.builtins])
      leafIndex := Fin.ofNat _ leaves.length
      circuitVersion := circuitVersion }
  have hindex : (insertion.leafIndex : Int) = x.leafIndex.val := by
    rw [hslot, CommitmentTree.ofNat_val (Nat.le_of_lt hroom)]
  have hcoin2 : (⟨coin1.asset, coin2.note⟩ : Coin) = coin2 := by
    rw [← hasset]
  have hcoins : i1.commitment ≠ i2.commitment ↔
      Coin.commitment K.builtins ⟨coin1.asset, coin1.note⟩ ≠
        Coin.commitment K.builtins ⟨coin1.asset, coin2.note⟩ := by
    rw [hcoin2, hopens1.commitment, hopens2.commitment, Ne, toHex32_val_inj]
  have hnullifiers : nullifierOf K c1 i1.secret.ownerSk ≠ nullifierOf K c2 i2.secret.ownerSk ↔
      x.nullifier1 ≠ x.nullifier2 := by
    rw [hopens1.nullifier hc1, hopens2.nullifier hc2, Ne, Int.natCast_inj, ← Fin.ext_iff]
  rw [proved_iff (merge_publicInputs (x := x) hin rfl rfl (hopens1.nullifier hc1)
    (hopens2.nullifier hc2) hmakes.commitment hmakes.owner hroot hnewRoot hindex)]
  constructor
  · rintro ⟨given, hprivate, hsat⟩
    simp only [EngineWitness.privateInputs, except_bind_ok, except_pure_ok, hopens1.noteInput,
      hopens2.noteInput, Except.ok.injEq] at hprivate
    obtain ⟨n1, rfl, sk1, -, m1, -, n2, rfl, sk2, -, m2, -, o, ho, s, -, rfl⟩ := hprivate
    obtain ⟨-, -, -, hne, hne', -, hcreated, -⟩ := Merge.satisfied_iff.mp hsat
    rw [hmakes.witness] at ho
    obtain ⟨hamount, -⟩ := noteInput_ok.mp ho
    refine ⟨(amount_lt_iff hamount).mp hcreated.range, hcoins.mpr hne, ?_⟩
    intro c1' c2' hc1' hc2'
    obtain rfl : c1 = c1' := Except.ok.inj (hc1.symm.trans hc1')
    obtain rfl : c2 = c2' := Except.ok.inj (hc2.symm.trans hc2')
    exact hnullifiers.mpr hne'
  · rintro ⟨hrange, hdistinct, hspends⟩
    have hnonneg : 0 ≤ i1.amount + i2.amount := by
      rw [hopens1.amount, hopens2.amount]
      omega
    have hinput : noteInput output = .ok (reducedNote output) :=
      noteInput_reduced (isElement_of_range hnonneg hrange) hx hy (isElement_blinding replies 0)
    have hamount : i1.amount + i2.amount = (reducedNote output).amount.val :=
      (noteInput_ok.mp hinput).1
    have hranged : created.amount < 2 ^ 64 := (amount_lt_iff hamount).mpr hrange
    have hvalue : coin1.note.amount + coin2.note.amount = (reducedNote output).amount := by
      have htotal : (coin1.note.amount.val : Int) + coin2.note.amount.val =
          (reducedNote output).amount.val := by
        rw [← hopens1.amount, ← hopens2.amount]
        exact hamount
      have hlt1 : coin1.note.amount.val < 2 ^ 64 := by
        have hcreated : (reducedNote output).amount.val < 2 ^ 64 := hranged
        omega
      have hlt2 : coin2.note.amount.val < 2 ^ 64 := by
        have hcreated : (reducedNote output).amount.val < 2 ^ 64 := hranged
        omega
      refine Fin.ext ?_
      rw [val_add_of_range hlt1 hlt2]
      exact_mod_cast htotal
    refine ⟨.merge
      { input1 := coin1.note
        ownerSk1 := secret1
        merkle1 := merkle1
        input2 := coin2.note
        ownerSk2 := secret2
        merkle2 := merkle2
        output := reducedNote output
        insertion := slot }, ?_, ?_⟩
    · simp only [EngineWitness.privateInputs, hopens1.noteInput, hopens1.ownerSk, hopens2.noteInput,
        hopens2.ownerSk, f_val, hmerkle1, hmerkle2, hslotPath, pathInput_values, hmakes.witness]
      rw [hinput]
      rfl
    · exact Merge.satisfied_iff.mpr ⟨header_of_assetIn 5 hin, hspent1,
        by rw [hcoin2] at hspent2 ⊢; exact hspent2, hcoins.mp hdistinct,
        hnullifiers.mp (hspends c1 c2 hc1 hc2), hvalue, ⟨hranged, rfl, rfl⟩, happended⟩

end Operations

/-! ## Shields -/

/-- `shield`, up to `proveShield`. -/
def draftShieldWitness (K : Packages) (replies : ShieldReplies) (base : Int) :
    Async Client EngineWitness := do
  let asset ← await replies.assets
  throwIf (asset.native ∧ base < minShield) "minimum shield is 1 STX"
  throwIf (¬ asset.active) ("asset " ++ asset.symbol ++ " is not shieldable")
  let keys ← await replies.keys
  await replies.connect
  modify fun client => { client with authenticated := true }
  syncTree K replies.toReplies
  let out ← orThrow (newNote K base keys.owner (replies.blinding 0) asset)
  let _ ← fetchCurrentRoot replies
  let { synced, .. } ← get
  let insertion ← orThrow (insertionFor K synced.tree out.note.commitment)
  pure (.shield
    { note := witnessNote out.note
      commitment := out.commitment
      ownerCommitment := out.ownerCommitment
      insertion := insertion
      assetField := out.note.secret.assetField })

/-- The API lists the chain's commitments, what other operations of the client do
meanwhile leaves its tree in order, and keys are derived as for any operation. -/
structure ShieldHonest (K : Packages) (replies : ShieldReplies) (leaves : List Fr) : Prop where
  listing : Listing replies.toReplies leaves
  elsewhere : ∀ synced (listed : List Fr),
    CommitmentTree.Holds K.builtins synced.tree (listed.map encode) →
      ∃ after : List Fr,
        CommitmentTree.Holds K.builtins (replies.elsewhere synced).tree (after.map encode)
  keys : ∀ keys, replies.keys = .returned keys →
    ∃ secret, deriveOwnerKey K.builtins secret = .ok keys.owner

section Shields

variable {leaves : List Fr} {replies : ShieldReplies} {base : Int}

/-- A shield goes on with the proof of what it has drafted. -/
theorem draftShield_of_draft (h : draftShieldWitness K replies base client = (.returned w, mid)) :
    ∃ rest : Statement → Async Client ShieldDraft,
      draftShield K replies base client =
        (prove replies.toReplies w.publicInputs >>= rest) mid := by
  unfold draftShieldWitness fetchCurrentRoot syncTree at h
  simp only [bind_assoc, pure_bind, get_bind, modify_bind, await_bind_returned,
    orThrow_bind_returned, throwIf_bind_returned, pure_apply, Prod.mk.injEq,
    Ending.returned.injEq] at h
  obtain ⟨asset, hasset, hminimum, hactive, keys, hkeys, u, hconnect, commits, hcommits, synced,
    hsynced, out, hout, text, htext, insertion, hinsertion, rfl, rfl⟩ := h
  unfold draftShield fetchCurrentRoot syncTree throwIf
  simp only [hasset, if_neg hminimum, if_neg hactive, hkeys, hconnect, hcommits, hsynced,
    bind_assoc, pure_bind, modify_bind, returned_bind, ok_bind]
  rw [hout]
  simp only [htext, get_bind, modify_bind, returned_bind, ok_bind]
  rw [hinsertion]
  simp only [ok_bind, EngineWitness.publicInputs]
  exact ⟨_, rfl⟩

theorem shield_proved (hhonest : ShieldHonest K replies leaves)
    (h : draftShieldWitness K replies base client = (.returned w, mid)) :
    (∃ statement, proveCircuit K.builtins w = .ok statement) ↔ 0 ≤ base ∧ base < 2 ^ 64 := by
  unfold draftShieldWitness fetchCurrentRoot syncTree at h
  simp only [bind_assoc, pure_bind, get_bind, modify_bind, await_bind_returned,
    orThrow_bind_returned, throwIf_bind_returned, pure_apply, Prod.mk.injEq,
    Ending.returned.injEq] at h
  obtain ⟨asset, -, -, -, keys, hkeys, -, -, commits, hcommits, synced, hsynced, out, hout, text, -,
    insertion, hinsertion, rfl, rfl⟩ := h
  have hfield := newNoteFor_field hout
  obtain ⟨element, hin⟩ := exists_assetIn hfield
  obtain ⟨derived, hderived⟩ := hhonest.keys keys hkeys
  obtain ⟨hx, hy⟩ := isElement_of_derived hderived
  have hmakes := newNoteFor_makes hout hfield hin
  obtain ⟨hmirrors, -⟩ := hhonest.listing.mirrors hcommits hsynced
  obtain ⟨after, hafter⟩ := hhonest.elsewhere synced leaves hmirrors.tree
  rw [hmakes.text, hmakes.commitment] at hinsertion
  obtain ⟨hroom, hslot, hold, hnewRoot, slot, hslotPath, happended⟩ :=
    insertion_path hafter hinsertion
  let output : NoteWitness := ⟨base, keys.owner.pkX, keys.owner.pkY, replies.blinding 0⟩
  let created : Coin := ⟨element, reducedNote output⟩
  let x : Shield.Public :=
    { op := 1
      commitment := created.commitment K.builtins
      ownerCommitment := K.builtins.hash2 created.note.ownerPkX created.note.ownerPkY
      amount := reduce base
      oldRoot := CommitmentTree.naiveRoot K.builtins after
      newRoot := CommitmentTree.naiveRoot K.builtins (after ++ [created.commitment K.builtins])
      leafIndex := Fin.ofNat _ after.length
      circuitVersion := circuitVersion }
  have hindex : (insertion.leafIndex : Int) = x.leafIndex.val := by
    rw [hslot, CommitmentTree.ofNat_val (Nat.le_of_lt hroom)]
  constructor
  · rintro ⟨statement, hproved⟩
    obtain ⟨hpublic, inputs, hprivate, hsat⟩ := proveCircuit_ok.mp hproved
    simp only [EngineWitness.privateInputs, except_bind_ok, except_pure_ok] at hprivate
    obtain ⟨n, hn, s, -, rfl⟩ := hprivate
    simp only [EngineWitness.publicInputs, shieldInputs, except_bind_ok, except_pure_ok] at hpublic
    obtain ⟨e, -, cm, -, oc, -, am, -, old, -, nr, -, li, -, rfl⟩ := hpublic
    obtain ⟨-, -, hcreated, -⟩ := Shield.satisfied_iff.mp hsat
    rw [hmakes.witness] at hn
    exact range_of_amount (noteInput_ok.mp hn).1 hcreated.range
  · rintro ⟨hnonneg, hrange⟩
    have hbase := isElement_of_range hnonneg hrange
    have hinput : noteInput output = .ok (reducedNote output) :=
      noteInput_reduced hbase hx hy (isElement_blinding replies.toReplies 0)
    have hamount : base = (reducedNote output).amount.val := (noteInput_ok.mp hinput).1
    have hranged : created.amount < 2 ^ 64 := (amount_lt_iff hamount).mpr hrange
    have hpassed : (witnessNote out.note).amount = x.amount.val := by
      rw [hmakes.witness]
      exact hamount
    rw [proved_iff (shield_publicInputs (x := x) hin rfl rfl hmakes.commitment hmakes.owner
      hpassed hold hnewRoot hindex)]
    refine ⟨.shield { note := reducedNote output, insertion := slot }, ?_, ?_⟩
    · simp only [EngineWitness.privateInputs, hslotPath, pathInput_values, hmakes.witness]
      rw [hinput]
      rfl
    · exact Shield.satisfied_iff.mpr ⟨header_of_assetIn 1 hin, rfl, ⟨hranged, rfl, rfl⟩,
        happended⟩

end Shields

end StxShield.Sdk
