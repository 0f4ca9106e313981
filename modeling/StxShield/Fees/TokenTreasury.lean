import StxShield.Assets.Directory
import StxShield.Effects.HonestTokens
import StxShield.Security.Pause

/-!
# The SIP-10 treasury's accounts

The pool measures what a transfer of the token changed; the fee contract takes the
token's word.  What it has accounted for is backed by what it holds as long as the
token delivers the fees that it reports as delivered.
-/

namespace StxShield

open Library Exec World PrivacyRegistry

/-! ## Behaviours of tokens -/

/-- The tokens that the pool's guards are written against: they may move less than
they are asked to move, or nothing, and report anything, but they change nothing
besides their own ledger. -/
def OwnLedgers (env : Env) : Prop :=
  ∀ token, token.isProtocol = false → ∀ (execute : Executor) ctx function w value w',
    runProgram execute token ctx (env.code token ctx function) w = .ok (value, w') →
    ∃ ledger : TokenLedger, w' = { w with tokens := Function.update w.tokens token ledger }

/-- What the fee contract holds of a token. -/
def World.feesHeld (w : World) (token : Principal) : Nat :=
  (w.tokens token).balances .sip10ProtocolFees

/-- The token credits the fee contract with every fee in full, debits it by no more
than it pays out, and leaves it its tokens otherwise. -/
structure Delivers (env : Env) (token : Principal) : Prop where
  collected : ∀ (execute : Executor) (ctx : Ctx) amount w value w',
    ctx.txSender ≠ .sip10ProtocolFees →
    runProgram execute token ctx
      (env.code token ctx (.transfer amount ctx.txSender .sip10ProtocolFees)) w = .ok (value, w') →
    w.feesHeld token + amount ≤ w'.feesHeld token
  paid : ∀ (execute : Executor) (ctx : Ctx) amount recipient w value w',
    runProgram execute token ctx
      (env.code token ctx (.transfer amount .sip10ProtocolFees recipient)) w = .ok (value, w') →
    w.feesHeld token ≤ w'.feesHeld token + amount
  kept : ∀ (execute : Executor) (ctx : Ctx) function w value w',
    ctx.txSender ≠ .sip10ProtocolFees →
    runProgram execute token ctx (env.code token ctx function) w = .ok (value, w') →
    w.feesHeld token ≤ w'.feesHeld token

variable {env : Env} {w w' : World} {ctx : Ctx} {id : Nat} {token : Principal}

/-- Code that makes no calls. -/
inductive Program.Quiet : Program → Prop where
  | reply (response : Except Nat Nat) : Program.Quiet (.reply response)
  | inspect {next : World → Program} (hnext : ∀ w, (next w).Quiet) : Program.Quiet (.inspect next)
  | store {write : TokenLedger → TokenLedger} {next : Program} (hnext : next.Quiet) :
      Program.Quiet (.store write next)

/-- Such code changes its own ledger only. -/
theorem Program.Quiet.ownLedger {program : Program} (h : program.Quiet) {execute : Executor}
    {value : Nat} (hrun : runProgram execute token ctx program w = .ok (value, w')) :
    ∃ ledger : TokenLedger, w' = { w with tokens := Function.update w.tokens token ledger } := by
  induction h generalizing w with
  | reply response =>
      cases response with
      | ok reply =>
          obtain ⟨-, rfl⟩ := pure_ok.mp hrun
          exact ⟨w.tokens token, by rw [Function.update_eq_self]⟩
      | error code => exact (fail_ok.mp hrun).elim
  | inspect _ ih =>
      simp only [runProgram, ↓bind_ok, ↓exists_read] at hrun
      exact ih w.visible hrun
  | store _ ih =>
      simp only [runProgram, ↓bind_ok, ↓exists_modify] at hrun
      obtain ⟨ledger, rfl⟩ := ih hrun
      exact ⟨ledger, by rw [Function.update_idem]⟩

theorem ownLedgers_of_quiet (h : ∀ token ctx function, (env.code token ctx function).Quiet) :
    OwnLedgers env := by
  intro token _ execute ctx function w value w' hrun
  exact (h token ctx function).ownLedger hrun

/-- An honest token delivers. -/
theorem HonestToken.delivers (h : HonestToken env token) : Delivers env token where
  collected execute ctx amount w value w' hctx hrun := by
    obtain ⟨-, -, hmoved⟩ := h.transfer _ _ _ _ _ _ _ _ hrun
    have hfees := hmoved .sip10ProtocolFees
    rw [if_neg hctx.symm, if_pos rfl] at hfees
    exact hfees.ge
  paid execute ctx amount recipient w value w' hrun := by
    obtain ⟨-, -, hmoved⟩ := h.transfer _ _ _ _ _ _ _ _ hrun
    have hfees := hmoved .sip10ProtocolFees
    rw [if_pos rfl] at hfees
    exact (Nat.le_add_right _ _).trans hfees.ge
  kept execute ctx function w value w' hctx hrun := by
    obtain ⟨ledger, rfl, hbalances⟩ := h.ownLedger _ _ _ _ _ _ hrun
    simp only [feesHeld, Function.update_self]
    exact hbalances _ hctx.symm

theorem HonestTokens.ownLedgers (h : HonestTokens env) : OwnLedgers env := by
  intro token houtside execute ctx function w value w' hrun
  obtain ⟨ledger, hw', -⟩ := (h token houtside).ownLedger _ _ _ _ _ _ hrun
  exact ⟨ledger, hw'⟩

/-- Calling a token leaves all but its ledger as it was. -/
theorem OwnLedgers.call (hledgers : OwnLedgers env) {execute : Executor} {called : Principal}
    {function : TokenFunction} {value : Nat}
    (h : callToken env execute called ctx function w = .ok (value, w')) :
    ∃ ledger : TokenLedger, w' = { w with tokens := Function.update w.tokens called ledger } := by
  obtain ⟨houtside, hrun⟩ := callToken_ok h
  exact hledgers called houtside _ _ _ _ _ _ hrun

theorem feesHeld_update (w : World) {called : Principal} (hne : token ≠ called)
    (ledger : TokenLedger) :
    { w with tokens := Function.update w.tokens called ledger }.feesHeld token =
      w.feesHeld token :=
  congrArg (fun ledger : TokenLedger => ledger.balances .sip10ProtocolFees)
    (Function.update_of_ne hne _ _)

/-- Whoever is called by someone else than the fee contract leaves it what it has. -/
theorem Delivers.call (hdelivers : Delivers env token) (hledgers : OwnLedgers env)
    {execute : Executor} {called : Principal} {function : TokenFunction} {value : Nat}
    (hctx : ctx.txSender ≠ .sip10ProtocolFees)
    (h : callToken env execute called ctx function w = .ok (value, w')) :
    w.feesHeld token ≤ w'.feesHeld token := by
  by_cases heq : called = token
  · subst heq
    obtain ⟨-, hrun⟩ := callToken_ok h
    exact hdelivers.kept execute (ctx.entering _) function w value w' hctx hrun
  · obtain ⟨ledger, rfl⟩ := hledgers.call h
    rw [feesHeld_update w (Ne.symm heq)]

/-- A fee that is collected arrives. -/
theorem Delivers.collect (hdelivers : Delivers env token) {execute : Executor}
    {amount value : Nat} (hctx : ctx.txSender ≠ .sip10ProtocolFees)
    (h : callToken env execute token (ctx.calledBy .sip10ProtocolFees)
      (.transfer amount ctx.txSender .sip10ProtocolFees) w = .ok (value, w')) :
    w.feesHeld token + amount ≤ w'.feesHeld token := by
  obtain ⟨-, hrun⟩ := callToken_ok h
  exact hdelivers.collected execute ((ctx.calledBy .sip10ProtocolFees).entering _) amount w value
    w' hctx hrun

/-! ## The accounts of one asset -/

/-- Of the assets registered, the one with this id is the one of this token. -/
def AssetRegistry.Names (assets : AssetRegistry) (id : Nat) (token : Principal) : Prop :=
  ∀ other asset, assets.assets.lookup other = some asset → (other = id ↔ asset.token = token)

theorem AssetRegistry.Directory.names {assets : AssetRegistry} (h : AssetRegistry.Directory assets)
    {asset : Asset} (hasset : assets.assets.lookup id = some asset) :
    assets.Names id asset.token := by
  intro other found hfound
  have hid := (h.inverse id asset.token).mp ⟨asset, hasset, rfl⟩
  constructor
  · rintro rfl
    rw [Option.some.inj (hfound.symm.trans hasset)]
  · intro htoken
    have hother := (h.inverse other asset.token).mp ⟨found, hfound, htoken⟩
    exact Option.some.inj (hother.symm.trans hid)

theorem AssetRegistry.Names.of_extends {earlier later : AssetRegistry}
    (h : later.Names id token) (hextends : AssetRegistry.Extends earlier later) :
    earlier.Names id token := by
  intro other asset hasset
  obtain ⟨asset', hasset', htoken, -⟩ := hextends.assets other asset hasset
  rw [← htoken]
  exact h other asset' hasset'

open Sip10ProtocolFees in
/-- The counters of the asset agree with each other, and the balance is covered. -/
structure Backed (id : Nat) (token : Principal) (w : World) : Prop where
  balanced : (getAssetTreasury w.sip10ProtocolFees id).balance +
      (getAssetTreasury w.sip10ProtocolFees id).totalWithdrawn =
    (getAssetTreasury w.sip10ProtocolFees id).totalCollected
  counted : (getAssetTreasury w.sip10ProtocolFees id).totalCollected < uintBound
  covered : (getAssetTreasury w.sip10ProtocolFees id).balance ≤ w.feesHeld token

theorem Backed.of_treasury {treasury : Treasury}
    (h : Sip10ProtocolFees.getAssetTreasury w.sip10ProtocolFees id = treasury)
    (hbalanced : treasury.balance + treasury.totalWithdrawn = treasury.totalCollected)
    (hcounted : treasury.totalCollected < uintBound)
    (hcovered : treasury.balance ≤ w.feesHeld token) : Backed id token w := by
  subst h
  exact ⟨hbalanced, hcounted, hcovered⟩

theorem Backed.of_eq (h : Backed id token w)
    (htreasury : Sip10ProtocolFees.getAssetTreasury w'.sip10ProtocolFees id =
      Sip10ProtocolFees.getAssetTreasury w.sip10ProtocolFees id)
    (hheld : w.feesHeld token ≤ w'.feesHeld token) : Backed id token w' :=
  .of_treasury htreasury h.balanced h.counted (h.covered.trans hheld)

theorem backed_deployed (deployer : Principal) (stx : Principal → Nat)
    (tokens : Principal → TokenLedger) (id : Nat) (token : Principal) :
    Backed id token (World.deployed deployer stx tokens) :=
  ⟨rfl, Nat.two_pow_pos 128, Nat.zero_le _⟩

/-- While the id is the token's, its accounts stay backed. -/
structure KeepsBacked (id : Nat) (token : Principal) (w w' : World) : Prop where
  directory : KeepsDirectory w w'
  backed : AssetRegistry.Directory w.assetRegistry → w'.assetRegistry.Names id token →
    Backed id token w → Backed id token w'

/-- What leaves the assets and their accounts alone. -/
theorem keepsBacked_of_eq (hassets : w'.assetRegistry = w.assetRegistry)
    (hfees : w'.sip10ProtocolFees.assetTreasury = w.sip10ProtocolFees.assetTreasury)
    (hheld : w.feesHeld token ≤ w'.feesHeld token) : KeepsBacked id token w w' where
  directory := keepsDirectory_of_eq hassets
  backed _ _ h :=
    h.of_eq (by rw [Sip10ProtocolFees.getAssetTreasury, hfees, Sip10ProtocolFees.getAssetTreasury])
      hheld

theorem keepsBacked_composes (id : Nat) (token : Principal) : Composes (KeepsBacked id token) where
  refl _ := keepsBacked_of_eq rfl rfl (Nat.le_refl _)
  trans huv hvw := by
    refine ⟨keepsDirectory_trans huv.directory hvw.directory, fun hdir hnames hbacked => ?_⟩
    obtain ⟨hmid, -⟩ := huv.directory hdir
    obtain ⟨-, hextends⟩ := hvw.directory hmid
    exact hvw.backed hmid hnames (huv.backed hdir (hnames.of_extends hextends) hbacked)

theorem Writes.keepsBacked {call : StxShield.Call} (h : Writes call w w')
    (hfees : w'.sip10ProtocolFees = w.sip10ProtocolFees) : KeepsBacked id token w w' := by
  refine ⟨keepsDirectory_kept.writes h, fun _ _ hbacked => hbacked.of_eq (by rw [hfees]) ?_⟩
  cases h with
  | noteManager hrun =>
      obtain ⟨registry, manager, rfl, -⟩ := NoteManager.execute_frame hrun
      exact Nat.le_refl _
  | _ => exact Nat.le_refl _

theorem RegistersAsset.keepsBacked {args : RegisterAssetArgs} (h : RegistersAsset args w w') :
    KeepsBacked id token w w' := by
  refine ⟨h.keepsDirectory, fun _ _ hbacked => ?_⟩
  rw [h.written]
  exact hbacked.of_eq rfl (Nat.le_refl _)

/-! ## Collecting and paying out -/

namespace Sip10ProtocolFees

variable {execute : Executor} {feeType amount : Nat}

theorem getAssetTreasury_insert {fees fees' : Sip10ProtocolFees} {assetId : Nat}
    {treasury : Treasury} (h : fees'.assetTreasury = fees.assetTreasury.insert assetId treasury)
    (id : Nat) :
    getAssetTreasury fees' id = if id = assetId then treasury else getAssetTreasury fees id := by
  unfold getAssetTreasury
  rw [h, DataMap.lookup_insert_eq]
  split <;> rfl

theorem debited_balance {balance withdrawn amount : Nat} (h : amount ≤ balance) :
    balance - amount + (withdrawn + amount) = balance + withdrawn := by
  omega

/-- An entry is written after the token of its asset was called. -/
theorem posted_keepsBacked {assetId : Nat} {asset : Asset} {fees : Sip10ProtocolFees}
    {treasury : Treasury} {ledger : TokenLedger}
    (hasset : w.assetRegistry.assets.lookup assetId = some asset)
    (hw' : w' =
      { w with
        tokens := Function.update w.tokens asset.token ledger, sip10ProtocolFees := fees })
    (hfees : fees.assetTreasury = w.sip10ProtocolFees.assetTreasury.insert assetId treasury)
    (hposted : asset.token = token → Backed assetId token w →
      treasury.balance + treasury.totalWithdrawn = treasury.totalCollected ∧
        treasury.totalCollected < uintBound ∧ treasury.balance ≤ w'.feesHeld token) :
    KeepsBacked id token w w' := by
  have hassets : w'.assetRegistry = w.assetRegistry := by rw [hw']
  have htreasury : getAssetTreasury w'.sip10ProtocolFees id =
      if id = assetId then treasury else getAssetTreasury w.sip10ProtocolFees id := by
    rw [hw']
    exact getAssetTreasury_insert hfees id
  refine ⟨keepsDirectory_of_eq hassets, fun _ hnames hbacked => ?_⟩
  have hnamed := hnames assetId asset (hassets ▸ hasset)
  by_cases heq : id = assetId
  · subst heq
    obtain ⟨hbalanced, hcounted, hcovered⟩ := hposted (hnamed.mp rfl) hbacked
    exact .of_treasury (htreasury.trans (if_pos rfl)) hbalanced hcounted hcovered
  · have hne : token ≠ asset.token := fun htoken => heq (hnamed.mpr htoken.symm).symm
    refine hbacked.of_eq (htreasury.trans (if_neg heq)) ?_
    rw [hw']
    exact (feesHeld_update w hne ledger).ge

theorem collectFee_keepsBacked (hledgers : OwnLedgers env) (hdelivers : Delivers env token)
    (hctx : ctx.txSender ≠ .sip10ProtocolFees) (assetId feeType amount : Nat)
    (called : Principal) :
    Respects (KeepsBacked id token)
      (collectFee (callToken env execute) ctx assetId feeType amount called) := by
  intro w value w' h
  unfold collectFee at h
  simp only [↓bind_ok, ↓exists_read, ↓exists_onRegistry, ↓exists_checkActive, ↓exists_require,
    ↓exists_unwrap, ↓orError_ok, ↓exists_addUint, onSip10ProtocolFees_ok, modify_ok, pure_ok] at h
  obtain ⟨asset, hasset, -, -, -, -, -, rfl, _, mid, hasked, hcounted, -, -, _, _, ⟨_, rfl, rfl⟩,
    -, rfl⟩ := h
  have hcredited (htoken : asset.token = token) :
      w.feesHeld token + amount ≤ mid.feesHeld token := by
    rw [htoken] at hasked
    exact hdelivers.collect hctx hasked
  obtain ⟨ledger, rfl⟩ := hledgers.call hasked
  refine posted_keepsBacked hasset rfl rfl fun htoken hbacked => ⟨?_, hcounted, ?_⟩
  · exact (Nat.add_right_comm _ _ _).trans (congrArg (· + amount) hbacked.balanced)
  · exact (Nat.add_le_add_right hbacked.covered amount).trans (hcredited htoken)

theorem withdrawFees_keepsBacked (hledgers : OwnLedgers env) (hdelivers : Delivers env token)
    (assetId amount : Nat) (called : Principal) :
    Respects (KeepsBacked id token)
      (withdrawFees (callToken env execute) ctx assetId amount called) := by
  intro w value w' h
  unfold withdrawFees at h
  simp only [↓bind_ok, ↓exists_read, ↓exists_require, ↓exists_unwrap, ↓orError_ok,
    ↓exists_addUint, ↓exists_subUint, onSip10ProtocolFees_ok, modify_ok] at h
  obtain ⟨asset, hasset, -, -, -, rfl, hle, _, mid, hasked, -, -, _, rfl, rfl⟩ := h
  have hdebited (htoken : asset.token = token) :
      w.feesHeld token ≤ mid.feesHeld token + amount := by
    rw [htoken] at hasked
    exact hdelivers.paid _ _ _ _ _ _ _ (callToken_ok hasked).2
  obtain ⟨ledger, rfl⟩ := hledgers.call hasked
  refine posted_keepsBacked hasset rfl rfl fun htoken hbacked => ⟨?_, hbacked.counted, ?_⟩
  · exact (debited_balance hle).trans hbacked.balanced
  · exact Nat.sub_le_of_le_add (hbacked.covered.trans (hdebited htoken))

theorem execute_keepsBacked (hledgers : OwnLedgers env) (hdelivers : Delivers env token)
    (hctx : ctx.txSender ≠ .sip10ProtocolFees) (feeCall : Sip10ProtocolFees.Call) :
    Respects (KeepsBacked id token)
      (Sip10ProtocolFees.execute (callToken env execute) ctx feeCall) := by
  have hrel := keepsBacked_composes id token
  have hfrozen {m : Exec Sip10ProtocolFees Unit} (hm : Keeps Sip10ProtocolFees.assetTreasury m) :
      Respects (KeepsBacked id token) (onSip10ProtocolFees m) := by
    intro w value w' h
    obtain ⟨storage, hrun, rfl⟩ := onSip10ProtocolFees_ok.mp h
    exact keepsBacked_of_eq rfl (hm _ _ _ hrun) (Nat.le_refl _)
  refine hrel.bind hrel.read fun w => ?_
  cases feeCall with
  | collectFee assetId feeType amount called =>
      exact hrel.bind (collectFee_keepsBacked hledgers hdelivers hctx _ _ _ _) fun _ => hrel.pure _
  | withdrawFees assetId amount called =>
      exact withdrawFees_keepsBacked hledgers hdelivers _ _ _
  | freezeFees =>
      exact hfrozen (keeps_bind keeps_read fun _ => keeps_bind keeps_require fun _ =>
        keeps_bind keeps_require fun _ => keeps_modify fun _ => rfl)
  | unfreezeFees =>
      exact hfrozen (keeps_bind keeps_read fun _ => keeps_bind keeps_require fun _ =>
        keeps_bind keeps_require fun _ => keeps_modify fun _ => rfl)
  | freezeTreasury =>
      exact hfrozen (keeps_bind keeps_read fun _ => keeps_bind keeps_require fun _ =>
        keeps_bind keeps_require fun _ => keeps_modify fun _ => rfl)
  | unfreezeTreasury =>
      exact hfrozen (keeps_bind keeps_read fun _ => keeps_bind keeps_require fun _ =>
        keeps_bind keeps_require fun _ => keeps_modify fun _ => rfl)

end Sip10ProtocolFees

/-! ## Runs -/

theorem keepsBacked_walks (hledgers : OwnLedgers env) (hdelivers : Delivers env token)
    (call : StxShield.Call) (id : Nat) (execute : Executor) :
    Walks call (KeepsBacked id token) (fun ctx => ctx.txSender ≠ .sip10ProtocolFees)
      (callToken env execute) where
  toComposes := keepsBacked_composes id token
  writes h hfees := h.keepsBacked hfees
  calledBy _ hctx := hctx
  entering _ hctx := hctx
  asPool _ := (by decide : Principal.sip10Pool ≠ .sip10ProtocolFees)
  asked called ctx function hctx w value w' h := by
    have hheld := hdelivers.call hledgers hctx h
    obtain ⟨ledger, rfl⟩ := hledgers.call h
    exact keepsBacked_of_eq rfl rfl hheld
  collects hctx := Sip10ProtocolFees.collectFee_keepsBacked hledgers hdelivers hctx
  administers hctx := Sip10ProtocolFees.execute_keepsBacked hledgers hdelivers hctx

/-- Calls that are not made in the fee contract's name. -/
def NotFromFees (ctx : Ctx) : Prop := StxSafe ctx ∧ ctx.txSender ≠ .sip10ProtocolFees

theorem Ctx.TopLevel.notFromFees (hctx : ctx.TopLevel) : NotFromFees ctx :=
  ⟨hctx.stxSafe, ne_of_isProtocol hctx.sender rfl⟩

theorem exec_keepsBacked (hledgers : OwnLedgers env) (hdelivers : Delivers env token) (id : Nat)
    (depth : Nat) : CallsRespect NotFromFees (KeepsBacked id token) (exec env depth) := by
  have hrel := keepsBacked_composes id token
  intro ctx call hctx _ w data w' h
  cases depth with
  | zero => cases h
  | succ depth =>
      have hwalks := keepsBacked_walks hledgers hdelivers call id (exec env depth)
      cases execCall_walks hwalks hctx.2 hctx.1 h with
      | covered hmid => exact hrel.trans hmid (keepsBacked_of_eq rfl rfl (Nat.le_refl _))
      | registerAsset _ hmid hregisters =>
          exact hrel.trans (hrel.trans hmid hregisters.keepsBacked)
            (keepsBacked_of_eq rfl rfl (Nat.le_refl _))

theorem Continues.keepsBacked (hledgers : OwnLedgers env) (hdelivers : Delivers env token)
    (h : Continues env w w') (id : Nat) : KeepsBacked id token w w' := by
  have hrel := keepsBacked_composes id token
  induction h with
  | refl => exact hrel.refl w
  | tail _ hstep ih =>
      obtain ⟨ctx, hctx, depth, call, rfl⟩ := hstep
      exact hrel.trans ih (transact_respects Ctx.TopLevel.notFromFees hrel.refl
        (exec_keepsBacked hledgers hdelivers id depth) hctx call _)

theorem Reachable.backed (hledgers : OwnLedgers env) (hreach : Reachable env w) {asset : Asset}
    (hasset : w.assetRegistry.assets.lookup id = some asset)
    (hdelivers : Delivers env asset.token) :
    Backed id asset.token w := by
  obtain ⟨deployer, stx, tokens, hrun⟩ := hreach.exists_deployed
  exact (hrun.keepsBacked hledgers hdelivers id).backed AssetRegistry.directory_deployed
    (hreach.directory.names hasset) (backed_deployed _ _ _ _ _)

/-! ## The treasury pays -/

namespace Sip10ProtocolFees

/-- Nothing but a freeze and the token can keep what is accounted for from the owner. -/
theorem withdrawFees_pays {tokens : TokenCode} {asset : Asset} {amount value : Nat}
    (hbacked : Backed id asset.token w) (hasset : w.assetRegistry.assets.lookup id = some asset)
    (howner : w.registry.isOwner ctx.contractCaller)
    (hfrozen : w.sip10ProtocolFees.treasuryFrozen = false) (hpositive : 0 < amount)
    (hamount : amount ≤ (getAssetTreasury w.sip10ProtocolFees id).balance)
    (hpays : tokens asset.token (ctx.asContract .sip10ProtocolFees)
      (.transfer amount .sip10ProtocolFees asset.feeRecipient) w = .ok (value, w')) :
    ∃ last, withdrawFees tokens ctx id amount asset.token w = .ok ((), last) := by
  have hbalanced := hbacked.balanced
  have hcounted := hbacked.counted
  have hwithdrawn : (getAssetTreasury w.sip10ProtocolFees id).totalWithdrawn + amount <
      uintBound := by omega
  unfold withdrawFees
  simp only [↓bind_ok, ↓exists_read, ↓exists_require, ↓exists_unwrap, ↓orError_ok,
    ↓exists_addUint, ↓exists_subUint, onSip10ProtocolFees_ok, modify_ok]
  exact ⟨_, asset, hasset, howner, hfrozen, hpositive, rfl, hamount, value, w', hpays, hwithdrawn,
    hamount, _, rfl, rfl⟩

end Sip10ProtocolFees

open Sip10ProtocolFees in
/-- In every reachable state, when tokens change nothing but their own ledgers: of a
token that delivers its fees the fee contract holds at least what it has accounted
for, and the owner can withdraw all of that, if the treasury is not frozen, as soon
as the token makes the transfer. -/
theorem token_treasury_backed (hledgers : OwnLedgers env) (hreach : Reachable env w) {asset : Asset}
    (hasset : w.assetRegistry.assets.lookup id = some asset)
    (hdelivers : Delivers env asset.token) :
    (getAssetTreasury w.sip10ProtocolFees id).balance ≤
        (w.tokens asset.token).balances .sip10ProtocolFees ∧
      ∀ (tokens : TokenCode) (ctx : Ctx) (amount value : Nat) (w' : World),
        w.registry.isOwner ctx.contractCaller → w.sip10ProtocolFees.treasuryFrozen = false →
        0 < amount → amount ≤ (getAssetTreasury w.sip10ProtocolFees id).balance →
        tokens asset.token (ctx.asContract .sip10ProtocolFees)
          (.transfer amount .sip10ProtocolFees asset.feeRecipient) w = .ok (value, w') →
        ∃ last, withdrawFees tokens ctx id amount asset.token w = .ok ((), last) := by
  have hbacked := hreach.backed hledgers hasset hdelivers
  refine ⟨hbacked.covered, ?_⟩
  intro tokens ctx amount value w' howner hfrozen hpositive hamount hpays
  exact withdrawFees_pays hbacked hasset howner hfrozen hpositive hamount hpays

namespace Sample

/-- A token that keeps a unit of every transfer, deposits in the pool excepted. -/
def tollCode (self : Principal) (ctx : Ctx) : TokenFunction → Program
  | .transfer amount sender recipient =>
      .inspect fun w =>
        if sender = ctx.txSender ∧ sender ≠ recipient ∧
            amount ≤ (w.tokens self).balances sender then
          .store (fun ledger =>
              { ledger with
                balances := moved (moved ledger.balances amount sender recipient)
                  (if recipient = .sip10Pool then 0 else 1) recipient self })
            (.reply (.ok 1))
        else .reply (.error 1)
  | .getBalance who => .inspect fun w => .reply (.ok ((w.tokens self).balances who))
  | .getDecimals => .reply (.ok 6)
  | .other _ => .reply (.ok 0)

def tollEnv : Env where
  primitives := primitives
  code := tollCode

theorem tollEnv_ownLedgers : OwnLedgers tollEnv := by
  refine ownLedgers_of_quiet fun token ctx function => ?_
  cases function with
  | transfer amount sender recipient =>
      refine .inspect fun w => ?_
      split
      · exact .store (.reply _)
      · exact .reply _
  | getBalance who => exact .inspect fun w => .reply _
  | getDecimals => exact .reply _
  | other selector => exact .reply _

/-- The fee contract has no tokens yet. -/
def feeless : World :=
  World.deployed owner (fun _ => 10000000) fun _ =>
    { balances := fun who => if who = .sip10ProtocolFees then 0 else 1000, memory := 0 }

/-- Tokens have been shielded, for a fee of five. -/
def feePaid (env : Env) : World :=
  transact env 2 (sentBy alice) callShieldTokenFirst
    (transactAll env 1 (sentBy owner)
      (setup ++ [.assetRegistry (.setAssetFeeConfig 1 feeTypeShield 0 5 true)]) feeless)

theorem feePaid_reachable (env : Env) : Reachable env (feePaid env) :=
  ((Reachable.deployed rfl _ _).transactAll owner_topLevel 1 _).transact alice_topLevel 2 _

/-- The owner asks for all five. -/
def withdrawFive : Call := .sip10ProtocolFees (.withdrawFees 1 5 Sample.token)

end Sample

/-- An honest token has delivered the fee, and the owner withdraws it. -/
theorem token_treasury_backed_feePaid :
    5 ≤ ((Sample.feePaid Sample.honestEnv).tokens Sample.token).balances .sip10ProtocolFees ∧
      ∃ last, Sip10ProtocolFees.withdrawFees
        (callToken Sample.honestEnv (exec Sample.honestEnv 0)) (Sample.sentBy Sample.owner) 1 5
        Sample.token (Sample.feePaid Sample.honestEnv) = .ok ((), last) := by
  have hasset : ((Sample.feePaid Sample.honestEnv).assetRegistry.assets.lookup 1).map (fun asset =>
      (asset.token, asset.feeRecipient)) = some (Sample.token, Sample.owner) := by decide +kernel
  have hbalance : (Sip10ProtocolFees.getAssetTreasury
      (Sample.feePaid Sample.honestEnv).sip10ProtocolFees 1).balance = 5 := by decide +kernel
  have hpays : (callToken Sample.honestEnv (exec Sample.honestEnv 0) Sample.token
      ((Sample.sentBy Sample.owner).asContract .sip10ProtocolFees)
      (.transfer 5 .sip10ProtocolFees Sample.owner) (Sample.feePaid Sample.honestEnv)).isOk := by
    decide +kernel
  have howner : (Sample.feePaid Sample.honestEnv).registry.isOwner Sample.owner := by decide +kernel
  have hfrozen : (Sample.feePaid Sample.honestEnv).sip10ProtocolFees.treasuryFrozen = false := by
    decide +kernel
  have hreach := Sample.feePaid_reachable Sample.honestEnv
  generalize Sample.feePaid Sample.honestEnv = w at *
  obtain ⟨asset, hfound, hdata⟩ := Option.map_eq_some_iff.mp hasset
  obtain ⟨htoken, hrecipient⟩ := Prod.mk.inj hdata
  have hdelivers : Delivers Sample.honestEnv asset.token := by
    rw [htoken]
    exact (Sample.honestTokens Sample.token rfl).delivers
  obtain ⟨hcovered, hwithdraws⟩ :=
    token_treasury_backed Sample.honestTokens.ownLedgers hreach hfound hdelivers
  rw [hbalance, htoken] at hcovered
  refine ⟨hcovered, ?_⟩
  cases hrun : callToken Sample.honestEnv (exec Sample.honestEnv 0) Sample.token
      ((Sample.sentBy Sample.owner).asContract .sip10ProtocolFees)
      (.transfer 5 .sip10ProtocolFees Sample.owner) w with
  | error fault =>
      rw [hrun] at hpays
      cases hpays
  | ok result =>
      rw [htoken, hrecipient, hbalance] at hwithdraws
      exact hwithdraws _ _ 5 result.1 result.2 howner hfrozen (by decide) (Nat.le_refl 5) hrun

/-- A token that keeps a unit of the fee leaves the fee contract with four, and the
five that are accounted for cannot be withdrawn. -/
theorem token_treasury_short :
    (¬ ∀ env : Env, OwnLedgers env → ∀ w, Reachable env w → ∀ id asset,
      w.assetRegistry.assets.lookup id = some asset →
      (Sip10ProtocolFees.getAssetTreasury w.sip10ProtocolFees id).balance ≤
        (w.tokens asset.token).balances .sip10ProtocolFees) ∧
    (exec Sample.tollEnv 1 (Sample.sentBy Sample.owner) Sample.withdrawFive
      (Sample.feePaid Sample.tollEnv)).isOk = false := by
  refine ⟨fun halways => ?_, by decide +kernel⟩
  have hasset : ((Sample.feePaid Sample.tollEnv).assetRegistry.assets.lookup 1).map Asset.token =
      some Sample.token := by decide +kernel
  obtain ⟨asset, hfound, htoken⟩ := Option.map_eq_some_iff.mp hasset
  have hle := halways _ Sample.tollEnv_ownLedgers _ (Sample.feePaid_reachable Sample.tollEnv) 1 asset
    hfound
  rw [htoken] at hle
  revert hle
  decide +kernel

end StxShield
