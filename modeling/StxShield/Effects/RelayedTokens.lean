import StxShield.Effects.HonestTokens
import StxShield.Effects.Relayed

/-!
# Tokens submitted twice

The SIP-10 operations call a token before they register their notes, and while
they pay out.  Two sides stay together through these calls if nothing differs
between them, or if the token is honest: then the accounts that submit may
differ, and what the protocol holds of the token is the same.
-/

namespace StxShield

open Library Exec World

/-! ## Calls of a token -/

/-- Two sides that a token's calls keep together.  `Same` relates the states, and
`Caller` the contexts that the token is called in. -/
structure Matched (loose : Set Principal) (Same : World → World → Prop)
    (Caller : Ctx → Ctx → Prop) (tokens tokens' : TokenCode) (token : Principal) : Prop where
  alike : ∀ {s t}, Same s t → Alike loose unlabelled s t
  registry : ∀ {α : Type} (m : Exec PrivacyRegistry α),
    Lockstep Same (onRegistry m) (onRegistry m) Same
  sip10ZkVerifier : ∀ {α : Type} {m m' : Exec Sip10Verifier α}, Lockstep Eq m m' Eq →
    Lockstep Same (onSip10ZkVerifier m) (onSip10ZkVerifier m') Same
  sip10ProtocolFees : ∀ {α : Type} (m : Exec Sip10ProtocolFees α),
    Lockstep Same (onSip10ProtocolFees m) (onSip10ProtocolFees m) Same
  sip10Pool : ∀ {α : Type} (m : Exec Sip10Pool α),
    Lockstep Same (onSip10Pool m) (onSip10Pool m) Same
  record : ∀ event, Lockstep Same (record event) (record event) Same
  height : ∀ {c c'}, Caller c c' → c.height = c'.height
  entering : ∀ {c c'}, Caller c c' → ∀ function, Caller (c.entering function) (c'.entering function)
  calledBy : ∀ {c c'}, Caller c c' → ∀ contract, Caller (c.calledBy contract) (c'.calledBy contract)
  asContract : ∀ {c c'}, Caller c c' → ∀ contract,
    Caller (c.asContract contract) (c'.asContract contract)
  getBalance : ∀ {c c'}, Caller c c' → ∀ {who : Principal}, who.isProtocol = true →
    Lockstep Same (tokens token c (.getBalance who)) (tokens' token c' (.getBalance who)) Same
  /-- What a token returns for a transfer is dropped. -/
  transfer : ∀ {c c'}, Caller c c' → ∀ {amount : Nat} {recipient : Principal} s t, Same s t →
    ∀ a s' b t', tokens token c (.transfer amount c.txSender recipient) s = .ok (a, s') →
      tokens' token c' (.transfer amount c'.txSender recipient) t = .ok (b, t') → Same s' t'

/-- Nothing differs, so that the token may do as it likes. -/
theorem matched_same (loose : Set Principal) (tokens : TokenCode) (token : Principal) :
    Matched loose Eq Eq tokens tokens token where
  alike hst := hst ▸ alike_refl loose _
  registry _ := .refl _
  sip10ZkVerifier hm := .zoom_both hm (fun _ _ h => h ▸ rfl) fun _ _ _ h => h ▸ rfl
  sip10ProtocolFees _ := .refl _
  sip10Pool _ := .refl _
  record _ := .refl _
  height hc := hc ▸ rfl
  entering hc _ := hc ▸ rfl
  calledBy hc _ := hc ▸ rfl
  asContract hc _ := hc ▸ rfl
  getBalance hc _ _ := hc ▸ .refl _
  transfer := by
    rintro c _ rfl amount recipient s _ rfl a s' b t' h h'
    cases h.symm.trans h'
    rfl

/-- Contexts at one height, whose transaction senders are the same or both outside
the protocol. -/
def SameSide (c c' : Ctx) : Prop := SameSource c.txSender c'.txSender ∧ c.height = c'.height

section Honest

variable {env : Env} {execute execute' : Executor} {loose : Set Principal} {given : Labels}
  {token : Principal} {c c' : Ctx} {s t s' t' : World}

/-- A call of an honest token on both sides, after which the protocol holds the same. -/
theorem Alike.ledgerCalls (h : Alike loose given s t) (hloose : token ∈ loose)
    {txSender txSender' : Principal} (hcall : LedgerCall token txSender s s')
    (hcall' : LedgerCall token txSender' t t')
    (hheld : ∀ who, who.isProtocol = true →
      (s'.tokens token).balances who = (t'.tokens token).balances who) :
    Alike loose given s' t' := by
  have htokens : ∀ other, other ∉ loose → s'.tokens other = t'.tokens other := by
    intro other hother
    have hne : other ≠ token := fun hsame => hother (hsame ▸ hloose)
    rw [hcall.other hne, hcall'.other hne]
    exact h.tokens other hother
  have hall : ∀ other who, who.isProtocol = true →
      (s'.tokens other).balances who = (t'.tokens other).balances who := by
    intro other who hwho
    by_cases hsame : other = token
    · subst hsame
      exact hheld who hwho
    · rw [hcall.other hsame, hcall'.other hsame]
      exact h.held other who hwho
  rw [hcall.eq_of_tokens, hcall'.eq_of_tokens]
  exact { h with tokens := htokens, held := hall }

theorem alike_getBalance (hhonest : HonestToken env token) (hloose : token ∈ loose)
    {who : Principal} (hwho : who.isProtocol = true) :
    Lockstep (Alike loose given) (callToken env execute token c (.getBalance who))
      (callToken env execute' token c' (.getBalance who)) (Alike loose given) := by
  intro s t hst a s' b t' h h'
  obtain ⟨rfl, hsame⟩ := hhonest.reported h
  obtain ⟨rfl, hsame'⟩ := hhonest.reported h'
  refine ⟨hst.held token who hwho, hst.ledgerCalls hloose (hhonest.call h) (hhonest.call h') ?_⟩
  intro other hother
  rw [hsame, hsame']
  exact hst.held token other hother

/-- An honest token moves what it is asked to move, so that the protocol's part is
the same whoever else sends or receives. -/
theorem alike_tokenTransfer (hhonest : HonestToken env token) (hloose : token ∈ loose)
    (hside : SameSide c c') {amount : Nat} {recipient : Principal} (hst : Alike loose given s t)
    {a b : Nat}
    (h : callToken env execute token c (.transfer amount c.txSender recipient) s = .ok (a, s'))
    (h' : callToken env execute' token c' (.transfer amount c'.txSender recipient) t =
      .ok (b, t')) :
    Alike loose given s' t' := by
  obtain ⟨-, -, hmoved⟩ := hhonest.transferred h
  obtain ⟨-, -, hmoved'⟩ := hhonest.transferred h'
  refine hst.ledgerCalls hloose (hhonest.call h) (hhonest.call h') fun who hwho => ?_
  have hsender : (who = c.txSender) = (who = c'.txSender) := by
    rcases hside.1 with hsame | ⟨houtside, houtside'⟩
    · rw [hsame]
    · have hne : who ≠ c.txSender := by
        rintro rfl
        cases houtside.symm.trans hwho
      have hne' : who ≠ c'.txSender := by
        rintro rfl
        cases houtside'.symm.trans hwho
      simp only [hne, hne']
  have hbefore := hst.held token who hwho
  have hafter := hmoved who
  have hafter' := hmoved' who
  simp only [hsender] at hafter
  omega

/-- The code of an honest token does not tell the sides apart. -/
theorem matched_honest (hhonest : HonestToken env token) (hloose : token ∈ loose)
    (execute execute' : Executor) :
    Matched loose (Alike loose unlabelled) SameSide (callToken env execute)
      (callToken env execute') token where
  alike hst := hst
  registry _ := alike_onRegistry rfl
  sip10ZkVerifier hm :=
    .zoom_both hm (fun _ _ h => h.sip10ZkVerifier) fun _ _ _ h => { h with sip10ZkVerifier := rfl }
  sip10ProtocolFees m :=
    .zoom_both (.refl m) (fun _ _ h => h.sip10ProtocolFees)
      fun _ _ _ h => { h with sip10ProtocolFees := rfl }
  sip10Pool m :=
    .zoom_both (.refl m) (fun _ _ h => h.sip10Pool) fun _ _ _ h => { h with sip10Pool := rfl }
  record _ := alike_record
  height hside := hside.2
  entering hside _ := hside
  calledBy hside _ := hside
  asContract hside _ := ⟨.inl rfl, hside.2⟩
  getBalance _ _ hwho := alike_getBalance hhonest hloose hwho
  transfer hside _ _ _ _ hst _ _ _ _ h h' := alike_tokenTransfer hhonest hloose hside hst h h'

end Honest

/-! ## Pieces -/

section Pieces

variable {loose : Set Principal} {Same : World → World → Prop} {Caller : Ctx → Ctx → Prop}
  {tokens tokens' : TokenCode} {token : Principal} {c c' : Ctx} {P : Primitives}

theorem lockstep_within {α : Type} {pre post : World → World → Prop} {function : FunctionId}
    {body body' : Ctx → Exec World α}
    (h : Lockstep pre (body (c.entering function)) (body' (c'.entering function)) post) :
    Lockstep pre (within c function body) (within c' function body') post := by
  intro s t hst a s' b t' hrun hrun'
  exact h s t hst a s' b t' (within_ok.mp hrun).2 (within_ok.mp hrun').2

namespace Matched

variable (h : Matched loose Same Caller tokens tokens' token)
include h

theorem ofAlike {α : Type} {m m' : Exec World α} {post : World → World → Prop}
    (hm : Lockstep (Alike loose unlabelled) m m' post) : Lockstep Same m m' post :=
  hm.weaken (fun _ _ hst => h.alike hst) fun _ _ hend => hend

omit h in
theorem checkCurrentRoot {declared : Buff32} {errStaleRoot errUnknownRoot : Nat} :
    Lockstep Same (PoolCalls.checkCurrentRoot declared errStaleRoot errUnknownRoot)
      (PoolCalls.checkCurrentRoot declared errStaleRoot errUnknownRoot) Same :=
  .read_bind fun _ _ _ => .require_bind fun _ _ => .require_both

theorem calculateFee {assetUid feeType amount : Nat} :
    Lockstep Same (Sip10ProtocolFees.calculateFee assetUid feeType amount)
      (Sip10ProtocolFees.calculateFee assetUid feeType amount) Same := by
  refine .read_bind fun s t hst => ?_
  rw [(h.alike hst).registry, (h.alike hst).assetRegistry]
  refine .unwrap_bind fun config config' hconfig hconfig' => ?_
  obtain rfl := Option.some.inj (hconfig.symm.trans hconfig')
  exact .ite_same (.bind .mulUint_same fun _ => .addUint_same) .pure_same

theorem checkSpendable {op : Nat} :
    Lockstep Same (Sip10Pool.checkSpendable token op) (Sip10Pool.checkSpendable token op) Same := by
  refine .read_bind fun s t hst => ?_
  rw [(h.alike hst).assetRegistry]
  refine .unwrap_bind fun assetUid assetUid' hasset hasset' => ?_
  obtain rfl := Option.some.inj (hasset.symm.trans hasset')
  exact .bind (h.registry _) fun _ => .require_bind fun _ _ => .require_bind fun _ _ => .pure_same

theorem verifyProof (hcaller : Caller c c') {proofType circuitVersion : Nat}
    {publicInputsHash : Buff32} {inclusion inclusion' : Inclusion} :
    Lockstep Same
      (Sip10ZkVerifier.verifyProof P (c.calledBy .sip10Pool) proofType circuitVersion
        publicInputsHash inclusion)
      (Sip10ZkVerifier.verifyProof P (c'.calledBy .sip10Pool) proofType circuitVersion
        publicInputsHash inclusion') Same := by
  refine .bind (h.registry _) fun _ => .read_bind fun s t hst => ?_
  rw [(h.alike hst).sip10ZkVerifier]
  refine .bind (h.sip10ZkVerifier (.zoom_both (lockstep_verifyProof
    (sameCaller_calledBy (h.height hcaller) .sip10Pool)) ?_ ?_)) fun _ =>
    .bind (h.record _) fun _ => .pure_same
  · exact fun _ _ hsame => hsame ▸ rfl
  · exact fun _ _ _ hsame => hsame ▸ rfl

theorem poolBalance (hcaller : Caller c c') :
    Lockstep Same (Sip10Pool.poolBalance tokens c token) (Sip10Pool.poolBalance tokens' c' token)
      Same :=
  lockstep_within (.orError_both (h.getBalance (h.calledBy (h.entering hcaller _) _) rfl))

/-- A transfer from the transaction sender, whatever the token returns. -/
theorem transferBind {β : Type} (hcaller : Caller c c') {amount code : Nat} {recipient : Principal}
    {next next' : Exec World β} {post : World → World → Prop}
    (hnext : Lockstep Same next next' post) :
    Lockstep Same
      (orError (tokens token c (.transfer amount c.txSender recipient)) code >>= fun _ => next)
      (orError (tokens' token c' (.transfer amount c'.txSender recipient)) code >>= fun _ => next')
      post :=
  .drop_bind (fun s t hst a s' b t' hrun hrun' =>
    h.transfer hcaller s t hst a s' b t' (orError_ok.mp hrun) (orError_ok.mp hrun')) hnext

theorem payFee (hcaller : Caller c c') {assetUid feeType fee : Nat} :
    Lockstep Same (Sip10Pool.payFee tokens c assetUid feeType fee token)
      (Sip10Pool.payFee tokens' c' assetUid feeType fee token) Same := by
  refine .ite_same (.bind (lockstep_within ?_) fun _ => .pure_same) .pure_same
  refine .read_bind fun s t hst => ?_
  rw [(h.alike hst).assetRegistry, (h.alike hst).sip10ProtocolFees]
  refine .unwrap_bind fun asset asset' _ _ => .bind (h.registry _) fun _ =>
    .require_bind fun _ _ => .require_bind fun _ _ => .require_bind fun _ _ =>
    .require_bind fun _ _ => .require_bind fun _ _ => ?_
  refine h.transferBind (h.calledBy (h.entering hcaller _) _) ?_
  refine .bind .addUint_same fun _ => .bind .addUint_same fun _ => .bind .addUint_same fun _ => ?_
  exact .bind (h.sip10ProtocolFees _) fun _ => .pure_same

end Matched

end Pieces

/-! ## SIP-10 operations

After the token calls, what is left of a deposit or of a spend within the pool
is registration, which is the same for any token. -/

section Operations

variable {loose : Set Principal} {Same : World → World → Prop} {Caller : Ctx → Ctx → Prop}
  {tokens tokens' : TokenCode} {token : Principal} {ctx ctx' : Ctx} {P : Primitives}
  {inclusion inclusion' : Inclusion}
  (h : Matched loose Same Caller tokens tokens' token) (hcaller : Caller ctx ctx')
include h hcaller

theorem Sip10Pool.shield_alike {args : ShieldArgs} {metadata : Buff32} :
    Lockstep Same (shield P tokens ctx token args inclusion)
      (shield P tokens' ctx' token { args with metadata := metadata } inclusion')
      (Alike loose (label unlabelled args.commitment metadata)) := by
  have hsame := sameCaller_calledBy (h.height hcaller) .sip10Pool
  have hpool := h.calledBy hcaller .sip10Pool
  refine .read_bind fun s t hst => ?_
  rw [(h.alike hst).assetRegistry, (h.alike hst).sip10Pool]
  refine .unwrap_bind fun assetUid assetUid' hasset hasset' => ?_
  obtain rfl := Option.some.inj (hasset.symm.trans hasset')
  refine .bind (h.registry _) fun _ => .require_bind fun _ _ => .require_bind fun _ _ => ?_
  refine .unwrap_bind fun asset asset' _ _ => .require_bind fun _ _ => ?_
  refine .bind Matched.checkCurrentRoot fun _ => .bind h.calculateFee fun fee =>
    .bind (h.poolBalance hcaller) fun balBefore => .bind (h.verifyProof hcaller) fun _ => ?_
  refine h.transferBind hpool (.bind (h.poolBalance hcaller) fun balAfter =>
    .bind .addUint_same fun expected => .require_bind fun _ _ =>
    .bind (h.payFee hpool) fun _ => h.ofAlike ?_)
  refine .bind (alike_registerNote hsame) fun _ =>
    .bind (alike_registerCommitment hsame) fun index => .require_bind fun _ _ =>
    .bind (alike_updateRoot hsame) fun _ => .read_bind fun s t hst => ?_
  rw [hst.sip10Pool]
  refine .bind .addUint_same fun _ => .bind alike_onSip10Pool fun _ => ?_
  exact .bind alike_record fun _ => .pure_same

theorem Sip10Pool.transfer_alike {args : TransferArgs} {metadata : Buff32} :
    Lockstep Same (transfer P tokens ctx token args inclusion)
      (transfer P tokens' ctx' token { args with newMetadata := metadata } inclusion')
      (Alike loose (label unlabelled args.newCommitment metadata)) := by
  have hsame := sameCaller_calledBy (h.height hcaller) .sip10Pool
  refine .bind h.checkSpendable fun assetUid => .bind Matched.checkCurrentRoot fun _ =>
    .bind h.calculateFee fun fee => .bind (h.verifyProof hcaller) fun _ =>
    .bind (h.payFee (h.calledBy hcaller _)) fun _ => h.ofAlike ?_
  refine .bind (alike_registerNullifier hsame) fun _ =>
    .bind (alike_registerCommitment hsame) fun index => .require_bind fun _ _ =>
    .bind (alike_registerNote hsame) fun _ => .bind (alike_updateRoot hsame) fun _ => ?_
  exact .bind alike_record fun _ => .pure_same

theorem Sip10Pool.split_alike {args : SplitArgs} {metadata1 metadata2 : Buff32} :
    Lockstep Same (split P tokens ctx token args inclusion)
      (split P tokens' ctx' token { args with metadata1 := metadata1, metadata2 := metadata2 }
        inclusion')
      (Alike loose (label (label unlabelled args.commitment1 metadata1) args.commitment2
        metadata2)) := by
  have hsame := sameCaller_calledBy (h.height hcaller) .sip10Pool
  refine .bind h.checkSpendable fun assetUid => .bind Matched.checkCurrentRoot fun _ =>
    .bind h.calculateFee fun fee => .bind (h.verifyProof hcaller) fun _ =>
    .bind (h.payFee (h.calledBy hcaller _)) fun _ => h.ofAlike ?_
  refine .bind (alike_registerNullifier hsame) fun _ =>
    .bind (alike_registerCommitment hsame) fun leaf1 =>
    .bind (alike_registerCommitment hsame) fun leaf2 => .require_bind fun _ _ =>
    .bind .addUint_same fun expected => .require_bind fun _ _ => ?_
  refine .bind (alike_registerNote hsame) fun _ => .bind (alike_registerNote hsame) fun _ =>
    .bind (alike_updateRoot hsame) fun _ => ?_
  exact .bind alike_record fun _ => .pure_same

theorem Sip10Pool.mergeNotes_alike {args : MergeArgs} {metadata : Buff32} :
    Lockstep Same (mergeNotes P tokens ctx token args inclusion)
      (mergeNotes P tokens' ctx' token { args with metadata := metadata } inclusion')
      (Alike loose (label unlabelled args.commitment metadata)) := by
  have hsame := sameCaller_calledBy (h.height hcaller) .sip10Pool
  refine .bind h.checkSpendable fun assetUid => .bind Matched.checkCurrentRoot fun _ =>
    .bind h.calculateFee fun fee => .bind (h.verifyProof hcaller) fun _ =>
    .bind (h.payFee (h.calledBy hcaller _)) fun _ => h.ofAlike ?_
  refine .bind (alike_registerNullifier hsame) fun _ =>
    .bind (alike_registerNullifier hsame) fun _ =>
    .bind (alike_registerCommitment hsame) fun index => .require_bind fun _ _ =>
    .bind (alike_registerNote hsame) fun _ => .bind (alike_updateRoot hsame) fun _ => ?_
  exact .bind alike_record fun _ => .pure_same

/-- A withdrawal has no metadata and calls the token to its end. -/
theorem Sip10Pool.withdraw_alike {args : WithdrawArgs} :
    Lockstep Same (withdraw P tokens ctx token args inclusion)
      (withdraw P tokens' ctx' token args inclusion') (Alike loose unlabelled) := by
  have hsame := sameCaller_calledBy (h.height hcaller) .sip10Pool
  have hpool := h.asContract hcaller .sip10Pool
  refine .read_bind fun s t hst => .bind h.checkSpendable fun assetUid =>
    .require_bind fun _ _ => .require_bind fun _ _ => .bind h.calculateFee fun fee =>
    .bind (h.poolBalance hcaller) fun balBefore => .read_bind fun before before' _ =>
    .require_bind fun _ _ => .require_bind fun _ _ => .bind (h.verifyProof hcaller) fun _ => ?_
  have hnullifier : Lockstep Same
      (PoolCalls.registerNullifier (ctx.calledBy .sip10Pool) args.nullifier)
      (PoolCalls.registerNullifier (ctx'.calledBy .sip10Pool) args.nullifier) Same := by
    rw [hsame.eq]
    exact h.registry _
  refine .bind hnullifier fun _ => .read_bind fun after after' hafter => ?_
  rw [(h.alike hafter).sip10Pool]
  refine .bind .subUint_same fun _ => .bind (h.sip10Pool _) fun _ => .bind (h.record _) fun _ =>
    .bind (h.payFee hpool) fun _ => ?_
  refine h.transferBind hpool (.bind (h.poolBalance hcaller) fun balAfter =>
    .bind .subUint_same fun expected => .require_bind fun _ _ => ?_)
  exact h.ofAlike .pure_same

end Operations

end StxShield
