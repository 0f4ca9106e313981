import StxShield.Effects.RelayedTokens
import StxShield.Protocol.Spending
import StxShield.Security.Solvency

/-!
# Relayers

Whoever submits a proved operation decides about nothing that the proof binds.
The metadata of the new notes is not bound: it is stored as the call gives it.
-/

namespace StxShield

open Library Exec World Circuit

/-! ## Arguments that are not bound -/

theorem ShieldArgs.of_bound {args args' : ShieldArgs}
    (h : (Action.shield args).bound = (Action.shield args').bound) :
    ∃ metadata, args' = { args with metadata := metadata } := by
  refine ⟨args'.metadata, ?_⟩
  cases args
  cases args'
  simp only [Action.bound, Action.shield.injEq, ShieldArgs.mk.injEq] at h
  simp [h]

theorem TransferArgs.of_bound {args args' : TransferArgs}
    (h : (Action.transfer args).bound = (Action.transfer args').bound) :
    ∃ metadata, args' = { args with newMetadata := metadata } := by
  refine ⟨args'.newMetadata, ?_⟩
  cases args
  cases args'
  simp only [Action.bound, Action.transfer.injEq, TransferArgs.mk.injEq] at h
  simp [h]

theorem SplitArgs.of_bound {args args' : SplitArgs}
    (h : (Action.split args).bound = (Action.split args').bound) :
    ∃ metadata1 metadata2,
      args' = { args with metadata1 := metadata1, metadata2 := metadata2 } := by
  refine ⟨args'.metadata1, args'.metadata2, ?_⟩
  cases args
  cases args'
  simp only [Action.bound, Action.split.injEq, SplitArgs.mk.injEq] at h
  simp [h]

theorem MergeArgs.of_bound {args args' : MergeArgs}
    (h : (Action.merge args).bound = (Action.merge args').bound) :
    ∃ metadata, args' = { args with metadata := metadata } := by
  refine ⟨args'.metadata, ?_⟩
  cases args
  cases args'
  simp only [Action.bound, Action.merge.injEq, MergeArgs.mk.injEq] at h
  simp [h]

/-! ## Two calls -/

section Calls

variable {env : Env} {ctx ctx' : Ctx} {op op' : Operation} {inclusion inclusion' : Inclusion}

/-- The pool's functions for STX. -/
theorem Operation.stx_alike {tokens : TokenCode} {loose : Set Principal} {action action' : Action}
    (hbound : action.bound = action'.bound) (hheight : ctx.height = ctx'.height)
    (hsender : ctx.txSender.isProtocol = false) (hsender' : ctx'.txSender.isProtocol = false) :
    Lockstep (Alike loose unlabelled)
      (dispatch env tokens ctx (Operation.call inclusion ⟨.stx, action⟩))
      (dispatch env tokens ctx' (Operation.call inclusion' ⟨.stx, action'⟩))
      (Alike loose (Operation.labels ⟨.stx, action'⟩)) := by
  cases action with
  | shield args =>
      cases action' with
      | shield args' =>
          obtain ⟨metadata, rfl⟩ := ShieldArgs.of_bound hbound
          exact .bind (.read_bind fun _ _ _ => .bind
            (PrivacyPool.shield_alike hheight hsender hsender') fun _ => .pure_same)
            fun _ => .pure_same
      | _ => cases hbound
  | transfer args =>
      cases action' with
      | transfer args' =>
          obtain ⟨metadata, rfl⟩ := TransferArgs.of_bound hbound
          exact .bind (.read_bind fun _ _ _ => .bind
            (PrivacyPool.transfer_alike hheight hsender hsender') fun _ => .pure_same)
            fun _ => .pure_same
      | _ => cases hbound
  | withdraw args =>
      cases action' with
      | withdraw args' =>
          obtain rfl := Action.withdraw.inj hbound
          exact .bind (.read_bind fun _ _ _ => .bind
            (PrivacyPool.withdraw_alike hheight) fun _ => .pure_same) fun _ => .pure_same
      | _ => cases hbound
  | split args =>
      cases action' with
      | split args' =>
          obtain ⟨metadata1, metadata2, rfl⟩ := SplitArgs.of_bound hbound
          exact .read_bind fun _ _ _ => .bind
            (SplitMergeManager.splitNote_alike hheight hsender hsender') fun _ => .pure_same
      | _ => cases hbound
  | merge args =>
      cases action' with
      | merge args' =>
          obtain ⟨metadata, rfl⟩ := MergeArgs.of_bound hbound
          exact .read_bind fun _ _ _ => .bind
            (SplitMergeManager.mergeNotes_alike hheight hsender hsender') fun _ => .pure_same
      | _ => cases hbound

/-- The pool's functions for a token whose calls keep the two sides together. -/
theorem Operation.sip10_alike {tokens tokens' : TokenCode} {loose : Set Principal}
    {Same : World → World → Prop} {Caller : Ctx → Ctx → Prop} {token : Principal}
    {action action' : Action} (hbound : action.bound = action'.bound)
    (h : Matched loose Same Caller tokens tokens' token) (hcaller : Caller ctx ctx') :
    Lockstep Same
      (dispatch env tokens ctx (Operation.call inclusion ⟨.sip10 token, action⟩))
      (dispatch env tokens' ctx' (Operation.call inclusion' ⟨.sip10 token, action'⟩))
      (Alike loose (Operation.labels ⟨.sip10 token, action'⟩)) := by
  cases action with
  | shield args =>
      cases action' with
      | shield args' =>
          obtain ⟨metadata, rfl⟩ := ShieldArgs.of_bound hbound
          exact .bind (Sip10Pool.shield_alike h hcaller) fun _ => .pure_same
      | _ => cases hbound
  | transfer args =>
      cases action' with
      | transfer args' =>
          obtain ⟨metadata, rfl⟩ := TransferArgs.of_bound hbound
          exact .bind (Sip10Pool.transfer_alike h hcaller) fun _ => .pure_same
      | _ => cases hbound
  | withdraw args =>
      cases action' with
      | withdraw args' =>
          obtain rfl := Action.withdraw.inj hbound
          exact .bind (Sip10Pool.withdraw_alike h hcaller) fun _ => .pure_same
      | _ => cases hbound
  | split args =>
      cases action' with
      | split args' =>
          obtain ⟨metadata1, metadata2, rfl⟩ := SplitArgs.of_bound hbound
          exact .bind (Sip10Pool.split_alike h hcaller) fun _ => .pure_same
      | _ => cases hbound
  | merge args =>
      cases action' with
      | merge args' =>
          obtain ⟨metadata, rfl⟩ := MergeArgs.of_bound hbound
          exact .bind (Sip10Pool.mergeNotes_alike h hcaller) fun _ => .pure_same
      | _ => cases hbound

/-- The ledger of which two submitters may see different balances: that of the
token they pay the operation with. -/
def Operation.openLedgers (op : Operation) (ctx ctx' : Ctx) : Set Principal :=
  {token | op.currency = .sip10 token ∧ ctx ≠ ctx'}

/-- The contracts' functions, reached from the same state. -/
theorem Operation.dispatch_alike {loose : Set Principal} {execute : Executor}
    (hbound : op.bound = op'.bound) (hheight : ctx.height = ctx'.height)
    (hsender : ctx.txSender.isProtocol = false) (hsender' : ctx'.txSender.isProtocol = false)
    (hsubmitter : ∀ token, op.currency = .sip10 token →
      ctx = ctx' ∨ token ∈ loose ∧ HonestToken env token) :
    Lockstep Eq (dispatch env (callToken env execute) ctx (op.call inclusion))
      (dispatch env (callToken env execute) ctx' (op'.call inclusion'))
      (Alike loose op'.labels) := by
  obtain ⟨currency, action⟩ := op
  obtain ⟨currency', action'⟩ := op'
  obtain ⟨hcurrency, haction⟩ := Operation.mk.inj hbound
  obtain rfl : currency = currency' := hcurrency
  cases currency with
  | stx => exact lockstep_of_alike (stx_alike haction hheight hsender hsender')
  | sip10 token =>
      rcases hsubmitter token rfl with rfl | ⟨hloose, hhonest⟩
      · exact sip10_alike haction (matched_same loose _ token) rfl
      · exact lockstep_of_alike (sip10_alike haction (matched_honest hhonest hloose execute execute)
          ⟨.inr ⟨hsender, hsender'⟩, hheight⟩)

/-- Two transactions. -/
theorem Operation.exec_alike (hbound : op.bound = op'.bound) (hctx : ctx.TopLevel)
    (hctx' : ctx'.TopLevel) (hheight : ctx.height = ctx'.height)
    (hsubmitter : ∀ token, op.currency = .sip10 token → ctx = ctx' ∨ HonestToken env token)
    (depth : Nat) :
    Lockstep Eq (exec env depth ctx (op.call inclusion))
      (exec env depth ctx' (op'.call inclusion'))
      (Alike (op.openLedgers ctx ctx') op'.labels) := by
  cases depth with
  | zero =>
      intro s t _ a s' b t' h _
      cases h
  | succ depth =>
      rintro s _ rfl data s' data' t' h h'
      obtain ⟨mid, hrun, rfl⟩ := execCall_ok.mp h
      obtain ⟨mid', hrun', rfl⟩ := execCall_ok.mp h'
      obtain ⟨inner, hdispatch, hinner⟩ := withinCall_ok hrun
      obtain ⟨inner', hdispatch', hinner'⟩ := withinCall_ok hrun'
      have hentered : ∃ function, (op.call inclusion).function? = some function ∧
          (op'.call inclusion').function? = some function := by
        obtain ⟨currency, action⟩ := op
        obtain ⟨currency', action'⟩ := op'
        obtain ⟨hcurrency, haction⟩ := Operation.mk.inj hbound
        obtain rfl : currency = currency' := hcurrency
        cases currency <;> cases action <;> cases action' <;>
          first | exact ⟨_, rfl, rfl⟩ | cases haction
      obtain ⟨function, hfunction, hfunction'⟩ := hentered
      obtain ⟨-, rfl⟩ := hinner.entered hfunction
      obtain ⟨-, rfl⟩ := hinner'.entered hfunction'
      have hentering : ∀ token, op.currency = .sip10 token →
          ctx.entering function = ctx'.entering function ∨
            token ∈ op.openLedgers ctx ctx' ∧ HonestToken env token := by
        intro token htoken
        by_cases hsame : ctx = ctx'
        · exact .inl (congrArg (Ctx.entering · function) hsame)
        · exact .inr ⟨⟨htoken, hsame⟩, (hsubmitter token htoken).resolve_left hsame⟩
      have hlockstep : Lockstep Eq
          (dispatch env (callToken env (exec env depth)) (ctx.entering function)
            (op.call inclusion))
          (dispatch env (callToken env (exec env depth)) (ctx'.entering function)
            (op'.call inclusion')) (Alike (op.openLedgers ctx ctx') op'.labels) :=
        dispatch_alike hbound hheight hctx.sender hctx'.sender hentering
      obtain ⟨hdata, hmid⟩ := hlockstep s s rfl data mid data' mid' hdispatch hdispatch'
      exact ⟨hdata, { hmid with }⟩

end Calls

/-! ## One statement leaf -/

/-- What `zk-verifier` hashes to a statement leaf. -/
def leafInput (P : Primitives) (contextHash zkvVkeyHash versionHash : Buff32)
    (inputs : Bytes) : Bytes :=
  (contextHash.bytes ++ zkvVkeyHash.bytes) ++ (versionHash.bytes ++ (P.keccak256 inputs).bytes)

theorem statementLeaf_eq (P : Primitives) (contextHash zkvVkeyHash versionHash : Buff32)
    (inputs : Bytes) :
    Verifier.statementLeaf P contextHash zkvVkeyHash versionHash (P.keccak256 inputs) =
      P.keccak256 (leafInput P contextHash zkvVkeyHash versionHash inputs) := rfl

/-- The storage of the verifier an operation presents its statement to. -/
def Operation.verifierStorage (op : Operation) (w : World) : Verifier :=
  match op.currency with
  | .stx => w.zkVerifier
  | .sip10 _ => w.sip10ZkVerifier.verifier

/-- What an operation is hashed to with the bindings of a state. -/
structure Presents (P : Primitives) (preimages : Set Bytes) (w : World) (leaf : Buff32)
    (op : Operation) : Prop where
  leaf : ∃ binding,
    (op.verifierStorage w).bindings.lookup
      (op.proofType, op.currency.boundVersion w.registry.protocolVersions.circuit) =
        some binding ∧
      leaf = Verifier.statementLeaf P (op.verifierStorage w).contextHash binding.zkvVkeyHash
        binding.versionHash (P.keccak256 (op.inputs P w.registry.protocolVersions.circuit)) ∧
      leafInput P (op.verifierStorage w).contextHash binding.zkvVkeyHash binding.versionHash
        (op.inputs P w.registry.protocolVersions.circuit) ∈ preimages
  inputs : op.inputs P w.registry.protocolVersions.circuit ∈ preimages

/-- A leaf that stands for a vector of a circuit. -/
structure StandsFor (P : Primitives) (preimages : Set Bytes) (leaf : Buff32)
    (statement : Statement) : Prop where
  leaf : ∃ contextHash zkvVkeyHash versionHash,
    leaf = Verifier.statementLeaf P contextHash zkvVkeyHash versionHash
      (P.keccak256 statement.encode) ∧
      leafInput P contextHash zkvVkeyHash versionHash statement.encode ∈ preimages
  encode : statement.encode ∈ preimages
  wellFormed : statement.WellFormed

/-- The leaf fixes what was hashed. -/
theorem Presents.inputs_eq {P : Primitives} {preimages : Set Bytes} {w : World} {leaf : Buff32}
    {op : Operation} {statement : Statement} (h : Presents P preimages w leaf op)
    (hstands : StandsFor P preimages leaf statement) (hkeccak : Set.InjOn P.keccak256 preimages) :
    op.inputs P w.registry.protocolVersions.circuit = statement.encode := by
  obtain ⟨binding, -, hleaf, hinput⟩ := h.leaf
  obtain ⟨contextHash, zkvVkeyHash, versionHash, hleaf', hinput'⟩ := hstands.leaf
  have hbytes := hkeccak hinput hinput' (hleaf.symm.trans hleaf')
  have hlength (inputs inputs' : Bytes) :
      (P.keccak256 inputs).bytes.length = (P.keccak256 inputs').bytes.length := by
    rw [P.keccak256_length, P.keccak256_length]
  simp only [leafInput, ← List.append_assoc] at hbytes
  have hdigest := (List.append_inj' hbytes (hlength _ _)).2
  exact hkeccak h.inputs hstands.encode (Buff32.ext hdigest)

/-- Two calls that succeed in a state under one statement leaf, whatever their
inclusion proofs, bind the same arguments.  They return the same data and leave
the same storage in every contract, up to the metadata of the notes they
register, which is the metadata of the call.  It does not matter who submits
them, but for a token that is not honest: its code may look at the account. -/
theorem relayed_operation {env : Env} {w w₁ w₂ : World} {leaf : Buff32} {statement : Statement}
    {op op' : Operation} {inclusion inclusion' : Inclusion} {ctx ctx' : Ctx} {depth : Nat}
    {data data' : List Nat} {preimages : Set Bytes} {known : Set Principal}
    (hpresents : Presents env.primitives preimages w leaf op)
    (hpresents' : Presents env.primitives preimages w leaf op')
    (hstands : StandsFor env.primitives preimages leaf statement)
    (hkeccak : Set.InjOn env.primitives.keccak256 preimages)
    (hseparates : SeparatesPrincipals env.primitives statement.root known)
    (hknown : ∀ who ∈ op.principals ++ op'.principals, who ∈ known)
    (hctx : ctx.TopLevel) (hctx' : ctx'.TopLevel) (hheight : ctx.height = ctx'.height)
    (h : exec env depth ctx (op.call inclusion) w = .ok (data, w₁))
    (h' : exec env depth ctx' (op'.call inclusion') w = .ok (data', w₂)) :
    op.bound = op'.bound ∧
      ((∀ token, op.currency = .sip10 token → ctx = ctx' ∨ HonestToken env token) →
        data = data' ∧ Alike (op.openLedgers ctx ctx') op'.labels w₁ w₂ ∧
          Alike (op.openLedgers ctx ctx') op.labels w₂ w₁) := by
  have hbound : op.bound = op'.bound :=
    Operation.bound_eq_of_inputs hstands.wellFormed hseparates
      (fun who hwho => hknown who (List.mem_append_right _ hwho))
      (fun who hwho => hknown who (List.mem_append_left _ hwho))
      (hpresents'.inputs_eq hstands hkeccak) (hpresents.inputs_eq hstands hkeccak)
  refine ⟨hbound, fun hsubmitter => ?_⟩
  have hcurrency : op.currency = op'.currency := (Operation.mk.inj hbound).1
  have hopen : op'.openLedgers ctx' ctx = op.openLedgers ctx ctx' := by
    simp only [Operation.openLedgers, hcurrency, ne_comm]
  obtain ⟨hdata, halike⟩ := Operation.exec_alike hbound hctx hctx' hheight hsubmitter depth
    w w rfl data w₁ data' w₂ h h'
  obtain ⟨-, halike'⟩ := Operation.exec_alike hbound.symm hctx' hctx hheight.symm
    (fun token htoken => (hsubmitter token (hcurrency.trans htoken)).imp_left Eq.symm) depth
    w w rfl data' w₂ data w₁ h' h
  exact ⟨hdata, halike, hopen ▸ halike'⟩

namespace Sample

def bob : Principal := .account 3

theorem bob_topLevel : (sentBy bob).TopLevel := ⟨rfl, rfl, rfl⟩

def shieldStxOperation (metadata : Buff32) : Operation :=
  ⟨.stx, .shield { shieldArgs (shieldPublic stxCoin false) with metadata := metadata }⟩

/-- A submitter's shield of STX. -/
def submitted (who : Principal) (metadata : Buff32) : World :=
  transact env 1 (sentBy who) ((shieldStxOperation metadata).call (inclusion 1)) ready

/-- The token's shield: the same call, whoever submits it. -/
def tokenOperation : Operation :=
  ⟨.sip10 token, .shield (shieldArgs (shieldPublic tokenCoin true))⟩

/-- What a verifier hashes to a statement's leaf. -/
def leafBytes (statement : Statement) : Bytes :=
  leafInput primitives (digest [1]) (digest [1]) (digest [1]) statement.encode

def leafHash (statement : Statement) : Buff32 := primitives.keccak256 (leafBytes statement)

/-- The preimages of the leaf and of the digest in it. -/
def leafPreimages (statement : Statement) : Set Bytes := {leafBytes statement, statement.encode}

theorem leafPreimages_injOn : Set.InjOn primitives.keccak256 (leafPreimages shieldStx) := by
  have hne : primitives.keccak256 (leafBytes shieldStx) ≠
      primitives.keccak256 shieldStx.encode := by
    decide +kernel
  rintro _ (rfl | rfl) _ (rfl | rfl) heq
  · rfl
  · exact absurd heq hne
  · exact absurd heq.symm hne
  · rfl

/-- An operation presents a statement if it hashes its inputs and the verifier's
hashes are those of the set-up. -/
theorem presents_of_hashes {w : World} {op : Operation} {statement : Statement}
    (hinputs : op.inputs primitives w.registry.protocolVersions.circuit = statement.encode)
    (hcontext : (op.verifierStorage w).contextHash = digest [1])
    (hkey : ((op.verifierStorage w).bindings.lookup
      (op.proofType, op.currency.boundVersion w.registry.protocolVersions.circuit)).map
        (fun binding => (binding.zkvVkeyHash, binding.versionHash)) =
          some (digest [1], digest [1])) :
    Presents primitives (leafPreimages statement) w (leafHash statement) op := by
  obtain ⟨binding, hbinding, hhashes⟩ := Option.map_eq_some_iff.mp hkey
  obtain ⟨hvkey, hversion⟩ := Prod.mk.inj hhashes
  have hinput : leafInput primitives (op.verifierStorage w).contextHash binding.zkvVkeyHash
      binding.versionHash statement.encode = leafBytes statement := by
    rw [hcontext, hvkey, hversion, leafBytes]
  refine ⟨⟨binding, hbinding, ?_, ?_⟩, ?_⟩
  · rw [hinputs, statementLeaf_eq, hinput, leafHash]
  · rw [hinputs, hinput]
    exact .inl rfl
  · rw [hinputs]
    exact .inr rfl

theorem presents_shieldStx (metadata : Buff32) :
    Presents primitives (leafPreimages shieldStx) ready (leafHash shieldStx)
      (shieldStxOperation metadata) := by
  have hinputs : (shieldStxOperation zeroHash).inputs primitives
      ready.registry.protocolVersions.circuit = shieldStx.encode := by
    decide +kernel
  have hcontext : ready.zkVerifier.contextHash = digest [1] := by decide +kernel
  have hkey : (ready.zkVerifier.bindings.lookup
      (proofTypeShield, ready.registry.protocolVersions.circuit)).map
        (fun binding => (binding.zkvVkeyHash, binding.versionHash)) =
          some (digest [1], digest [1]) := by
    decide +kernel
  have hstorage : (shieldStxOperation metadata).verifierStorage ready = ready.zkVerifier := rfl
  have hversions : (shieldStxOperation metadata).currency.boundVersion
      ready.registry.protocolVersions.circuit = ready.registry.protocolVersions.circuit := rfl
  refine presents_of_hashes hinputs (hstorage ▸ hcontext) ?_
  rw [hstorage, hversions]
  exact hkey

/-! ### A token that looks at the submitter -/

/-- The token's code takes the shielded STX out again if `bob` sends the
tokens. -/
def tellingCode (self : Principal) (ctx : Ctx) : TokenFunction → Program
  | .transfer amount sender recipient =>
      let move : Program :=
        .store (fun ledger =>
            { ledger with balances := World.moved ledger.balances amount sender recipient })
          (.reply (.ok 1))
      .invoke false callShieldStx fun _ =>
        if ctx.txSender = bob then .invoke false callWithdrawStx fun _ => move else move
  | .getBalance who => .inspect fun w => .reply (.ok ((w.tokens self).balances who))
  | .getDecimals => .reply (.ok 6)
  | .other _ => .reply (.ok 0)

def tellingEnv : Env where
  primitives := primitives
  code := tellingCode

def tellingReady : World := transactAll tellingEnv 1 (sentBy owner) setup start

theorem tellingReady_reachable : Reachable tellingEnv tellingReady :=
  (Reachable.deployed rfl _ _).transactAll owner_topLevel 1 setup

/-- A submitter's shield of the token. -/
def submittedToken (who : Principal) : World :=
  transact tellingEnv 2 (sentBy who) (tokenOperation.call (inclusion 1)) tellingReady

theorem presents_shieldToken :
    Presents primitives (leafPreimages shieldToken) tellingReady (leafHash shieldToken)
      tokenOperation := by
  refine presents_of_hashes ?_ ?_ ?_
  all_goals decide +kernel

theorem separatesNone : SeparatesPrincipals primitives shieldStx.root ∅ where
  injective := Set.injOn_empty _
  ne_uint _ hwho := absurd hwho (Set.notMem_empty _)
  ne_root _ hwho := absurd hwho (Set.notMem_empty _)

theorem standsFor_shieldStx :
    StandsFor primitives (leafPreimages shieldStx) (leafHash shieldStx) shieldStx where
  leaf := ⟨_, _, _, rfl, Or.inl rfl⟩
  encode := Or.inr rfl
  wellFormed := shieldStx_holds.wellFormed

end Sample

/-- The shield of another account, with metadata of its own, passes under the
same leaf as the depositor's, and its metadata stays with the note.  Where a
token looks at the submitter, one and the same call leaves other sums in the
pool. -/
theorem submitter_matters :
    (Reachable Sample.env Sample.ready ∧
      Presents Sample.primitives (Sample.leafPreimages Sample.shieldStx) Sample.ready
        (Sample.leafHash Sample.shieldStx) (Sample.shieldStxOperation zeroHash) ∧
      Presents Sample.primitives (Sample.leafPreimages Sample.shieldStx) Sample.ready
        (Sample.leafHash Sample.shieldStx) (Sample.shieldStxOperation (Sample.digest [7])) ∧
      (exec Sample.env 1 (Sample.sentBy Sample.alice)
        ((Sample.shieldStxOperation zeroHash).call (Sample.inclusion 1)) Sample.ready).isOk ∧
      (exec Sample.env 1 (Sample.sentBy Sample.bob)
        ((Sample.shieldStxOperation (Sample.digest [7])).call (Sample.inclusion 1))
          Sample.ready).isOk ∧
      ((Sample.submitted Sample.alice zeroHash).noteManager.notes.lookup
        (fieldBuff (Sample.shieldPublic Sample.stxCoin false).commitment)).map
          NoteRecord.metadata = some zeroHash ∧
      ((Sample.submitted Sample.bob (Sample.digest [7])).noteManager.notes.lookup
        (fieldBuff (Sample.shieldPublic Sample.stxCoin false).commitment)).map
          NoteRecord.metadata = some (Sample.digest [7]) ∧
      Sample.digest [7] ≠ zeroHash) ∧
    Reachable Sample.tellingEnv Sample.tellingReady ∧
      Presents Sample.primitives (Sample.leafPreimages Sample.shieldToken) Sample.tellingReady
        (Sample.leafHash Sample.shieldToken) Sample.tokenOperation ∧
      (exec Sample.tellingEnv 2 (Sample.sentBy Sample.alice)
        (Sample.tokenOperation.call (Sample.inclusion 1)) Sample.tellingReady).isOk ∧
      (exec Sample.tellingEnv 2 (Sample.sentBy Sample.bob)
        (Sample.tokenOperation.call (Sample.inclusion 1)) Sample.tellingReady).isOk ∧
      (Sample.submittedToken Sample.alice).registry.protocolStatistics.totalShieldedStx =
        1000000 ∧
      (Sample.submittedToken Sample.bob).registry.protocolStatistics.totalShieldedStx = 0 := by
  refine ⟨⟨Sample.ready_reachable, Sample.presents_shieldStx _, Sample.presents_shieldStx _,
    ?_, ?_, ?_, ?_, ?_⟩, Sample.tellingReady_reachable, Sample.presents_shieldToken,
    ?_, ?_, ?_, ?_⟩
  all_goals decide +kernel

/-- Up to that metadata the two shields leave the same. -/
theorem relayed_operation_shield :
    Alike ((Sample.shieldStxOperation zeroHash).openLedgers (Sample.sentBy Sample.alice)
        (Sample.sentBy Sample.bob)) (Sample.shieldStxOperation (Sample.digest [7])).labels
      (Sample.submitted Sample.alice zeroHash) (Sample.submitted Sample.bob (Sample.digest [7])) := by
  have hknown (metadata metadata' : Buff32) :
      ∀ who ∈ (Sample.shieldStxOperation metadata).principals ++
        (Sample.shieldStxOperation metadata').principals, who ∈ (∅ : Set Principal) :=
    fun who hwho => absurd hwho List.not_mem_nil
  obtain ⟨data, hrun⟩ : ∃ data, exec Sample.env 1 (Sample.sentBy Sample.alice)
      ((Sample.shieldStxOperation zeroHash).call (Sample.inclusion 1)) Sample.ready =
        .ok (data, Sample.submitted Sample.alice zeroHash) :=
    exec_eq_transact (by decide +kernel)
  obtain ⟨data', hrun'⟩ : ∃ data, exec Sample.env 1 (Sample.sentBy Sample.bob)
      ((Sample.shieldStxOperation (Sample.digest [7])).call (Sample.inclusion 1)) Sample.ready =
        .ok (data, Sample.submitted Sample.bob (Sample.digest [7])) :=
    exec_eq_transact (by decide +kernel)
  exact ((relayed_operation (Sample.presents_shieldStx _) (Sample.presents_shieldStx _)
    Sample.standsFor_shieldStx Sample.leafPreimages_injOn Sample.separatesNone (hknown _ _)
    Sample.alice_topLevel Sample.bob_topLevel rfl hrun hrun').2
      (fun _ hsip10 => Currency.noConfusion hsip10)).2.1

end StxShield
