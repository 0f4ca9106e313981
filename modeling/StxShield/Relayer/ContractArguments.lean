import StxShield.Protocol.Spending
import StxShield.Relayer.Requests

/-!
# Arguments of the contract calls

A contract reads its arguments by position, each at its declared type.  The calls
that requests become are read here as the public functions of the pools declare
them, and turn out to perform what was requested.
-/

namespace StxShield.Relay

open Library RootPublisher JavaScript

/-! ## Parameters -/

namespace ClarityValue

/-- An argument for a `(buff 32)`. -/
def buff32? : ClarityValue → Option Buff32
  | .buffer bytes => if h : bytes.length ≤ 32 then some ⟨bytes, h⟩ else none
  | _ => none

def uint? : ClarityValue → Option Uint
  | .uint value => some value
  | _ => none

def principal? : ClarityValue → Option Principal
  | .principal value => some value
  | _ => none

/-- An argument for a `(list 32 (buff 32))`. -/
def path? : ClarityValue → Option { path : List Buff32 // path.length ≤ 32 }
  | .list buffers => do
      let path ← buffers.mapM fun bytes => (ClarityValue.buffer bytes).buff32?
      if h : path.length ≤ 32 then some ⟨path, h⟩ else none
  | _ => none

end ClarityValue

/-- The last parameters of every operation. -/
def inclusion? : List ClarityValue → Option StxShield.Inclusion
  | [domainId, aggregationId, merklePath, aggLeafIndex] => do
      return {
        domainId := (← domainId.uint?).val
        aggregationId := (← aggregationId.uint?).val
        merklePath := ← merklePath.path?
        aggLeafIndex := (← aggLeafIndex.uint?).val }
  | _ => none

def transfer? : List ClarityValue → Option (TransferArgs × StxShield.Inclusion)
  | nullifier :: newCommitment :: newOwnerCommitment :: newMetadata :: currentRoot :: newRoot ::
      leafIndex :: inclusion => do
      return ({
        nullifier := ← nullifier.buff32?
        newCommitment := ← newCommitment.buff32?
        newOwnerCommitment := ← newOwnerCommitment.buff32?
        newMetadata := ← newMetadata.buff32?
        currentRoot := ← currentRoot.buff32?
        newRoot := ← newRoot.buff32?
        leafIndex := ← leafIndex.uint? }, ← inclusion? inclusion)
  | _ => none

def withdraw? : List ClarityValue → Option (WithdrawArgs × StxShield.Inclusion)
  | nullifier :: amount :: recipient :: root :: inclusion => do
      return ({
        nullifier := ← nullifier.buff32?
        amount := ← amount.uint?
        recipient := ← recipient.principal?
        root := ← root.buff32? }, ← inclusion? inclusion)
  | _ => none

def split? : List ClarityValue → Option (SplitArgs × StxShield.Inclusion)
  | nullifier :: commitment1 :: ownerCommitment1 :: metadata1 :: commitment2 ::
      ownerCommitment2 :: metadata2 :: currentRoot :: newRoot :: leafIndex :: inclusion => do
      return ({
        nullifier := ← nullifier.buff32?
        commitment1 := ← commitment1.buff32?
        ownerCommitment1 := ← ownerCommitment1.buff32?
        metadata1 := ← metadata1.buff32?
        commitment2 := ← commitment2.buff32?
        ownerCommitment2 := ← ownerCommitment2.buff32?
        metadata2 := ← metadata2.buff32?
        currentRoot := ← currentRoot.buff32?
        newRoot := ← newRoot.buff32?
        leafIndex := ← leafIndex.uint? }, ← inclusion? inclusion)
  | _ => none

def merge? : List ClarityValue → Option (MergeArgs × StxShield.Inclusion)
  | nullifier1 :: nullifier2 :: commitment :: ownerCommitment :: metadata :: currentRoot ::
      newRoot :: leafIndex :: inclusion => do
      return ({
        nullifier1 := ← nullifier1.buff32?
        nullifier2 := ← nullifier2.buff32?
        commitment := ← commitment.buff32?
        ownerCommitment := ← ownerCommitment.buff32?
        metadata := ← metadata.buff32?
        currentRoot := ← currentRoot.buff32?
        newRoot := ← newRoot.buff32?
        leafIndex := ← leafIndex.uint? }, ← inclusion? inclusion)
  | _ => none

/-! ## Entering a contract -/

/-- The call that is made, if the arguments are of the declared types; the functions
of `sip10-pool` take the token first. -/
def ContractCall.decode (call : ContractCall) : Option StxShield.Call :=
  match call.contract, call.fn, call.args with
  | .privacyPool, .transfer, args => do
      let decoded ← transfer? args
      return .privacyPool (.transfer decoded.1 decoded.2)
  | .privacyPool, .withdraw, args => do
      let decoded ← withdraw? args
      return .privacyPool (.withdraw decoded.1 decoded.2)
  | .splitMergeManager, .splitNote, args => do
      let decoded ← split? args
      return .splitMergeManager (.splitNote decoded.1 decoded.2)
  | .splitMergeManager, .mergeNotes, args => do
      let decoded ← merge? args
      return .splitMergeManager (.mergeNotes decoded.1 decoded.2)
  | .sip10Pool, .transfer, token :: args => do
      let token ← token.principal?
      let decoded ← transfer? args
      return .sip10Pool (.transfer token decoded.1 decoded.2)
  | .sip10Pool, .withdraw, token :: args => do
      let token ← token.principal?
      let decoded ← withdraw? args
      return .sip10Pool (.withdraw token decoded.1 decoded.2)
  | .sip10Pool, .split, token :: args => do
      let token ← token.principal?
      let decoded ← split? args
      return .sip10Pool (.split token decoded.1 decoded.2)
  | .sip10Pool, .mergeNotes, token :: args => do
      let token ← token.principal?
      let decoded ← merge? args
      return .sip10Pool (.mergeNotes token decoded.1 decoded.2)
  | _, _, _ => none

/-! ## What is requested is called -/

namespace RelayRequest

variable (lib : StacksLibrary)

/-- STX, or the token a request names. -/
def currency? (request : RelayRequest) : Except String Currency :=
  match request.token? with
  | none => .ok .stx
  | some token => Currency.sip10 <$> lib.principal token

/-- The values of a request are an operation's arguments. -/
def Says : RelayRequest → Action → Prop
  | .transfer t, .transfer args =>
      args.nullifier.bytes = bufBytes t.nullifier ∧
        args.newCommitment.bytes = bufBytes t.newCommitment ∧
        args.newOwnerCommitment.bytes = bufBytes t.newOwnerCommitment ∧
        args.newMetadata.bytes = bufBytes t.newMetadata ∧
        args.currentRoot.bytes = bufBytes t.currentRoot ∧
        args.newRoot.bytes = bufBytes t.newRoot ∧
        t.leafIndex = some args.leafIndex.val
  | .withdraw w, .withdraw args =>
      args.nullifier.bytes = bufBytes w.nullifier ∧
        args.amount.val = bigIntOf w.amount ∧
        lib.principal w.recipient = .ok args.recipient ∧
        args.root.bytes = bufBytes w.root
  | .split s, .split args =>
      args.nullifier.bytes = bufBytes s.nullifier ∧
        args.commitment1.bytes = bufBytes s.commitment1 ∧
        args.ownerCommitment1.bytes = bufBytes s.ownerCommitment1 ∧
        args.metadata1.bytes = bufBytes s.metadata1 ∧
        args.commitment2.bytes = bufBytes s.commitment2 ∧
        args.ownerCommitment2.bytes = bufBytes s.ownerCommitment2 ∧
        args.metadata2.bytes = bufBytes s.metadata2 ∧
        args.currentRoot.bytes = bufBytes s.currentRoot ∧
        args.newRoot.bytes = bufBytes s.newRoot ∧
        s.leafIndex = some args.leafIndex.val
  | .merge m, .merge args =>
      args.nullifier1.bytes = bufBytes m.nullifier1 ∧
        args.nullifier2.bytes = bufBytes m.nullifier2 ∧
        args.commitment.bytes = bufBytes m.commitment ∧
        args.ownerCommitment.bytes = bufBytes m.ownerCommitment ∧
        args.metadata.bytes = bufBytes m.metadata ∧
        args.currentRoot.bytes = bufBytes m.currentRoot ∧
        args.newRoot.bytes = bufBytes m.newRoot ∧
        m.leafIndex = some args.leafIndex.val
  | _, _ => False

end RelayRequest

section Arguments

variable {lib : StacksLibrary} {rest : List ClarityValue} {inclusion : StxShield.Inclusion}

theorem buff32?_buf {hex : String} {buff : Buff32} (h : (buf hex).buff32? = some buff) :
    buff.bytes = bufBytes hex := by
  simp only [buf, ClarityValue.buff32?] at h
  split at h
  case isTrue hlength =>
    cases h
    rfl
  case isFalse => cases h

theorem transfer?_some {n c o m r r' : String} {index : Uint} {args : TransferArgs}
    (h : transfer? (buf n :: buf c :: buf o :: buf m :: buf r :: buf r' :: .uint index :: rest) =
      some (args, inclusion)) :
    args.nullifier.bytes = bufBytes n ∧ args.newCommitment.bytes = bufBytes c ∧
      args.newOwnerCommitment.bytes = bufBytes o ∧ args.newMetadata.bytes = bufBytes m ∧
      args.currentRoot.bytes = bufBytes r ∧ args.newRoot.bytes = bufBytes r' ∧
      args.leafIndex = index ∧ inclusion? rest = some inclusion := by
  simp only [transfer?, Option.bind_eq_bind, Option.bind_eq_some_iff, Option.pure_def,
    Option.some.injEq, Prod.mk.injEq] at h
  obtain ⟨n', hn, c', hc, o', ho, m', hm, r₁, hr, r₂, hr', i, hi, _, hinclusion, hargs, rfl⟩ := h
  cases hargs
  cases hi
  exact ⟨buff32?_buf hn, buff32?_buf hc, buff32?_buf ho, buff32?_buf hm, buff32?_buf hr,
    buff32?_buf hr', rfl, hinclusion⟩

theorem withdraw?_some {n r : String} {amount : Uint} {recipient : Principal}
    {args : WithdrawArgs}
    (h : withdraw? (buf n :: .uint amount :: .principal recipient :: buf r :: rest) =
      some (args, inclusion)) :
    args.nullifier.bytes = bufBytes n ∧ args.amount = amount ∧ args.recipient = recipient ∧
      args.root.bytes = bufBytes r ∧ inclusion? rest = some inclusion := by
  simp only [withdraw?, Option.bind_eq_bind, Option.bind_eq_some_iff, Option.pure_def,
    Option.some.injEq, Prod.mk.injEq] at h
  obtain ⟨n', hn, a, ha, who, hwho, r₁, hr, _, hinclusion, hargs, rfl⟩ := h
  cases hargs
  cases ha
  cases hwho
  exact ⟨buff32?_buf hn, rfl, rfl, buff32?_buf hr, hinclusion⟩

theorem split?_some {n c₁ o₁ m₁ c₂ o₂ m₂ r r' : String} {index : Uint} {args : SplitArgs}
    (h : split? (buf n :: buf c₁ :: buf o₁ :: buf m₁ :: buf c₂ :: buf o₂ :: buf m₂ :: buf r ::
      buf r' :: .uint index :: rest) = some (args, inclusion)) :
    args.nullifier.bytes = bufBytes n ∧ args.commitment1.bytes = bufBytes c₁ ∧
      args.ownerCommitment1.bytes = bufBytes o₁ ∧ args.metadata1.bytes = bufBytes m₁ ∧
      args.commitment2.bytes = bufBytes c₂ ∧ args.ownerCommitment2.bytes = bufBytes o₂ ∧
      args.metadata2.bytes = bufBytes m₂ ∧ args.currentRoot.bytes = bufBytes r ∧
      args.newRoot.bytes = bufBytes r' ∧ args.leafIndex = index ∧
      inclusion? rest = some inclusion := by
  simp only [split?, Option.bind_eq_bind, Option.bind_eq_some_iff, Option.pure_def,
    Option.some.injEq, Prod.mk.injEq] at h
  obtain ⟨n', hn, d₁, hc₁, p₁, ho₁, k₁, hm₁, d₂, hc₂, p₂, ho₂, k₂, hm₂, s, hr, s', hr', i, hi, _,
    hinclusion, hargs, rfl⟩ := h
  cases hargs
  cases hi
  exact ⟨buff32?_buf hn, buff32?_buf hc₁, buff32?_buf ho₁, buff32?_buf hm₁, buff32?_buf hc₂,
    buff32?_buf ho₂, buff32?_buf hm₂, buff32?_buf hr, buff32?_buf hr', rfl, hinclusion⟩

theorem merge?_some {n₁ n₂ c o m r r' : String} {index : Uint} {args : MergeArgs}
    (h : merge? (buf n₁ :: buf n₂ :: buf c :: buf o :: buf m :: buf r :: buf r' :: .uint index ::
      rest) = some (args, inclusion)) :
    args.nullifier1.bytes = bufBytes n₁ ∧ args.nullifier2.bytes = bufBytes n₂ ∧
      args.commitment.bytes = bufBytes c ∧ args.ownerCommitment.bytes = bufBytes o ∧
      args.metadata.bytes = bufBytes m ∧ args.currentRoot.bytes = bufBytes r ∧
      args.newRoot.bytes = bufBytes r' ∧ args.leafIndex = index ∧
      inclusion? rest = some inclusion := by
  simp only [merge?, Option.bind_eq_bind, Option.bind_eq_some_iff, Option.pure_def,
    Option.some.injEq, Prod.mk.injEq] at h
  obtain ⟨n', hn₁, n'', hn₂, d, hc, p, ho, k, hm, s, hr, s', hr', i, hi, _, hinclusion, hargs,
    rfl⟩ := h
  cases hargs
  cases hi
  exact ⟨buff32?_buf hn₁, buff32?_buf hn₂, buff32?_buf hc, buff32?_buf ho, buff32?_buf hm,
    buff32?_buf hr, buff32?_buf hr', rfl, hinclusion⟩

/-- The aggregation that is named is the one that was requested. -/
theorem inclusionArgs_ok {requested : Inclusion} {args : List ClarityValue}
    (h : inclusionArgs lib requested = .ok args) (hread : inclusion? args = some inclusion) :
    inclusion.domainId = requested.domainId ∧
      inclusion.aggregationId = requested.aggregationId := by
  simp only [inclusionArgs, except_bind_ok, except_pure_ok] at h
  obtain ⟨domainId, hdomain, aggregationId, haggregation, leafIndex, -, rfl⟩ := h
  simp only [inclusion?, ClarityValue.uint?, Option.bind_eq_bind, Option.bind_some,
    Option.bind_eq_some_iff, Option.pure_def, Option.some.injEq] at hread
  obtain ⟨path, -, rfl⟩ := hread
  exact ⟨lib.uintOfNumber_val _ _ hdomain, lib.uintOfNumber_val _ _ haggregation⟩

/-- A token argument is the principal of its text. -/
theorem tokenArg_ok {text : String} {arg : ClarityValue} (h : tokenArg lib text = .ok arg) :
    ∃ token, lib.principal text = .ok token ∧ arg = .principal token := by
  unfold tokenArg at h
  unfold StacksLibrary.principal
  split at h
  case h_1 address name rest hsplit =>
    split at h
    case isTrue => cases h
    case isFalse =>
      obtain ⟨token, hcontract, rfl⟩ := except_map_ok.mp h
      exact ⟨token, hcontract, rfl⟩
  case h_2 => cases h

theorem leafIndexArg_ok {leafIndex : Option Nat} {args : List ClarityValue}
    (h : leafIndexArg lib leafIndex = .ok args) :
    ∃ index : Uint, leafIndex = some index.val ∧ args = [.uint index] := by
  cases leafIndex with
  | none => cases h
  | some n =>
      obtain ⟨index, huint, rfl⟩ := except_map_ok.mp h
      exact ⟨index, congrArg some (lib.uintOfNumber_val n index huint).symm, rfl⟩

/-- The token in front, or nothing. -/
theorem leadArgs_ok {request : RelayRequest} {lead : List ClarityValue}
    (h : leadArgs lib request = .ok lead) :
    (request.token?.isSome = false ∧ request.currency? lib = .ok .stx ∧ lead = []) ∨
      ∃ token, request.token?.isSome = true ∧ request.currency? lib = .ok (.sip10 token) ∧
        lead = [.principal token] := by
  unfold leadArgs at h
  unfold RelayRequest.currency?
  cases htoken : request.token? with
  | none =>
      rw [htoken] at h
      cases h
      exact .inl ⟨rfl, rfl, rfl⟩
  | some text =>
      rw [htoken] at h
      obtain ⟨arg, harg, rfl⟩ := except_map_ok.mp h
      obtain ⟨token, hprincipal, rfl⟩ := tokenArg_ok harg
      exact .inr ⟨token, rfl, except_map_ok.mpr ⟨token, hprincipal, rfl⟩, rfl⟩

end Arguments

/-- The call made of a request performs the operation requested, with its token, and
presents the aggregation that was named. -/
theorem call_of_buildCall {lib : StacksLibrary} {request : RelayRequest} {call : ContractCall}
    {chainCall : StxShield.Call} (hbuild : buildCall lib request = .ok call)
    (hdecode : call.decode = some chainCall) :
    ∃ (op : StxShield.Operation) (inclusion : StxShield.Inclusion),
      chainCall = op.call inclusion ∧ request.currency? lib = .ok op.currency ∧
      request.Says lib op.action ∧
      inclusion.domainId = request.base.inclusion.domainId ∧
      inclusion.aggregationId = request.base.inclusion.aggregationId := by
  unfold buildCall at hbuild
  obtain ⟨lead, hlead, hbuild⟩ := except_bind_ok.mp hbuild
  cases request with
  | transfer t =>
      simp only [except_bind_ok, except_pure_ok] at hbuild
      obtain ⟨leafIndex, hleaf, inclusion, hinclusion, rfl⟩ := hbuild
      obtain ⟨decoded, currency, hcurrency, hargs, hop⟩ : ∃ decoded currency,
          RelayRequest.currency? lib (.transfer t) = .ok currency ∧
            transfer? _ = some decoded ∧
            chainCall = StxShield.Operation.call decoded.2 ⟨currency, .transfer decoded.1⟩ := by
        rcases leadArgs_ok hlead with ⟨hsome, hcurrency, rfl⟩ | ⟨token, hsome, hcurrency, rfl⟩
        · rw [hsome] at hdecode
          obtain ⟨decoded, hargs, hcall⟩ := Option.bind_eq_some_iff.mp hdecode
          cases hcall
          exact ⟨decoded, .stx, hcurrency, hargs, rfl⟩
        · rw [hsome] at hdecode
          obtain ⟨decoded, hargs, hcall⟩ := Option.bind_eq_some_iff.mp hdecode
          cases hcall
          exact ⟨decoded, .sip10 token, hcurrency, hargs, rfl⟩
      obtain ⟨index, hindex, rfl⟩ := leafIndexArg_ok hleaf
      obtain ⟨hn, hc, ho, hm, hr, hr', hi, hread⟩ := transfer?_some hargs
      exact ⟨_, _, hop, hcurrency, ⟨hn, hc, ho, hm, hr, hr', hi ▸ hindex⟩,
        inclusionArgs_ok hinclusion hread⟩
  | withdraw w =>
      simp only [except_bind_ok, except_pure_ok] at hbuild
      obtain ⟨amount, hamount, recipient, hrecipient, inclusion, hinclusion, rfl⟩ := hbuild
      obtain ⟨decoded, currency, hcurrency, hargs, hop⟩ : ∃ decoded currency,
          RelayRequest.currency? lib (.withdraw w) = .ok currency ∧
            withdraw? _ = some decoded ∧
            chainCall = StxShield.Operation.call decoded.2 ⟨currency, .withdraw decoded.1⟩ := by
        rcases leadArgs_ok hlead with ⟨hsome, hcurrency, rfl⟩ | ⟨token, hsome, hcurrency, rfl⟩
        · rw [hsome] at hdecode
          obtain ⟨decoded, hargs, hcall⟩ := Option.bind_eq_some_iff.mp hdecode
          cases hcall
          exact ⟨decoded, .stx, hcurrency, hargs, rfl⟩
        · rw [hsome] at hdecode
          obtain ⟨decoded, hargs, hcall⟩ := Option.bind_eq_some_iff.mp hdecode
          cases hcall
          exact ⟨decoded, .sip10 token, hcurrency, hargs, rfl⟩
      obtain ⟨hn, ha, hwho, hr, hread⟩ := withdraw?_some hargs
      exact ⟨_, _, hop, hcurrency,
        ⟨hn, ha ▸ lib.uint_val _ amount hamount, hwho ▸ hrecipient, hr⟩,
        inclusionArgs_ok hinclusion hread⟩
  | split s =>
      simp only [except_bind_ok, except_pure_ok] at hbuild
      obtain ⟨leafIndex, hleaf, inclusion, hinclusion, rfl⟩ := hbuild
      obtain ⟨decoded, currency, hcurrency, hargs, hop⟩ : ∃ decoded currency,
          RelayRequest.currency? lib (.split s) = .ok currency ∧
            split? _ = some decoded ∧
            chainCall = StxShield.Operation.call decoded.2 ⟨currency, .split decoded.1⟩ := by
        rcases leadArgs_ok hlead with ⟨hsome, hcurrency, rfl⟩ | ⟨token, hsome, hcurrency, rfl⟩
        · rw [hsome] at hdecode
          obtain ⟨decoded, hargs, hcall⟩ := Option.bind_eq_some_iff.mp hdecode
          cases hcall
          exact ⟨decoded, .stx, hcurrency, hargs, rfl⟩
        · rw [hsome] at hdecode
          obtain ⟨decoded, hargs, hcall⟩ := Option.bind_eq_some_iff.mp hdecode
          cases hcall
          exact ⟨decoded, .sip10 token, hcurrency, hargs, rfl⟩
      obtain ⟨index, hindex, rfl⟩ := leafIndexArg_ok hleaf
      obtain ⟨hn, hc₁, ho₁, hm₁, hc₂, ho₂, hm₂, hr, hr', hi, hread⟩ := split?_some hargs
      exact ⟨_, _, hop, hcurrency,
        ⟨hn, hc₁, ho₁, hm₁, hc₂, ho₂, hm₂, hr, hr', hi ▸ hindex⟩,
        inclusionArgs_ok hinclusion hread⟩
  | merge m =>
      simp only [except_bind_ok, except_pure_ok] at hbuild
      obtain ⟨leafIndex, hleaf, inclusion, hinclusion, rfl⟩ := hbuild
      obtain ⟨decoded, currency, hcurrency, hargs, hop⟩ : ∃ decoded currency,
          RelayRequest.currency? lib (.merge m) = .ok currency ∧
            merge? _ = some decoded ∧
            chainCall = StxShield.Operation.call decoded.2 ⟨currency, .merge decoded.1⟩ := by
        rcases leadArgs_ok hlead with ⟨hsome, hcurrency, rfl⟩ | ⟨token, hsome, hcurrency, rfl⟩
        · rw [hsome] at hdecode
          obtain ⟨decoded, hargs, hcall⟩ := Option.bind_eq_some_iff.mp hdecode
          cases hcall
          exact ⟨decoded, .stx, hcurrency, hargs, rfl⟩
        · rw [hsome] at hdecode
          obtain ⟨decoded, hargs, hcall⟩ := Option.bind_eq_some_iff.mp hdecode
          cases hcall
          exact ⟨decoded, .sip10 token, hcurrency, hargs, rfl⟩
      obtain ⟨index, hindex, rfl⟩ := leafIndexArg_ok hleaf
      obtain ⟨hn₁, hn₂, hc, ho, hm, hr, hr', hi, hread⟩ := merge?_some hargs
      exact ⟨_, _, hop, hcurrency, ⟨hn₁, hn₂, hc, ho, hm, hr, hr', hi ▸ hindex⟩,
        inclusionArgs_ok hinclusion hread⟩

/-- The call made of a request performs the operation requested, with its token. -/
theorem operation_of_buildCall {lib : StacksLibrary} {request : RelayRequest} {call : ContractCall}
    {chainCall : StxShield.Call} (hbuild : buildCall lib request = .ok call)
    (hdecode : call.decode = some chainCall) :
    ∃ op, chainCall.operation? = some op ∧ request.currency? lib = .ok op.currency ∧
      request.Says lib op.action := by
  obtain ⟨op, inclusion, rfl, hcurrency, htold, -⟩ := call_of_buildCall hbuild hdecode
  exact ⟨op, op.call_operation? inclusion, hcurrency, htold⟩

end StxShield.Relay
