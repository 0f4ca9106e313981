import Mathlib.Data.List.Infix
import StxShield.Api.BlockIndexer
import StxShield.Relayer.Requests

/-!
# Authentication nonces

A wallet signs a message with a nonce of the server's, and gets a session for it.  The
statements of a verification run one after the other, and those of other requests may come
in between.
-/

namespace StxShield.Auth

open Library Relay BlockIndexer

/-! ## Messages and signatures -/

/-- What the Stacks libraries find of keys and signatures; `none` is for what throws. -/
structure WalletKeys where
  getAddressFromPublicKey : String → Option String
  verifyMessageSignatureRsv : (message signature publicKey : String) → Option Bool

structure VerifyRequest where
  wallet : String
  publicKey : String
  signature : String
  message : String
  deriving DecidableEq

def verifyWalletSignature (keys : WalletKeys) (request : VerifyRequest) : Bool :=
  match keys.getAddressFromPublicKey request.publicKey with
  | none => false
  | some derived =>
      if derived ≠ request.wallet then false
      else
        (keys.verifyMessageSignatureRsv request.message request.signature
          request.publicKey).getD false

/-- `walletRe` -/
def isWallet (text : String) : Bool :=
  match text.toList with
  | 'S' :: kind :: rest =>
      (kind = 'T' || kind = 'P') && 38 ≤ rest.length && rest.length ≤ 40 && rest.all isUpperOrDigit
  | _ => false

/-- `verifyBody` -/
def isVerifyBody (request : VerifyRequest) : Bool :=
  isWallet request.wallet && request.publicKey ≠ "" && request.signature ≠ "" &&
    request.message ≠ ""

def isLowerHexDigit (c : Char) : Bool := ('0' ≤ c && c ≤ '9') || ('a' ≤ c && c ≤ 'f')

def nonceMark : List Char := "Nonce:\n".toList

/-- The digits after the mark, if the text starts with it. -/
def nonceAt (text : List Char) : Option String :=
  let digits := (text.drop nonceMark.length).take 64
  if nonceMark.isPrefixOf text && digits.length = 64 && digits.all isLowerHexDigit then
    some (String.ofList digits)
  else none

/-- The first match of `Nonce:` and a line with 64 digits. -/
def extractNonce (message : String) : Option String := message.toList.tails.findSome? nonceAt

/-! ## The server -/

structure NonceRow where
  wallet : String
  used : Bool
  expiresAt : Nat
  deriving DecidableEq

/-- A session, with the request it was issued to. -/
structure Session where
  wallet : String
  jwtId : String
  expiresAt : Nat
  request : VerifyRequest
  nonce : String
  /-- When the nonce was found valid. -/
  presentedAt : Nat
  deriving DecidableEq

/-- The statement that comes next in a verification. -/
inductive Stage where
  /-- Select the unused nonce of the wallet. -/
  | selecting (nonce : String)
  /-- The row is there, or none is. -/
  | checking (nonce : String) (found : Option NonceRow)
  /-- Set the nonce used. -/
  | consuming (nonce : String) (presentedAt : Nat)
  /-- Upsert the user. -/
  | upserting (nonce : String) (presentedAt : Nat)
  /-- Insert the session. -/
  | inserting (nonce : String) (presentedAt : Nat)
  | replied (status : Nat)
  deriving DecidableEq

/-- A request that has not been answered fails. -/
def Stage.failed : Stage → Stage
  | .replied status => .replied status
  | _ => .replied 500

structure Verification where
  request : VerifyRequest
  stage : Stage
  deriving DecidableEq

structure Server where
  nonces : DataMap String NonceRow
  verifications : List Verification
  sessions : List Session

/-- What may happen next. -/
inductive AuthEvent where
  /-- A nonce is generated for a wallet, and inserted. -/
  | nonce (wallet nonce : String) (now : Nat)
  | verify (request : VerifyRequest)
  /-- The next statement of a verification runs. -/
  | statement (position : Nat) (now : Nat) (jwtId : String)
  /-- It fails. -/
  | failed (position : Nat)

namespace Server

variable (server : Server)

def put (position : Nat) (request : VerifyRequest) (stage : Stage) : Server :=
  { server with verifications := server.verifications.set position ⟨request, stage⟩ }

/-- `update(authNonces).set({ used: true })` -/
def consume (nonce : String) : Server :=
  match server.nonces.lookup nonce with
  | some row => { server with nonces := server.nonces.insert nonce { row with used := true } }
  | none => server

section Model

variable (keys : WalletKeys) (authNonceTtlMs jwtTtlSeconds : Nat)

def next (position : Nat) (request : VerifyRequest) (now : Nat) (jwtId : String) :
    Stage → Server
  | .selecting nonce =>
      server.put position request (.checking nonce
        ((server.nonces.lookup nonce).filter fun row => row.wallet = request.wallet && !row.used))
  | .checking _ none => server.put position request (.replied 401)
  | .checking nonce (some row) =>
      if row.expiresAt < now then server.put position request (.replied 401)
      else if verifyWalletSignature keys request = false then
        server.put position request (.replied 401)
      else server.put position request (.consuming nonce now)
  | .consuming nonce presentedAt =>
      (server.consume nonce).put position request (.upserting nonce presentedAt)
  | .upserting nonce presentedAt => server.put position request (.inserting nonce presentedAt)
  | .inserting nonce presentedAt =>
      if jwtId ∈ server.sessions.map Session.jwtId then server.put position request (.replied 500)
      else
        { server.put position request (.replied 200) with
          sessions := server.sessions ++
            [{ wallet := request.wallet, jwtId := jwtId, expiresAt := now + jwtTtlSeconds * 1000,
               request := request, nonce := nonce, presentedAt := presentedAt }] }
  | .replied status => server.put position request (.replied status)

def step : AuthEvent → Server
  | .nonce wallet nonce now =>
      if isWallet wallet then
        { server with
          nonces := insertIfAbsent server.nonces nonce
            { wallet := wallet, used := false, expiresAt := now + authNonceTtlMs } }
      else server
  | .verify request =>
      let stage :=
        if isVerifyBody request then (extractNonce request.message).elim (.replied 400) .selecting
        else .replied 400
      { server with verifications := server.verifications ++ [⟨request, stage⟩] }
  | .statement position now jwtId =>
      match server.verifications[position]? with
      | some running => server.next keys jwtTtlSeconds position running.request now jwtId running.stage
      | none => server
  | .failed position =>
      match server.verifications[position]? with
      | some running => server.put position running.request running.stage.failed
      | none => server

/-- An empty database. -/
def launched : Server := { nonces := ∅, verifications := [], sessions := [] }

def run (server : Server) (events : List AuthEvent) : Server :=
  events.foldl (fun server event => server.step keys authNonceTtlMs jwtTtlSeconds event) server

/-- The nonce that the next statement of a verification sets used. -/
def consumes : AuthEvent → Option String
  | .statement position _ _ =>
      server.verifications[position]?.bind fun running =>
        match running.stage with
        | .consuming nonce _ => some nonce
        | _ => none
  | _ => none

/-- A verification that sets a nonce used finds it unused. -/
def FindsUnused (event : AuthEvent) : Prop :=
  ∀ nonce ∈ server.consumes event, ∀ row ∈ server.nonces.lookup nonce, row.used = false

instance (event : AuthEvent) : Decidable (server.FindsUnused event) :=
  inferInstanceAs (Decidable (∀ nonce ∈ server.consumes event,
    ∀ row ∈ server.nonces.lookup nonce, row.used = false))

/-- All verifications of a run do. -/
def AllFindUnused : Server → List AuthEvent → Prop
  | _, [] => True
  | server, event :: rest =>
      server.FindsUnused event ∧
        AllFindUnused (server.step keys authNonceTtlMs jwtTtlSeconds event) rest

instance decideAllFindUnused :
    ∀ (server : Server) (events : List AuthEvent),
      Decidable (AllFindUnused keys authNonceTtlMs jwtTtlSeconds server events)
  | _, [] => .isTrue trivial
  | server, event :: rest =>
      have := decideAllFindUnused (server.step keys authNonceTtlMs jwtTtlSeconds event) rest
      inferInstanceAs (Decidable (server.FindsUnused event ∧ AllFindUnused keys authNonceTtlMs
        jwtTtlSeconds (server.step keys authNonceTtlMs jwtTtlSeconds event) rest))

end Model

end Server

/-! ## What a session rests on -/

/-- The nonce was issued to the wallet, to be presented until then. -/
def Issued (nonces : DataMap String NonceRow) (nonce wallet : String) (expiresAt : Nat) : Prop :=
  ∃ row ∈ nonces.lookup nonce, row.wallet = wallet ∧ row.expiresAt = expiresAt

/-- The wallet has signed a message with a nonce that was issued to it and had not expired. -/
structure Vouched (keys : WalletKeys) (nonces : DataMap String NonceRow) (request : VerifyRequest)
    (nonce : String) (presentedAt : Nat) : Prop where
  contains : nonce.toList <:+: request.message.toList
  signed : verifyWalletSignature keys request = true
  issued : ∃ expiresAt, Issued nonces nonce request.wallet expiresAt ∧ presentedAt ≤ expiresAt

/-- A session is for the wallet that its request vouches for. -/
structure Session.Earned (keys : WalletKeys) (nonces : DataMap String NonceRow)
    (session : Session) : Prop where
  wallet : session.wallet = session.request.wallet
  vouched : Vouched keys nonces session.request session.nonce session.presentedAt

/-- Each nonce has led to one session at most, for its wallet, with a signature, in time. -/
structure UsedOnce (keys : WalletKeys) (server : Server) : Prop where
  earned : ∀ session ∈ server.sessions, session.Earned keys server.nonces
  once : (server.sessions.map Session.nonce).Nodup

/-- What the statements of a verification have found so far. -/
def Stage.Sound (keys : WalletKeys) (nonces : DataMap String NonceRow) (request : VerifyRequest) :
    Stage → Prop
  | .selecting nonce => nonce.toList <:+: request.message.toList
  | .checking nonce found => nonce.toList <:+: request.message.toList ∧
      ∀ row ∈ found, Issued nonces nonce request.wallet row.expiresAt
  | .consuming nonce presentedAt => Vouched keys nonces request nonce presentedAt
  | .upserting nonce presentedAt => Vouched keys nonces request nonce presentedAt
  | .inserting nonce presentedAt => Vouched keys nonces request nonce presentedAt
  | .replied _ => True

/-! ## Messages -/

theorem infix_of_nonceAt {text : List Char} {nonce : String} (h : nonceAt text = some nonce) :
    nonce.toList <:+: text := by
  simp only [nonceAt, Option.ite_none_right_eq_some, Option.some.injEq] at h
  obtain ⟨-, rfl⟩ := h
  rw [String.toList_ofList]
  exact (List.take_prefix _ _).isInfix.trans (List.drop_suffix _ _).isInfix

theorem infix_of_extractNonce {message nonce : String} (h : extractNonce message = some nonce) :
    nonce.toList <:+: message.toList := by
  obtain ⟨text, htext, hnonce⟩ := List.exists_of_findSome?_eq_some h
  exact (infix_of_nonceAt hnonce).trans ((List.mem_tails text _).mp htext).isInfix

/-! ## The table of nonces -/

/-- Nothing that was issued is forgotten. -/
def Remembers (nonces nonces' : DataMap String NonceRow) : Prop :=
  ∀ nonce wallet expiresAt, Issued nonces nonce wallet expiresAt →
    Issued nonces' nonce wallet expiresAt

section Remembers

variable {keys : WalletKeys} {nonces nonces' : DataMap String NonceRow}

theorem Remembers.refl : Remembers nonces nonces := fun _ _ _ hissued => hissued

theorem Remembers.vouched {request : VerifyRequest} {nonce : String} {presentedAt : Nat}
    (hremembers : Remembers nonces nonces') (h : Vouched keys nonces request nonce presentedAt) :
    Vouched keys nonces' request nonce presentedAt := by
  obtain ⟨expiresAt, hissued, htime⟩ := h.issued
  exact ⟨h.contains, h.signed, expiresAt, hremembers _ _ _ hissued, htime⟩

theorem Remembers.earned {session : Session} (hremembers : Remembers nonces nonces')
    (h : session.Earned keys nonces) : session.Earned keys nonces' :=
  ⟨h.wallet, hremembers.vouched h.vouched⟩

theorem Remembers.sound {request : VerifyRequest} {stage : Stage}
    (hremembers : Remembers nonces nonces') (h : stage.Sound keys nonces request) :
    stage.Sound keys nonces' request := by
  cases stage with
  | selecting nonce => exact h
  | checking nonce found => exact ⟨h.1, fun row hrow => hremembers _ _ _ (h.2 row hrow)⟩
  | consuming nonce presentedAt => exact hremembers.vouched h
  | upserting nonce presentedAt => exact hremembers.vouched h
  | inserting nonce presentedAt => exact hremembers.vouched h
  | replied status => trivial

end Remembers

/-- One for a nonce that is used. -/
def spent (nonces : DataMap String NonceRow) (nonce : String) : Nat :=
  (nonces.lookup nonce).elim 0 fun row => row.used.toNat

theorem spent_le_one (nonces : DataMap String NonceRow) (nonce : String) :
    spent nonces nonce ≤ 1 := by
  unfold spent
  cases nonces.lookup nonce with
  | none => exact Nat.zero_le 1
  | some row => exact Bool.toNat_le row.used

section Insert

variable {nonces : DataMap String NonceRow} {nonce : String} {row : NonceRow}

/-- A nonce is inserted, unless it is there. -/
theorem insertIfAbsent_cases (nonces : DataMap String NonceRow) (nonce : String)
    (row : NonceRow) :
    (∃ old, nonces.lookup nonce = some old ∧ insertIfAbsent nonces nonce row = nonces) ∨
      (nonces.lookup nonce = none ∧ insertIfAbsent nonces nonce row = nonces.insert nonce row) := by
  unfold insertIfAbsent DataMap.insertNew?
  cases hold : nonces.lookup nonce with
  | none => exact .inr ⟨rfl, rfl⟩
  | some old => exact .inl ⟨old, rfl, rfl⟩

theorem remembers_insertIfAbsent : Remembers nonces (insertIfAbsent nonces nonce row) := by
  obtain ⟨old, -, heq⟩ | ⟨hnew, heq⟩ := insertIfAbsent_cases nonces nonce row
  · rw [heq]
    exact Remembers.refl
  · rintro other wallet expiresAt ⟨found, hfound, hrow⟩
    refine ⟨found, ?_, hrow⟩
    rw [heq, DataMap.lookup_insert_eq, if_neg]
    · exact hfound
    · rintro rfl
      rw [hnew] at hfound
      cases hfound

/-- A new nonce is not used. -/
theorem spent_insertIfAbsent (hunused : row.used = false) (other : String) :
    spent (insertIfAbsent nonces nonce row) other = spent nonces other := by
  obtain ⟨old, -, heq⟩ | ⟨hnew, heq⟩ := insertIfAbsent_cases nonces nonce row
  · rw [heq]
  · unfold spent
    rw [heq, DataMap.lookup_insert_eq]
    split
    case isTrue h =>
      rw [h, hnew, Option.elim_some, hunused]
      rfl
    case isFalse h => rfl

end Insert

section Consume

variable {server : Server} {nonce : String} {row : NonceRow}

theorem consume_of_row (hrow : server.nonces.lookup nonce = some row) :
    server.consume nonce =
      { server with nonces := server.nonces.insert nonce { row with used := true } } := by
  unfold Server.consume
  rw [hrow]

theorem remembers_consume (hrow : server.nonces.lookup nonce = some row) :
    Remembers server.nonces (server.consume nonce).nonces := by
  rintro other wallet expiresAt ⟨found, hfound, hwallet, hexpires⟩
  rw [consume_of_row hrow]
  by_cases hother : other = nonce
  · subst hother
    obtain rfl : row = found := Option.some.inj (hrow.symm.trans hfound)
    exact ⟨{ row with used := true }, AList.lookup_insert _, hwallet, hexpires⟩
  · exact ⟨found, (AList.lookup_insert_ne hother).trans hfound, hwallet, hexpires⟩

/-- The nonce is used, and the others are as they were. -/
theorem spent_consume (hrow : server.nonces.lookup nonce = some row) (other : String) :
    spent (server.consume nonce).nonces other =
      if other = nonce then 1 else spent server.nonces other := by
  rw [consume_of_row hrow]
  unfold spent
  rw [DataMap.lookup_insert_eq]
  split
  case isTrue h => rfl
  case isFalse h => rfl

end Consume

/-! ## Verifications that have used a nonce -/

/-- One for a verification that has set the nonce used and will insert a session. -/
def Stage.weight (nonce : String) : Stage → Nat
  | .upserting used _ => if used = nonce then 1 else 0
  | .inserting used _ => if used = nonce then 1 else 0
  | _ => 0

def Server.pending (server : Server) (nonce : String) : Nat :=
  (server.verifications.map fun running => running.stage.weight nonce).sum

def Server.opened (server : Server) (nonce : String) : Nat :=
  (server.sessions.map Session.nonce).count nonce

/-- A place in a list of numbers changes, and the sum with it. -/
theorem sum_map_set {α : Type} (weight : α → Nat) {items : List α} {position : Nat} {old : α}
    (hold : items[position]? = some old) (new : α) :
    ((items.set position new).map weight).sum + weight old =
      (items.map weight).sum + weight new := by
  induction items generalizing position with
  | nil => cases hold
  | cons first rest ih =>
      cases position with
      | zero =>
          obtain rfl : first = old := Option.some.inj hold
          simp only [List.set_cons_zero, List.map_cons, List.sum_cons]
          omega
      | succ position =>
          have hrest := ih hold
          simp only [List.set_cons_succ, List.map_cons, List.sum_cons]
          omega

/-- What holds of a server at all times, as long as every verification finds its nonce unused. -/
structure Disciplined (keys : WalletKeys) (server : Server) : Prop where
  sound : ∀ running ∈ server.verifications,
    running.stage.Sound keys server.nonces running.request
  earned : ∀ session ∈ server.sessions, session.Earned keys server.nonces
  counted : ∀ nonce, server.pending nonce + server.opened nonce ≤ spent server.nonces nonce

section Step

variable {keys : WalletKeys} {server : Server} {position : Nat} {request : VerifyRequest}
  {old new : Stage}

theorem Disciplined.launched : Disciplined keys .launched where
  sound := fun _ hrunning => absurd hrunning List.not_mem_nil
  earned := fun _ hsession => absurd hsession List.not_mem_nil
  counted := fun _ => Nat.le_refl 0

theorem Disciplined.usedOnce (h : Disciplined keys server) : UsedOnce keys server where
  earned := h.earned
  once := by
    rw [List.nodup_iff_count_le_one]
    intro nonce
    have hcounted := h.counted nonce
    have hspent := spent_le_one server.nonces nonce
    unfold Server.opened at hcounted
    omega

/-- The verification at a place has found what its stage says. -/
theorem Disciplined.sound_at (h : Disciplined keys server)
    (hrunning : server.verifications[position]? = some ⟨request, old⟩) :
    old.Sound keys server.nonces request :=
  h.sound _ (List.mem_of_getElem? hrunning)

theorem pending_put (hrunning : server.verifications[position]? = some ⟨request, old⟩)
    (nonce : String) :
    (server.put position request new).pending nonce + old.weight nonce =
      server.pending nonce + new.weight nonce :=
  sum_map_set (fun running => running.stage.weight nonce) hrunning ⟨request, new⟩

/-- A verification goes on to a stage that is sound as well and weighs no more. -/
theorem Disciplined.put (h : Disciplined keys server)
    (hrunning : server.verifications[position]? = some ⟨request, old⟩)
    (hsound : new.Sound keys server.nonces request)
    (hweight : ∀ nonce, new.weight nonce ≤ old.weight nonce) :
    Disciplined keys (server.put position request new) where
  sound := by
    intro running hmem
    obtain hold | rfl := List.mem_or_eq_of_mem_set hmem
    · exact h.sound running hold
    · exact hsound
  earned := h.earned
  counted := by
    intro nonce
    have hpending : (server.put position request new).pending nonce + old.weight nonce =
        server.pending nonce + new.weight nonce := pending_put hrunning nonce
    have hcounted := h.counted nonce
    have hless := hweight nonce
    change (server.put position request new).pending nonce + server.opened nonce ≤
      spent server.nonces nonce
    omega

/-- Failing is going on to a reply. -/
theorem Disciplined.failed (h : Disciplined keys server)
    (hrunning : server.verifications[position]? = some ⟨request, old⟩) :
    Disciplined keys (server.put position request old.failed) := by
  apply h.put hrunning
  · cases old <;> trivial
  · intro nonce
    cases old <;> exact Nat.zero_le _

/-- A nonce that is unused is set used. -/
theorem Disciplined.consumed (h : Disciplined keys server) {nonce : String} {presentedAt : Nat}
    (hrunning : server.verifications[position]? = some ⟨request, .consuming nonce presentedAt⟩)
    (hunused : ∀ row ∈ server.nonces.lookup nonce, row.used = false) :
    Disciplined keys
      ((server.consume nonce).put position request (.upserting nonce presentedAt)) := by
  have hvouched : Vouched keys server.nonces request nonce presentedAt := h.sound_at hrunning
  obtain ⟨expiresAt, ⟨row, hrow, -⟩, -⟩ := hvouched.issued
  have hremembers := remembers_consume hrow
  have hrunning' : (server.consume nonce).verifications[position]? =
      some ⟨request, .consuming nonce presentedAt⟩ := by
    rw [consume_of_row hrow]
    exact hrunning
  constructor
  case sound =>
    intro running hmem
    obtain hold | rfl := List.mem_or_eq_of_mem_set hmem
    · rw [consume_of_row hrow] at hold
      exact hremembers.sound (h.sound running hold)
    · exact hremembers.vouched hvouched
  case earned =>
    intro session hsession
    have hold : session ∈ server.sessions := by
      rw [consume_of_row hrow] at hsession
      exact hsession
    exact hremembers.earned (h.earned session hold)
  case counted =>
    intro other
    have hpending : ((server.consume nonce).put position request
          (.upserting nonce presentedAt)).pending other +
            (Stage.consuming nonce presentedAt).weight other =
        (server.consume nonce).pending other +
          (Stage.upserting nonce presentedAt).weight other := pending_put hrunning' other
    have hspent := spent_consume hrow other
    have hcounted := h.counted other
    have hfresh : spent server.nonces nonce = 0 := by
      unfold spent
      rw [hrow, Option.elim_some, hunused row hrow]
      rfl
    have hsame : (server.consume nonce).pending other = server.pending other ∧
        (server.consume nonce).opened other = server.opened other := by
      rw [consume_of_row hrow]
      exact ⟨rfl, rfl⟩
    change _ + (server.consume nonce).opened other ≤ spent (server.consume nonce).nonces other
    rw [hspent, hsame.2]
    rw [hsame.1] at hpending
    simp only [Stage.weight] at hpending
    by_cases hother : other = nonce
    · subst hother
      rw [if_pos rfl] at hpending ⊢
      omega
    · rw [if_neg (Ne.symm hother)] at hpending
      rw [if_neg hother]
      omega

/-- A session is inserted for a nonce that its verification has used. -/
theorem Disciplined.inserted (h : Disciplined keys server) {nonce : String} {presentedAt : Nat}
    (hrunning : server.verifications[position]? = some ⟨request, .inserting nonce presentedAt⟩)
    {session : Session} (hwallet : session.wallet = request.wallet)
    (hrequest : session.request = request) (hnonce : session.nonce = nonce)
    (hpresented : session.presentedAt = presentedAt) (status : Nat) :
    Disciplined keys
      { server.put position request (.replied status) with
        sessions := server.sessions ++ [session] } := by
  have hput : Disciplined keys (server.put position request (.replied status)) := by
    refine h.put hrunning ?_ fun _ => Nat.zero_le _
    trivial
  constructor
  case sound => exact hput.sound
  case earned =>
    intro earned hmem
    obtain hold | hnew := List.mem_append.mp hmem
    · exact h.earned earned hold
    · obtain rfl := List.mem_singleton.mp hnew
      subst hrequest hnonce hpresented
      exact ⟨hwallet, h.sound_at hrunning⟩
  case counted =>
    intro other
    have hpending : (server.put position request (.replied status)).pending other +
          (Stage.inserting nonce presentedAt).weight other =
        server.pending other + (Stage.replied status).weight other := pending_put hrunning other
    have hcounted := h.counted other
    have hopened : ((server.sessions ++ [session]).map Session.nonce).count other =
        server.opened other + if nonce = other then 1 else 0 := by
      rw [List.map_append, List.count_append, List.map_singleton, List.count_singleton, hnonce]
      simp only [beq_iff_eq]
      rfl
    change (server.put position request (.replied status)).pending other +
      ((server.sessions ++ [session]).map Session.nonce).count other ≤ spent server.nonces other
    rw [hopened]
    simp only [Stage.weight] at hpending
    omega

variable {authNonceTtlMs jwtTtlSeconds now : Nat} {jwtId : String}

/-- One statement of a verification. -/
theorem Disciplined.next (h : Disciplined keys server) {stage : Stage}
    (hrunning : server.verifications[position]? = some ⟨request, stage⟩)
    (hunused : ∀ nonce presentedAt, stage = .consuming nonce presentedAt →
      ∀ row ∈ server.nonces.lookup nonce, row.used = false) :
    Disciplined keys (server.next keys jwtTtlSeconds position request now jwtId stage) := by
  have hsound := h.sound_at hrunning
  have hreplied : ∀ status, Disciplined keys (server.put position request (.replied status)) :=
    fun status => h.put hrunning trivial fun _ => Nat.zero_le _
  cases stage with
  | selecting nonce =>
      apply h.put hrunning
      · refine ⟨hsound, ?_⟩
        intro row hrow
        obtain ⟨hlookup, hwallet⟩ := Option.filter_eq_some_iff.mp hrow
        simp only [Bool.and_eq_true, decide_eq_true_eq] at hwallet
        exact ⟨row, hlookup, hwallet.1, rfl⟩
      · intro nonce
        exact Nat.le_refl 0
  | checking nonce found =>
      cases found with
      | none => exact hreplied 401
      | some row =>
          simp only [Server.next]
          split
          case isTrue => exact hreplied 401
          case isFalse htime =>
            split
            case isTrue => exact hreplied 401
            case isFalse hsigned =>
              apply h.put hrunning
              · exact ⟨hsound.1, Bool.eq_true_of_not_eq_false hsigned, row.expiresAt,
                  hsound.2 row rfl, Nat.le_of_not_lt htime⟩
              · intro nonce
                exact Nat.le_refl 0
  | consuming nonce presentedAt => exact h.consumed hrunning (hunused nonce presentedAt rfl)
  | upserting nonce presentedAt =>
      have hinserting : (Stage.inserting nonce presentedAt).Sound keys server.nonces request :=
        hsound
      exact h.put hrunning hinserting fun _ => Nat.le_refl _
  | inserting nonce presentedAt =>
      simp only [Server.next]
      split
      case isTrue => exact hreplied 500
      case isFalse => exact h.inserted hrunning rfl rfl rfl rfl 200
  | replied status => exact hreplied status

/-- Nonces are inserted unused. -/
theorem Disciplined.issued (h : Disciplined keys server) {nonce : String} {row : NonceRow}
    (hunused : row.used = false) :
    Disciplined keys { server with nonces := insertIfAbsent server.nonces nonce row } where
  sound := fun running hmem => remembers_insertIfAbsent.sound (h.sound running hmem)
  earned := fun session hmem => remembers_insertIfAbsent.earned (h.earned session hmem)
  counted := by
    intro other
    have hcounted := h.counted other
    have hsame : spent (insertIfAbsent server.nonces nonce row) other =
        spent server.nonces other := spent_insertIfAbsent hunused other
    rw [← hsame] at hcounted
    exact hcounted

/-- A verification begins. -/
theorem Disciplined.begun (h : Disciplined keys server) {stage : Stage}
    (hsound : stage.Sound keys server.nonces request) (hweight : ∀ nonce, stage.weight nonce = 0) :
    Disciplined keys
      { server with verifications := server.verifications ++ [⟨request, stage⟩] } where
  sound := by
    intro running hmem
    obtain hold | hnew := List.mem_append.mp hmem
    · exact h.sound running hold
    · obtain rfl := List.mem_singleton.mp hnew
      exact hsound
  earned := h.earned
  counted := by
    intro nonce
    have hcounted := h.counted nonce
    unfold Server.pending at hcounted ⊢
    rw [List.map_append, List.sum_append, List.map_singleton, List.sum_singleton, hweight nonce]
    exact hcounted

theorem Disciplined.step (h : Disciplined keys server) {event : AuthEvent}
    (hunused : server.FindsUnused event) :
    Disciplined keys (server.step keys authNonceTtlMs jwtTtlSeconds event) := by
  cases event with
  | nonce wallet nonce now =>
      simp only [Server.step]
      split
      case isTrue => exact h.issued rfl
      case isFalse => exact h
  | verify request =>
      simp only [Server.step]
      split
      case isTrue =>
        cases hnonce : extractNonce request.message with
        | none => exact h.begun trivial fun _ => rfl
        | some nonce => exact h.begun (infix_of_extractNonce hnonce) fun _ => rfl
      case isFalse => exact h.begun trivial fun _ => rfl
  | statement position now jwtId =>
      simp only [Server.step]
      split
      case h_1 running hrunning =>
        apply h.next hrunning
        intro nonce presentedAt hstage
        apply hunused nonce
        simp [Server.consumes, hrunning, hstage]
      case h_2 => exact h
  | failed position =>
      simp only [Server.step]
      split
      case h_1 running hrunning => exact h.failed hrunning
      case h_2 => exact h

/-- As long as every verification finds its nonce unused, all is well. -/
theorem Disciplined.run (h : Disciplined keys server) {events : List AuthEvent}
    (hunused : server.AllFindUnused keys authNonceTtlMs jwtTtlSeconds events) :
    Disciplined keys (server.run keys authNonceTtlMs jwtTtlSeconds events) := by
  induction events generalizing server with
  | nil => exact h
  | cons event rest ih =>
      obtain ⟨hevent, hrest⟩ := hunused
      exact ih (h.step hevent) hrest

end Step

/-! ## Single use -/

/-- If no verification sets a nonce used that another has set used since, every nonce leads to
one session at most. -/
theorem nonce_used_once (keys : WalletKeys) (authNonceTtlMs jwtTtlSeconds : Nat)
    (events : List AuthEvent)
    (h : Server.launched.AllFindUnused keys authNonceTtlMs jwtTtlSeconds events) :
    UsedOnce keys (Server.launched.run keys authNonceTtlMs jwtTtlSeconds events) :=
  (Disciplined.launched.run h).usedOnce

/-! ## Two requests with one signature -/

namespace Sample

def publicKey : String := "025e5c"

def signature : String := "c0ffee"

def nonceDigits : String := String.ofList (List.replicate 64 'a')

def walletAddress : String := "ST2CY5V39NHDPWSXMW9QDT3HC3GD6Q6XX4CFRK9AG"

/-- The message, signed by the wallet. -/
def signedRequest : VerifyRequest where
  wallet := walletAddress
  publicKey := publicKey
  signature := signature
  message := "Wallet:\n" ++ walletAddress ++ "\n\nNonce:\n" ++ nonceDigits ++ "\n\nTimestamp:\n0"

/-- One key, and one signature of it. -/
def walletKeys : WalletKeys where
  getAddressFromPublicKey key := if key = publicKey then some walletAddress else none
  verifyMessageSignatureRsv message signed key :=
    some (message = signedRequest.message ∧ signed = signature ∧ key = publicKey)

/-- The statements of a verification, each when its turn comes. -/
def statementOf (position : Nat) (jwtId : String) : AuthEvent := .statement position 1000 jwtId

def alone : List AuthEvent :=
  .nonce walletAddress nonceDigits 0 :: .verify signedRequest ::
    List.replicate 5 (statementOf 0 "first")

/-- Two verifications, in turns. -/
def inTurns : List AuthEvent :=
  .nonce walletAddress nonceDigits 0 :: .verify signedRequest :: .verify signedRequest ::
    (List.replicate 5 [statementOf 0 "first", statementOf 1 "second"]).flatten

end Sample

/-- A wallet that verifies once gets its session. -/
theorem nonce_used_once_alone :
    (Server.launched.run Sample.walletKeys 300000 3600 Sample.alone).sessions.length = 1 ∧
      UsedOnce Sample.walletKeys
        (Server.launched.run Sample.walletKeys 300000 3600 Sample.alone) := by
  refine ⟨?_, nonce_used_once _ _ _ _ ?_⟩
  · decide +kernel
  · decide +kernel

/-- Two verifications with one signed message find the nonce unused, and both get a session. -/
theorem nonce_used_twice :
    ¬ ∀ (keys : WalletKeys) (authNonceTtlMs jwtTtlSeconds : Nat) (events : List AuthEvent),
      UsedOnce keys (Server.launched.run keys authNonceTtlMs jwtTtlSeconds events) := by
  intro h
  have honce := (h Sample.walletKeys 300000 3600 Sample.inTurns).once
  revert honce
  decide +kernel

end StxShield.Auth
