import StxShield.Sdk.Encryption

/-!
# What is encrypted is what is decrypted

A payload goes through decimal and hexadecimal text, JSON, the cipher and a binary frame.
Each of these is undone by its reader, so that the owner of the viewing key gets the
payload back as the sender made it.
-/

namespace StxShield.Sdk

open Library JavaScript

/-! ## Text -/

theorem trim_of_all {text : List Char} (h : ∀ c ∈ text, isWhitespace c = false) :
    trim text = text := by
  have hfront : text.dropWhile isWhitespace = text := by
    cases text with
    | nil => rfl
    | cons c rest => exact List.dropWhile_cons_of_neg (by simp [h c List.mem_cons_self])
  have hback : text.reverse.dropWhile isWhitespace = text.reverse := by
    cases hreverse : text.reverse with
    | nil => rfl
    | cons c rest =>
        have hmem : c ∈ text := List.mem_reverse.mp (hreverse ▸ List.mem_cons_self)
        exact List.dropWhile_cons_of_neg (by simp [h c hmem])
  unfold trim
  rw [hfront, hback, List.reverse_reverse]

/-- A character of a decimal numeral is its sign or a digit. -/
theorem textOf_char {x : Int} {c : Char} (h : c ∈ textOf 10 x) :
    c = '-' ∨ Json.isDigit c = true := by
  unfold textOf at h
  split at h
  case isTrue =>
    rcases List.mem_cons.mp h with rfl | hdigit
    · exact .inl rfl
    · exact .inr (Json.isDigit_of_mem_toDigits hdigit)
  case isFalse => exact .inr (Json.isDigit_of_mem_toDigits h)

theorem textOf_ne_nil (x : Int) : textOf 10 x ≠ [] := by
  unfold textOf
  split
  · exact List.cons_ne_nil _ _
  · exact Nat.toDigits_ne_nil

/-- What holds of the sign and of every digit holds all along a numeral. -/
theorem forall_textOf {P : Char → Prop} (hsign : P '-')
    (hdigits : ∀ c ∈ ['0', '1', '2', '3', '4', '5', '6', '7', '8', '9'], P c) (x : Int) :
    ∀ c ∈ textOf 10 x, P c := by
  intro c hc
  rcases textOf_char hc with rfl | hdigit
  · exact hsign
  · exact hdigits c (Json.digit_cases hdigit)

theorem signed_textOf (x : Int) :
    signed (textOf 10 x) = (if x < 0 then -1 else 1, Nat.toDigits 10 x.natAbs) := by
  unfold textOf
  split
  case isTrue => rfl
  case isFalse hnonneg =>
    have habs : x.toNat = x.natAbs := by omega
    rw [habs, Json.signed_toDigits]

/-- A big integer is read back as it was printed. -/
theorem bigInt_textOf (x : Int) : bigInt (String.ofList (textOf 10 x)) = .ok x := by
  have hplain : ∀ c ∈ textOf 10 x, isWhitespace c = false :=
    forall_textOf (by decide) (forall_of_all (by decide)) x
  have hletter : ∀ c ∈ ['x', 'X', 'o', 'O', 'b', 'B'], c ∉ textOf 10 x := by
    intro c hc hmem
    exact forall_textOf (P := (· ∉ ['x', 'X', 'o', 'O', 'b', 'B'])) (by decide)
      (forall_of_all (by decide)) x c hmem hc
  have hvalue : (if x < 0 then -1 else 1) * (x.natAbs : Int) = x := by
    split
    · omega
    · omega
  unfold bigInt
  rw [String.toList_ofList, trim_of_all hplain]
  have hsigned := signed_textOf x
  have hsome := textOf_ne_nil x
  revert hletter hsigned hsome
  generalize textOf 10 x = text
  intro hletter hsigned hsome
  split
  case h_1 => exact absurd rfl hsome
  case h_2 => exact absurd (by simp) (hletter 'x' (by decide))
  case h_3 => exact absurd (by simp) (hletter 'X' (by decide))
  case h_4 => exact absurd (by simp) (hletter 'o' (by decide))
  case h_5 => exact absurd (by simp) (hletter 'O' (by decide))
  case h_6 => exact absurd (by simp) (hletter 'b' (by decide))
  case h_7 => exact absurd (by simp) (hletter 'B' (by decide))
  case h_8 =>
    simp only [hsigned, Json.digits_value]
    exact congrArg Except.ok hvalue

theorem h2b_b2h (bytes : Bytes) : h2b (b2h bytes) = bytes := by
  have heven : ¬ (bytesToHex bytes).length % 2 = 1 := by
    rw [bytesToHex_length]
    omega
  have hunits : codeUnits (bytesToHex bytes) = bytesToHex bytes :=
    codeUnits_of_digits fun c => digitValue_lt_of_mem_bytesToHex
  simp only [h2b, b2h, hunits]
  rw [if_neg heven, parseBytes_bytesToHex]

/-! ## Payloads -/

/-- A payload of the first version: the position is a safe integer, and so is the number
of the asset, which is positive if there is one. -/
structure NotePayload.Valid (p : NotePayload) : Prop where
  version : p.version = notePayloadVersion
  position : ∃ n : Int, n.natAbs ≤ Json.maxSafeInteger ∧ p.treePosition = .finite n
  asset : ∀ id ∈ p.assetId, ∃ n : Nat, 0 < n ∧ n ≤ Json.maxSafeInteger ∧ id = .finite n

theorem reads_integer {n : Int} (hsafe : n.natAbs ≤ Json.maxSafeInteger) :
    Json.Reads (textOf 10 n) (.number (.finite n)) := by
  unfold textOf
  split
  case isTrue hneg =>
    have hvalue : (-(n.natAbs : Int)) = n := by omega
    have hreads := Json.reads_negative n.natAbs
    rwa [Json.numeral_negative hsafe, hvalue] at hreads
  case isFalse hnonneg =>
    have hvalue : ((n.toNat : Nat) : ℚ) = n := by
      have hcast : ((n.toNat : Nat) : Int) = n := Int.toNat_of_nonneg (by omega)
      exact_mod_cast hcast
    have hreads := Json.reads_toDigits n.toNat
    rwa [Json.numeral_toDigits (by omega), hvalue] at hreads

section Members

variable (E : Ciphers)

theorem jsonNumber_integer {n : Int} (hsafe : n.natAbs ≤ Json.maxSafeInteger) :
    jsonNumber E (.finite n) = (textOf 10 n, .number (.finite n)) := by
  have hsmall : n.natAbs < 10 ^ 21 := by
    have hbound : Json.maxSafeInteger < 10 ^ 21 := by decide
    omega
  have hinteger : ((n : ℚ).den = 1 ∧ (n : ℚ).num.natAbs < 10 ^ 21) := ⟨rfl, hsmall⟩
  unfold jsonNumber
  simp only [if_pos hinteger]
  rfl

theorem numberMember_readable {name : Char} {n : Int} (hname : Json.Plain name)
    (hsafe : n.natAbs ≤ Json.maxSafeInteger) : (numberMember E name (.finite n)).Readable where
  name := by
    intro c hc
    obtain rfl := List.mem_singleton.mp hc
    exact hname
  value := by
    unfold numberMember
    rw [jsonNumber_integer E hsafe]
    exact reads_integer hsafe

theorem numberMember_entry (name : Char) {n : Int} (hsafe : n.natAbs ≤ Json.maxSafeInteger) :
    (numberMember E name (.finite n)).entry =
      (String.ofList [name], .number (.finite n)) := by
  unfold numberMember Json.Member.entry
  rw [jsonNumber_integer E hsafe]

theorem stringMember_readable {name : Char} {text : List Char} (hname : Json.Plain name)
    (htext : ∀ c ∈ text, Json.Plain c) : (stringMember name text).Readable where
  name := by
    intro c hc
    obtain rfl := List.mem_singleton.mp hc
    exact hname
  value := Json.reads_quoted htext

instance (c : Char) : Decidable (Json.Plain c) :=
  inferInstanceAs (Decidable (c ≠ '\x22' ∧ c ≠ '\\' ∧ 32 ≤ c.toNat))

theorem plain_textOf (x : Int) : ∀ c ∈ textOf 10 x, Json.Plain c :=
  forall_textOf (by decide) (forall_of_all (by decide)) x

theorem plain_b2h (bytes : Bytes) : ∀ c ∈ b2h bytes, Json.Plain c := by
  intro c hc
  have hdigit := digitValue_lt_of_mem_bytesToHex hc
  refine ⟨?_, ?_, ?_⟩
  · rintro rfl
    exact absurd hdigit (by decide)
  · rintro rfl
    exact absurd hdigit (by decide)
  · by_contra hcontrol
    have hall : ∀ code < 32, ¬ digitValue (Char.ofNat code) < 16 := by decide
    refine hall c.toNat (by omega) ?_
    rwa [Char.ofNat_toNat]

variable {E} {p : NotePayload}

/-- Without an asset nothing is written of it; a positive number is written and read. -/
theorem NotePayload.Valid.assetMember_cases (hvalid : p.Valid) :
    (p.assetId = none ∧ assetMember E p.assetId = []) ∨
      ∃ n : Int, n.natAbs ≤ Json.maxSafeInteger ∧ p.assetId = some (.finite n) ∧
        assetMember E p.assetId = [numberMember E 'i' (.finite n)] := by
  cases hid : p.assetId with
  | none => exact .inl ⟨rfl, rfl⟩
  | some id =>
      obtain ⟨n, hpos, hsafe, rfl⟩ := hvalid.asset id hid
      have htruthy : (Value.number (.finite (n : ℚ))).isTruthy = true := by
        simp only [Value.isTruthy, decide_eq_true_eq]
        refine ⟨fun heq => (by cases heq), fun heq => ?_⟩
        have hzero := Number.finite.inj heq
        exact absurd (Nat.cast_eq_zero.mp hzero) (by omega)
      refine .inr ⟨n, hsafe, by rw [Int.cast_natCast], ?_⟩
      simp only [assetMember, htruthy, if_true, Int.cast_natCast]

theorem NotePayload.Valid.readable (hvalid : p.Valid) :
    ∀ member ∈ p.members E, member.Readable := by
  obtain ⟨position, hposition, htree⟩ := hvalid.position
  have hasset : ∀ member ∈ assetMember E p.assetId, member.Readable := by
    intro member hmember
    rcases hvalid.assetMember_cases (E := E) with ⟨-, hnone⟩ | ⟨n, hsafe, -, hone⟩
    · rw [hnone] at hmember
      exact absurd hmember List.not_mem_nil
    · rw [hone] at hmember
      obtain rfl := List.mem_singleton.mp hmember
      exact numberMember_readable E (by decide) hsafe
  have hversion : (numberMember E 'v' p.version).Readable := by
    rw [hvalid.version]
    exact numberMember_readable E (n := 1) (by decide) (by decide)
  have htreeReadable : (numberMember E 't' p.treePosition).Readable := by
    rw [htree]
    exact numberMember_readable E (by decide) hposition
  intro member hmember
  unfold NotePayload.members at hmember
  simp only [List.cons_append, List.nil_append, List.mem_cons] at hmember
  rcases hmember with rfl | rfl | rfl | rfl | rfl | rfl | rfl | hmember
  · exact hversion
  · exact stringMember_readable (by decide) (plain_textOf _)
  · exact stringMember_readable (by decide) (plain_textOf _)
  · exact stringMember_readable (by decide) (plain_textOf _)
  · exact stringMember_readable (by decide) (plain_textOf _)
  · exact stringMember_readable (by decide) (plain_b2h _)
  · exact htreeReadable
  · exact hasset member hmember

/-- The members by name: the payload's own data, and its asset if it has one. -/
theorem NotePayload.Valid.fields (hvalid : p.Valid) {o : Json.Parsed}
    (ho : o = .record ((p.members E).map Json.Member.entry)) :
    o.field "v" = .ok (.number p.version) ∧
      o.field "a" = .ok (.string (String.ofList (textOf 10 p.amount))) ∧
      o.field "b" = .ok (.string (String.ofList (textOf 10 p.blinding))) ∧
      o.field "s" = .ok (.string (String.ofList (textOf 10 p.ownerSk))) ∧
      o.field "n" = .ok (.string (String.ofList (textOf 10 p.nonce))) ∧
      o.field "c" = .ok (.string (String.ofList (b2h p.commitment))) ∧
      o.field "t" = .ok (.number p.treePosition) ∧
      o.field "i" = .ok ((p.assetId.map Value.number).getD .undefined) := by
  obtain ⟨position, hposition, htree⟩ := hvalid.position
  have hversion : (numberMember E 'v' p.version).entry = ("v", .number p.version) := by
    rw [hvalid.version]
    exact numberMember_entry E 'v' (n := 1) (by decide)
  have htreeEntry : (numberMember E 't' p.treePosition).entry = ("t", .number p.treePosition) := by
    rw [htree]
    exact numberMember_entry E 't' hposition
  have hstring : ∀ name text, (stringMember name text).entry =
      (String.ofList [name], .string (String.ofList text)) := fun _ _ => rfl
  rcases hvalid.assetMember_cases (E := E) with ⟨hid, hnone⟩ | ⟨n, hsafe, hid, hone⟩
  · subst ho
    rw [NotePayload.members, hnone, hid]
    simp only [List.append_nil, List.map_cons, List.map_nil, hversion, htreeEntry, hstring]
    exact ⟨rfl, rfl, rfl, rfl, rfl, rfl, rfl, rfl⟩
  · subst ho
    have hasset := numberMember_entry E 'i' hsafe
    rw [NotePayload.members, hone, hid]
    simp only [List.cons_append, List.nil_append, List.map_cons, List.map_nil, hversion,
      htreeEntry, hstring, hasset]
    exact ⟨rfl, rfl, rfl, rfl, rfl, rfl, rfl, rfl⟩

theorem except_ok_bind {ε α β : Type} (a : α) (next : α → Except ε β) :
    ((Except.ok a : Except ε α) >>= next) = next a := rfl

/-- A payload is read back as it was written. -/
theorem deserialize_serialize (hsound : E.Sound) (hvalid : p.Valid) :
    deserialize E (serialize E p) = .ok p := by
  have hdecoded : E.decodeText (serialize E p) = Json.stringify (p.members E) :=
    hsound.decodes _ (by simp [Json.stringify])
  have hparsed := Json.parse_stringify (hvalid.readable (E := E)) (by simp [NotePayload.members])
  obtain ⟨hv, ha, hb, hs, hn, hc, ht, hi⟩ := hvalid.fields (E := E) rfl
  have hasset : (if ((p.assetId.map Value.number).getD .undefined).isNullish then none
      else some ((p.assetId.map Value.number).getD .undefined).toNumber) = p.assetId := by
    cases p.assetId with
    | none => rfl
    | some id => rfl
  have hnumber : ∀ number, (Value.number number).toNumber = number := fun _ => rfl
  unfold deserialize
  rw [hdecoded, hparsed]
  simp only [hv, ha, hb, hs, hn, hc, ht, hi, except_ok_bind, toBigInt, bigInt_textOf, bytesOf,
    String.toList_ofList, h2b_b2h, hnumber, hasset]
  rfl

end Members

/-! ## The cipher -/

section Cipher

variable {E : Ciphers} {payload : NotePayload} {viewing ephemeral : Bytes}

/-- What is encrypted to a viewing key is decrypted with its secret. -/
theorem tryDecryptNote_encryptNote (hsound : E.Sound) (hvalid : payload.Valid)
    (hviewing : viewing.length = 32) (hephemeral : ephemeral.length = 32) :
    ∃ note, encryptNote E payload (E.publicKey viewing) ephemeral = .ok note ∧
      note.ephemeralPublicKey.length = 32 ∧ note.nonce.length = 24 ∧
      0 < note.ciphertext.length ∧ tryDecryptNote E note viewing = some payload := by
  obtain ⟨shared, hsender, hreceiver⟩ := hsound.agreement ephemeral viewing hephemeral hviewing
  refine ⟨_, by rw [encryptNote, hsender]; rfl, hsound.publicKey_length _ hephemeral, ?_, ?_, ?_⟩
  · rw [List.length_take, hsound.sha256_length]
    rfl
  · rw [hsound.tagged]
    omega
  · unfold tryDecryptNote
    simp only [hreceiver, except_ok_bind, hsound.decrypts, deserialize_serialize hsound hvalid]
    rw [if_neg (not_not.mpr hvalid.version)]

end Cipher

/-! ## The wire -/

theorem setBytes_append {front middle back source : Bytes} (h : source.length = middle.length) :
    setBytes source front.length (front ++ middle ++ back) = .ok (front ++ source ++ back) := by
  have hroom : ¬ (front ++ middle ++ back).length < front.length + source.length := by
    simp only [List.length_append]
    omega
  have htake : (front ++ middle ++ back).take front.length = front := by
    rw [List.append_assoc, List.take_left]
  have hdrop : (front ++ middle ++ back).drop (front.length + source.length) = back := by
    rw [h, ← List.length_append, List.drop_left]
  unfold setBytes
  rw [if_neg hroom, htake, hdrop]

/-- Fields of the widths they have on the wire are written one after another. -/
theorem encodeEncryptedNote_eq {note : EncryptedNote}
    (hkey : note.ephemeralPublicKey.length = 32) (hnonce : note.nonce.length = 24) :
    encodeEncryptedNote note =
      .ok (note.ephemeralPublicKey ++ note.nonce ++ note.ciphertext) := by
  obtain ⟨key, nonce, ciphertext⟩ := note
  have hout : List.replicate (32 + 24 + ciphertext.length) (0 : UInt8) =
      [] ++ List.replicate 32 0 ++ (List.replicate 24 0 ++ List.replicate ciphertext.length 0) := by
    simp only [List.nil_append, List.replicate_append_replicate, Nat.add_assoc]
  have hfirst : setBytes key 0 (List.replicate (32 + 24 + ciphertext.length) 0) =
      .ok ([] ++ key ++ (List.replicate 24 0 ++ List.replicate ciphertext.length 0)) := by
    rw [hout]
    exact setBytes_append (by rw [hkey, List.length_replicate])
  have hsecond : setBytes nonce key.length
      (key ++ List.replicate 24 0 ++ List.replicate ciphertext.length 0) =
        .ok (key ++ nonce ++ List.replicate ciphertext.length 0) :=
    setBytes_append (by rw [hnonce, List.length_replicate])
  have hthird : setBytes ciphertext (key ++ nonce).length
      (key ++ nonce ++ List.replicate ciphertext.length 0 ++ []) =
        .ok (key ++ nonce ++ ciphertext ++ []) :=
    setBytes_append (by rw [List.length_replicate])
  rw [List.nil_append, ← List.append_assoc] at hfirst
  rw [hkey] at hsecond
  rw [List.append_nil, List.append_nil, List.length_append, hkey, hnonce] at hthird
  simp only [encodeEncryptedNote, hfirst, except_ok_bind, hsecond, hthird]

theorem decodeEncryptedNote_append {key nonce ciphertext : Bytes} (hkey : key.length = 32)
    (hnonce : nonce.length = 24) (hsome : 0 < ciphertext.length) :
    decodeEncryptedNote (key ++ nonce ++ ciphertext) =
      .ok { ephemeralPublicKey := key, nonce := nonce, ciphertext := ciphertext } := by
  have hlong : ¬ (key ++ nonce ++ ciphertext).length < 57 := by
    simp only [List.length_append, hkey, hnonce]
    omega
  have hframe : 56 = (key ++ nonce).length := by rw [List.length_append, hkey, hnonce]
  unfold decodeEncryptedNote
  rw [if_neg hlong, hframe, List.drop_left, ← hkey, List.append_assoc, List.take_left,
    List.drop_left, ← hnonce, List.take_left]

/-- Decoding loses nothing of what is long enough. -/
theorem encodeEncryptedNote_decode {bytes : Bytes} (hlong : 57 ≤ bytes.length) :
    ∃ note, decodeEncryptedNote bytes = .ok note ∧ encodeEncryptedNote note = .ok bytes := by
  have hkey : (bytes.take 32).length = 32 := by rw [List.length_take]; omega
  have hnonce : ((bytes.drop 32).take 24).length = 24 := by
    rw [List.length_take, List.length_drop]
    omega
  refine ⟨_, by rw [decodeEncryptedNote, if_neg (Nat.not_lt.mpr hlong)], ?_⟩
  rw [encodeEncryptedNote_eq hkey hnonce, List.append_assoc]
  have hrest : bytes.drop 56 = (bytes.drop 32).drop 24 := by rw [List.drop_drop]
  rw [hrest, List.take_append_drop, List.take_append_drop]

/-- A payload that is encrypted to a viewing key, sent and received is the payload its
owner decrypts; one without an asset comes back as a native one.  A frame that is long
enough is not changed by decoding and encoding it. -/
theorem encrypted_notes_round_trip (E : Ciphers) (hsound : E.Sound) :
    (∀ (payload : NotePayload) (viewing ephemeral : Bytes), payload.Valid →
      viewing.length = 32 → ephemeral.length = 32 →
        ∃ note bytes, encryptNote E payload (E.publicKey viewing) ephemeral = .ok note ∧
          encodeEncryptedNote note = .ok bytes ∧ decodeEncryptedNote bytes = .ok note ∧
          tryDecryptNote E note viewing = some payload) ∧
      ∀ bytes : Bytes, 57 ≤ bytes.length →
        ∃ note, decodeEncryptedNote bytes = .ok note ∧ encodeEncryptedNote note = .ok bytes := by
  refine ⟨?_, fun bytes => encodeEncryptedNote_decode⟩
  intro payload viewing ephemeral hvalid hviewing hephemeral
  obtain ⟨note, hencrypted, hkey, hnonce, hsome, hopened⟩ :=
    tryDecryptNote_encryptNote hsound hvalid hviewing hephemeral
  exact ⟨note, _, hencrypted, encodeEncryptedNote_eq hkey hnonce,
    decodeEncryptedNote_append hkey hnonce hsome, hopened⟩

namespace Sample

/-- Keys that are their own secrets, added for a shared one, and a cipher that only tags. -/
def transparent : Ciphers where
  publicKey secret := secret
  sharedSecret secret other := .ok (List.zipWith (· + ·) secret other)
  sha256 input := (input ++ List.replicate 32 0).take 32
  encrypt _ _ plaintext := plaintext ++ List.replicate 16 0
  decrypt _ _ ciphertext := .ok (ciphertext.take (ciphertext.length - 16))
  decodeText bytes := ((String.fromUTF8? ⟨bytes.toArray⟩).getD "").toList
  printNumber _ := []

theorem transparent_sound : transparent.Sound where
  publicKey_length _ hlength := hlength
  sha256_length input := by
    show ((input ++ List.replicate 32 0).take 32).length = 32
    rw [List.length_take, List.length_append, List.length_replicate]
    omega
  agreement a b _ _ := by
    refine ⟨List.zipWith (· + ·) a b, rfl, ?_⟩
    show Except.ok (List.zipWith (· + ·) b a) = _
    rw [List.zipWith_comm_of_comm UInt8.add_comm]
  decrypts key nonce plaintext := by
    show Except.ok ((plaintext ++ List.replicate 16 0).take
      ((plaintext ++ List.replicate 16 (0 : UInt8)).length - 16)) = _
    rw [List.length_append, List.length_replicate, Nat.add_sub_cancel, List.take_left]
  tagged key nonce plaintext := by
    show (plaintext ++ List.replicate 16 0).length = _
    rw [List.length_append, List.length_replicate]
  decodes text _ := by
    have hvalid := (String.ofList text).isValidUTF8
    have hdecoded : String.fromUTF8? (String.ofList text).toByteArray = some (String.ofList text) :=
      dif_pos hvalid
    show ((String.fromUTF8? (String.ofList text).toByteArray).getD "").toList = text
    rw [hdecoded, Option.getD_some, String.toList_ofList]

/-- A payload with a negative amount, of asset 1. -/
def payload : NotePayload where
  version := notePayloadVersion
  amount := -5
  blinding := 2 ^ 247
  ownerSk := 0
  nonce := 1
  commitment := [0, 255]
  treePosition := .finite (-1 : Int)
  assetId := some (.finite (1 : Nat))

theorem payload_valid : payload.Valid where
  version := rfl
  position := ⟨-1, by decide, rfl⟩
  asset id hid := by
    obtain rfl := Option.some.inj hid
    exact ⟨1, by decide, by decide, rfl⟩

def viewing : Bytes := List.replicate 32 7

/-- A payload as somebody sends it who knows the viewing key's public half. -/
def sent (payload : NotePayload) : Bytes :=
  match encryptNote transparent payload (transparent.publicKey viewing) (List.replicate 32 9) with
  | .ok note => note.ephemeralPublicKey ++ note.nonce ++ note.ciphertext
  | .error _ => []

theorem decode_sent {payload : NotePayload} (hvalid : payload.Valid) :
    ∃ encrypted, decodeEncryptedNote (sent payload) = .ok encrypted ∧
      tryDecryptNote transparent encrypted viewing = some payload := by
  have hviewing : viewing.length = 32 := rfl
  have hephemeral : (List.replicate 32 (9 : UInt8)).length = 32 := rfl
  obtain ⟨note, hencrypted, hkey, hnonce, hsome, hopened⟩ :=
    tryDecryptNote_encryptNote transparent_sound hvalid hviewing hephemeral
  refine ⟨note, ?_, hopened⟩
  unfold sent
  rw [hencrypted]
  exact decodeEncryptedNote_append hkey hnonce hsome

/-- Five base units of the native asset. -/
def honestPayload : NotePayload where
  version := notePayloadVersion
  amount := 5
  blinding := 7
  ownerSk := 3
  nonce := 1
  commitment := []
  treePosition := .finite (0 : Int)
  assetId := none

/-- The same with an amount that no note has. -/
def forgedPayload : NotePayload := { honestPayload with amount := 10 ^ 30 }

theorem honestPayload_valid : honestPayload.Valid where
  version := rfl
  position := ⟨0, by decide, rfl⟩
  asset _ hid := by cases hid

theorem forgedPayload_valid : forgedPayload.Valid where
  version := rfl
  position := ⟨0, by decide, rfl⟩
  asset _ hid := by cases hid

end Sample

/-- A payload of asset 1 is sent to a viewing key and received. -/
theorem encrypted_notes_round_trip_payload :
    ∃ note bytes, encryptNote Sample.transparent Sample.payload
        (Sample.transparent.publicKey (List.replicate 32 7)) (List.replicate 32 9) = .ok note ∧
      encodeEncryptedNote note = .ok bytes ∧ decodeEncryptedNote bytes = .ok note ∧
      tryDecryptNote Sample.transparent note (List.replicate 32 7) = some Sample.payload :=
  (encrypted_notes_round_trip Sample.transparent Sample.transparent_sound).1 Sample.payload _ _
    Sample.payload_valid rfl rfl

end StxShield.Sdk
