import StxShield.Settings.Runs

/-!
# Where authority comes from

Whoever has a power in a state of a run was given it by a recorded call of somebody who had
one, and so on back to the deployer.
-/

namespace StxShield

open Library

/-! ## Who is named in the settings -/

def RegistrySettings.Names (s : RegistrySettings) (who : Principal) : Prop :=
  who = s.owner ∨ s.pendingOwner = some who ∨
    (∃ role, (s.administrators.lookup (who, role)).isSome) ∨ (s.authorizedCallers.lookup who).isSome

def VerifierSettings.Names (s : VerifierSettings) (who : Principal) : Prop :=
  (s.relayers.lookup who).isSome

def Settings.Names (s : Settings) (who : Principal) : Prop :=
  s.registry.Names who ∨ s.zkVerifier.Names who ∨ s.sip10ZkVerifier.Names who ∨
    s.authorizedPool = some who

theorem Settings.names_owner (s : Settings) : s.Names s.registry.owner := .inl (.inl rfl)

variable {s : Settings} {who deployer : Principal} {ctx : Ctx} {call : Call}

theorem isSome_of_getD {value : Option Bool} (h : value.getD false = true) : value.isSome := by
  cases value with
  | none => cases h
  | some _ => rfl

theorem RegistrySettings.IsAdmin.names {s : RegistrySettings} {role : Nat}
    (h : s.IsAdmin who role) : s.Names who := by
  rcases h with howner | hrole
  · exact .inl howner
  · exact .inr (.inr (.inl ⟨role, isSome_of_getD hrole⟩))

theorem RegistrySettings.Authorizes.names {s : RegistrySettings} (h : s.Authorizes who) :
    s.Names who :=
  .inr (.inr (.inr (isSome_of_getD h)))

theorem VerifierSettings.Enables.names {s : VerifierSettings} (h : s.Enables who) :
    s.Names who := by
  have hsome := isSome_of_getD h
  rwa [Option.isSome_map] at hsome

theorem Settings.Grants.names {power : Power} (hpower : power ≠ .anyone)
    (h : s.Grants who power) : s.Names who := by
  cases power with
  | anyone => exact absurd rfl hpower
  | owner => exact .inl (.inl h)
  | admin role => exact .inl (RegistrySettings.IsAdmin.names h)
  | keyAdmin => exact .inl (h.elim RegistrySettings.IsAdmin.names RegistrySettings.IsAdmin.names)
  | pendingOwner => exact .inl (.inr (.inl h))
  | authorizedCaller => exact .inl (RegistrySettings.Authorizes.names h)
  | rootUpdater => exact .inl (h.elim RegistrySettings.Authorizes.names .inl)
  | relayer =>
      exact h.elim (fun h => .inl h.names) fun h => .inr (.inl h.names)
  | sip10Relayer =>
      exact h.elim (fun h => .inl h.names) fun h => .inr (.inr (.inl h.names))
  | authorizedPool => exact .inr (.inr (.inr h.symm))

/-! ## One call -/

section Maps

variable {K V : Type} [DecidableEq K] {map : DataMap K V} {key other : K} {value : V}

theorem isSome_lookup_insert (h : ((map.insert key value).lookup other).isSome) :
    (map.lookup other).isSome ∨ key = other := by
  by_cases heq : other = key
  · exact .inr heq.symm
  · rw [AList.lookup_insert_ne heq] at h
    exact .inl h

theorem isSome_lookup_erase (h : ((map.erase key).lookup other).isSome) :
    (map.lookup other).isSome := by
  by_cases heq : other = key
  · rw [heq, AList.lookup_erase] at h
    cases h
  · rwa [AList.lookup_erase_ne heq] at h

end Maps

/-- A call names whom it entrusts, and an accepted successor. -/
theorem RegistrySettings.names_configure {s : RegistrySettings} {caller : Principal}
    {call : PrivacyRegistry.Call} (h : (s.configure caller call).Names who) :
    s.Names who ∨ (Call.privacyRegistry call).entrusts = some who ∨
      call = .acceptOwnership ∧ who = caller := by
  cases call with
  | grantRole account role =>
      rcases h with howner | hpending | ⟨held, hrole⟩ | hcaller
      · exact .inl (.inl howner)
      · exact .inl (.inr (.inl hpending))
      · rcases isSome_lookup_insert hrole with hold | heq
        · exact .inl (.inr (.inr (.inl ⟨held, hold⟩)))
        · exact .inr (.inl (congrArg (some ∘ Prod.fst) heq))
      · exact .inl (.inr (.inr (.inr hcaller)))
  | revokeRole account role =>
      rcases h with howner | hpending | ⟨held, hrole⟩ | hcaller
      · exact .inl (.inl howner)
      · exact .inl (.inr (.inl hpending))
      · exact .inl (.inr (.inr (.inl ⟨held, isSome_lookup_erase hrole⟩)))
      · exact .inl (.inr (.inr (.inr hcaller)))
  | addAuthorizedCaller added =>
      rcases h with howner | hpending | hrole | hcaller
      · exact .inl (.inl howner)
      · exact .inl (.inr (.inl hpending))
      · exact .inl (.inr (.inr (.inl hrole)))
      · rcases isSome_lookup_insert hcaller with hold | heq
        · exact .inl (.inr (.inr (.inr hold)))
        · exact .inr (.inl (congrArg some heq))
  | removeAuthorizedCaller removed =>
      rcases h with howner | hpending | hrole | hcaller
      · exact .inl (.inl howner)
      · exact .inl (.inr (.inl hpending))
      · exact .inl (.inr (.inr (.inl hrole)))
      · exact .inl (.inr (.inr (.inr (isSome_lookup_erase hcaller))))
  | transferOwnership newOwner =>
      rcases h with howner | hpending | hothers
      · exact .inl (.inl howner)
      · exact .inr (.inl hpending)
      · exact .inl (.inr (.inr hothers))
  | acceptOwnership =>
      rcases h with howner | hpending | hothers
      · exact .inr (.inr ⟨rfl, howner⟩)
      · cases hpending
      · exact .inl (.inr (.inr hothers))
  | cancelOwnershipTransfer =>
      rcases h with howner | hpending | hothers
      · exact .inl (.inl howner)
      · cases hpending
      · exact .inl (.inr (.inr hothers))
  | _ => exact .inl h

theorem VerifierSettings.names_configure {s : VerifierSettings} {height : Nat}
    {call : Verifier.Call} (h : (s.configure height call).Names who) :
    s.Names who ∨ (Call.zkVerifier call).entrusts = some who := by
  cases call with
  | addRelayer added =>
      rcases isSome_lookup_insert h with hold | heq
      · exact .inl hold
      · exact .inr (congrArg some heq)
  | removeRelayer removed => exact .inl (isSome_lookup_erase h)
  | setVerificationKeyStatus proofType circuitVersion enabled =>
      cases hkey : s.verificationKeys.lookup (proofType, circuitVersion) with
      | none =>
          simp only [configure, hkey] at h
          exact .inl h
      | some vkey =>
          simp only [configure, hkey] at h
          exact .inl h
  | _ => exact .inl h

theorem Settings.names_configure (h : (s.configure ctx call).Names who) :
    s.Names who ∨ call.entrusts = some who ∨
      call = .privacyRegistry .acceptOwnership ∧ who = ctx.contractCaller := by
  cases call with
  | privacyRegistry call =>
      rcases h with hregistry | hothers
      · rcases RegistrySettings.names_configure hregistry with hold | hentrusts | ⟨rfl, hwho⟩
        · exact .inl (.inl hold)
        · exact .inr (.inl hentrusts)
        · exact .inr (.inr ⟨rfl, hwho⟩)
      · exact .inl (.inr hothers)
  | zkVerifier call =>
      rcases h with hregistry | hverifier | hothers
      · exact .inl (.inl hregistry)
      · rcases VerifierSettings.names_configure hverifier with hold | hentrusts
        · exact .inl (.inr (.inl hold))
        · exact .inr (.inl hentrusts)
      · exact .inl (.inr (.inr hothers))
  | sip10ZkVerifier call =>
      cases call with
      | common call =>
          rcases h with hregistry | hstx | hverifier | hpool
          · exact .inl (.inl hregistry)
          · exact .inl (.inr (.inl hstx))
          · rcases VerifierSettings.names_configure hverifier with hold | hentrusts
            · exact .inl (.inr (.inr (.inl hold)))
            · refine .inr (.inl ?_)
              cases call <;> exact hentrusts
          · exact .inl (.inr (.inr (.inr hpool)))
      | setCircuitVersion => exact .inl h
      | setAuthorizedPool pool =>
          rcases h with hregistry | hstx | hverifier | hpool
          · exact .inl (.inl hregistry)
          · exact .inl (.inr (.inl hstx))
          · exact .inl (.inr (.inr (.inl hverifier)))
          · exact .inr (.inl hpool)
  | protocolFees call => cases call <;> exact .inl h
  | sip10ProtocolFees call => cases call <;> exact .inl h
  | privacyPool call => cases call <;> exact .inl h
  | splitMergeManager call => cases call <;> exact .inl h
  | sip10Pool call => cases call <;> exact .inl h
  | _ => exact .inl h

/-! ## Runs -/

theorem Entrusted.append {earlier : List Accepted} (h : Entrusted deployer earlier who)
    (during : List Accepted) : Entrusted deployer (during ++ earlier) who := by
  induction during with
  | nil => exact h
  | cons call rest ih => exact .inl ih

/-- Handing a power on takes one. -/
theorem Call.power_of_entrusts (h : call.entrusts = some who) : call.power ≠ .anyone := by
  unfold Call.entrusts at h
  split at h
  all_goals first
    | exact fun hpower => Power.noConfusion hpower
    | cases h

/-- Every account the settings name is entrusted, and so was every caller of a function that
asks for a power. -/
structure Descends (deployer : Principal) (calls : List Accepted) (s : Settings) : Prop where
  named : ∀ who, s.Names who → Entrusted deployer calls who
  called : ∀ later ctx call earlier, calls = later ++ (ctx, call) :: earlier →
    call.power ≠ .anyone → Entrusted deployer earlier ctx.contractCaller

theorem descends_deployed : Descends deployer [] (.deployed deployer) where
  named who h := by
    rcases h with (howner | hpending | ⟨role, hrole⟩ | hcaller) | hrelayer | hrelayer | hpool
    · exact howner
    all_goals first
      | cases hpending
      | cases hrole
      | cases hcaller
      | cases hrelayer
      | cases hpool
  called later ctx call earlier h := by
    cases later <;> cases h

/-- One more call keeps this up: its caller was named when it started. -/
theorem Descends.accepted {earlier during : List Accepted} {s s' : Settings}
    (hbefore : Descends deployer earlier s)
    (hgrants : s.Grants ctx.contractCaller call.power)
    (hduring : Descends deployer (during ++ earlier) s') :
    Descends deployer ((ctx, call) :: (during ++ earlier)) (s'.configure ctx call) := by
  have hcaller (hpower : call.power ≠ .anyone) :
      Entrusted deployer (during ++ earlier) ctx.contractCaller :=
    (hbefore.named _ (hgrants.names hpower)).append during
  refine ⟨fun who hnamed => ?_, fun later ctx' call' earlier' hsplit hpower => ?_⟩
  · rcases Settings.names_configure hnamed with hold | hentrusts | ⟨rfl, rfl⟩
    · exact .inl (hduring.named who hold)
    · exact .inr ⟨hentrusts, hcaller (Call.power_of_entrusts hentrusts)⟩
    · exact .inl (hcaller fun hpower => Power.noConfusion hpower)
  · cases later with
    | nil =>
        cases hsplit
        exact hcaller hpower
    | cons head later =>
        obtain ⟨-, hrest⟩ := List.cons.inj hsplit
        exact hduring.called later ctx' call' earlier' hrest hpower

theorem Governed.descends {calls : List Accepted} {s : Settings}
    (h : Governed (.deployed deployer) calls s) : Descends deployer calls s := by
  induction h with
  | start => exact descends_deployed
  | accepted _ hgrants _ _ hbefore hduring => exact hbefore.accepted hgrants hduring

/-- As long as the deployer makes no call, nobody else is entrusted. -/
theorem Entrusted.eq_deployer {calls : List Accepted}
    (hidle : ∀ call ∈ calls, call.1.contractCaller ≠ deployer) (h : Entrusted deployer calls who) :
    who = deployer := by
  induction calls generalizing who with
  | nil => exact h
  | cons call earlier ih =>
      have hearlier := fun call hcall => hidle call (List.mem_cons_of_mem _ hcall)
      rcases h with hold | ⟨-, hcaller⟩
      · exact ih hearlier hold
      · exact absurd (ih hearlier hcaller) (hidle call List.mem_cons_self)

theorem replay_of_anyone {start : Settings} {calls : List Accepted}
    (h : ∀ call ∈ calls, call.2.power = .anyone) : replay start calls = start := by
  induction calls with
  | nil => rfl
  | cons call earlier ih =>
      have hearlier : replay start earlier = start :=
        ih fun call hcall => h call (List.mem_cons_of_mem _ hcall)
      calc replay start (call :: earlier)
          = (replay start earlier).configure call.1 call.2 := rfl
        _ = start.configure call.1 call.2 := by rw [hearlier]
        _ = start := start.configure_of_anyone call.1 (h call List.mem_cons_self)

/-- In every run, each call of a function that asks for a power was made by an account that
the deployer had entrusted, itself or through others; and until the deployer makes a call the
settings are those of the deployment. -/
theorem authority_descends {env : Env} {w : World} {stx : Principal → Nat}
    {ledgers : Principal → TokenLedger}
    (hrun : Continues env (World.deployed deployer stx ledgers) w) :
    Descends deployer (accepted w.history) w.settings ∧
      ((∀ call ∈ accepted w.history, call.1.contractCaller ≠ deployer) →
        w.settings = .deployed deployer) := by
  have hgoverned : Governed (.deployed deployer) (accepted w.history) w.settings :=
    hrun.follows.governed .start
  refine ⟨hgoverned.descends, fun hidle => hgoverned.eq_replay.trans (replay_of_anyone ?_)⟩
  rintro ⟨ctx, call⟩ hmem
  by_contra hpower
  obtain ⟨later, earlier, hsplit⟩ := List.append_of_mem hmem
  have hcaller := hgoverned.descends.called later ctx call earlier hsplit hpower
  have hearlier (call : Accepted) (hcall : call ∈ earlier) : call.1.contractCaller ≠ deployer :=
    hidle call (hsplit ▸ List.mem_append_right _ (List.mem_cons_of_mem _ hcall))
  exact hidle (ctx, call) hmem (hcaller.eq_deployer hearlier)

/-- The successor was entrusted by the deployer's call. -/
theorem authority_descends_succeeded :
    Sample.succeeded.settings.Names Sample.alice ∧
      Entrusted Sample.owner (accepted Sample.succeeded.history) Sample.alice := by
  have howner : Sample.succeeded.settings.registry.owner = Sample.alice := by decide +kernel
  have hrun := Sample.succeeded_continues
  generalize Sample.succeeded = w at howner hrun ⊢
  have hnamed : w.settings.Names Sample.alice := howner ▸ w.settings.names_owner
  exact ⟨hnamed, (authority_descends hrun).1.named Sample.alice hnamed⟩

end StxShield
