import StxShield.Protocol.Runs
import StxShield.Security.Solvency

/-!
# The directory of assets

Circuits and notes commit to an asset for ever, so the registry's two maps are
inverse to each other and stay so: ids are handed out in order, once, and no
function removes an entry or changes the token of one.
-/

namespace StxShield

open Library Exec World

namespace AssetRegistry

/-- What the storage always says of the assets it has registered. -/
structure Directory (assets : AssetRegistry) : Prop where
  /-- The two maps are inverse to each other. -/
  inverse : ∀ id token,
    (∃ asset, assets.assets.lookup id = some asset ∧ asset.token = token) ↔
      assets.principalToId.lookup token = some id
  ids : ∀ id, id ∈ assets.assets ↔ 1 ≤ id ∧ id ≤ assets.assetCount
  next : assets.nextAssetId = assets.assetCount + 1
  limits : ∀ id asset, assets.assets.lookup id = some asset →
    validLimits asset.minShield asset.maxShield asset.minNote asset.maxNote
  fees : ∀ id feeType, id ∈ assets.assets → isValidFeeType feeType →
    ∃ config, assets.assetFeeConfigs.lookup (id, feeType) = some config

/-- What an earlier storage says of its assets, a later one says too. -/
structure Extends (earlier later : AssetRegistry) : Prop where
  ids : ∀ token id, earlier.principalToId.lookup token = some id →
    later.principalToId.lookup token = some id
  assets : ∀ id asset, earlier.assets.lookup id = some asset →
    ∃ asset', later.assets.lookup id = some asset' ∧ asset'.token = asset.token ∧
      asset'.decimals = asset.decimals
  /-- A deprecated asset is never modified again, nor are its fees. -/
  deprecated : ∀ id asset, earlier.assets.lookup id = some asset → asset.status = .deprecated →
    later.assets.lookup id = some asset ∧ ∀ feeType,
      later.assetFeeConfigs.lookup (id, feeType) = earlier.assetFeeConfigs.lookup (id, feeType)

namespace Extends

variable {first second third : AssetRegistry}

theorem refl (assets : AssetRegistry) : Extends assets assets where
  ids _ _ h := h
  assets _ asset h := ⟨asset, h, rfl, rfl⟩
  deprecated _ _ h _ := ⟨h, fun _ => rfl⟩

theorem trans (h : Extends first second) (h' : Extends second third) : Extends first third where
  ids token id hid := h'.ids token id (h.ids token id hid)
  assets id asset hasset := by
    obtain ⟨mid, hmid, htoken, hdecimals⟩ := h.assets id asset hasset
    obtain ⟨last, hlast, htoken', hdecimals'⟩ := h'.assets id mid hmid
    exact ⟨last, hlast, htoken'.trans htoken, hdecimals'.trans hdecimals⟩
  deprecated id asset hasset hstatus := by
    obtain ⟨hmid, hfees⟩ := h.deprecated id asset hasset hstatus
    obtain ⟨hlast, hfees'⟩ := h'.deprecated id asset hmid hstatus
    exact ⟨hlast, fun feeType => (hfees' feeType).trans (hfees feeType)⟩

end Extends

/-! ## Administration -/

/-- What administration can have done. -/
inductive Administered (assets : AssetRegistry) : AssetRegistry → Prop where
  | edit {id : Nat} {asset edited : Asset} (hasset : assets.assets.lookup id = some asset)
      (hstatus : asset.status ≠ .deprecated) (htoken : edited.token = asset.token)
      (hdecimals : edited.decimals = asset.decimals)
      (hlimits : validLimits asset.minShield asset.maxShield asset.minNote asset.maxNote →
        validLimits edited.minShield edited.maxShield edited.minNote edited.maxNote) :
      Administered assets { assets with assets := assets.assets.insert id edited }
  | fee {id feeType : Nat} {asset : Asset} {config : FeeConfig}
      (hasset : assets.assets.lookup id = some asset) (hstatus : asset.status ≠ .deprecated) :
      Administered assets
        { assets with assetFeeConfigs := assets.assetFeeConfigs.insert (id, feeType) config }

variable {registry : PrivacyRegistry} {ctx : Ctx} {assets assets' : AssetRegistry} {u : Unit}
  {args : RegisterAssetArgs}

theorem administer_administered {call : Call}
    (h : administer registry ctx call assets = .ok (u, assets')) : Administered assets assets' := by
  cases call with
  | registerAsset args => cases h
  | setAssetEnabled assetId enabled =>
      simp only [administer, setAssetEnabled, ↓bind_ok, ↓exists_read, ↓exists_unwrap,
        ↓exists_require, modify_ok] at h
      obtain ⟨asset, hasset, -, hstatus, -, rfl⟩ := h
      exact .edit hasset hstatus rfl rfl id
  | deprecateAsset assetId =>
      simp only [administer, deprecateAsset, ↓bind_ok, ↓exists_read, ↓exists_unwrap,
        ↓exists_require, modify_ok] at h
      obtain ⟨asset, hasset, -, hstatus, rfl⟩ := h
      exact .edit hasset hstatus rfl rfl id
  | setAssetLimits assetId minShield maxShield minNote maxNote =>
      simp only [administer, setAssetLimits, ↓bind_ok, ↓exists_read, ↓exists_unwrap,
        ↓exists_require, modify_ok] at h
      obtain ⟨asset, hasset, -, hstatus, hlimits, rfl⟩ := h
      exact .edit hasset hstatus rfl rfl fun _ => hlimits
  | setAssetFeeConfig assetId feeType bps flat enabled =>
      simp only [administer, setAssetFeeConfig, ↓bind_ok, ↓exists_read, ↓exists_unwrap,
        ↓exists_require, modify_ok] at h
      obtain ⟨asset, hasset, -, hstatus, -, -, -, rfl⟩ := h
      exact .fee hasset hstatus
  | setAssetFeeRecipient assetId feeRecipient =>
      simp only [administer, setAssetFeeRecipient, ↓bind_ok, ↓exists_read, ↓exists_unwrap,
        ↓exists_require, modify_ok] at h
      obtain ⟨asset, hasset, -, hstatus, -, rfl⟩ := h
      exact .edit hasset hstatus rfl rfl id

theorem Administered.extends (h : Administered assets assets') : Extends assets assets' := by
  cases h with
  | @edit id asset edited hasset hstatus htoken hdecimals =>
      refine ⟨fun _ _ h => h, fun other found hfound => ?_, fun other found hfound hdeprecated => ?_⟩
      · by_cases heq : other = id
        · subst heq
          obtain rfl := Option.some.inj (hfound.symm.trans hasset)
          exact ⟨edited, AList.lookup_insert _, htoken, hdecimals⟩
        · exact ⟨found, (AList.lookup_insert_ne heq).trans hfound, rfl, rfl⟩
      · have hne : other ≠ id := by
          rintro rfl
          obtain rfl := Option.some.inj (hfound.symm.trans hasset)
          exact hstatus hdeprecated
        exact ⟨(AList.lookup_insert_ne hne).trans hfound, fun _ => rfl⟩
  | @fee id feeType asset config hasset hstatus =>
      refine ⟨fun _ _ h => h, fun _ found h => ⟨found, h, rfl, rfl⟩,
        fun other found hfound hdeprecated => ⟨hfound, fun otherType => ?_⟩⟩
      have hne : (other, otherType) ≠ (id, feeType) := by
        rintro ⟨⟩
        obtain rfl := Option.some.inj (hfound.symm.trans hasset)
        exact hstatus hdeprecated
      exact AList.lookup_insert_ne hne

/-- An edited record keeps its place in the directory. -/
theorem Directory.administered (hdir : Directory assets) (h : Administered assets assets') :
    Directory assets' := by
  cases h with
  | @edit id asset edited hasset hstatus htoken hdecimals hlimits =>
      have hmem (other : Nat) : other ∈ assets.assets.insert id edited ↔ other ∈ assets.assets := by
        rw [AList.mem_insert]
        exact or_iff_right_of_imp fun heq =>
          heq ▸ DataMap.mem_iff_lookup.mpr ⟨asset, hasset⟩
      refine ⟨fun other token => ?_, fun other => (hmem other).trans (hdir.ids other), hdir.next,
        fun other found hfound => ?_, fun other feeType hother =>
          hdir.fees other feeType ((hmem other).mp hother)⟩
      · rw [← hdir.inverse other token]
        by_cases heq : other = id
        · subst heq
          simp [hasset, htoken]
        · simp [AList.lookup_insert_ne heq]
      · by_cases heq : other = id
        · subst heq
          obtain rfl := Option.some.inj ((AList.lookup_insert _).symm.trans hfound)
          exact hlimits (hdir.limits other asset hasset)
        · exact hdir.limits other found ((AList.lookup_insert_ne heq).symm.trans hfound)
  | @fee id feeType asset config hasset hstatus =>
      refine { hdir with fees := fun other otherType hother hvalid => ?_ }
      by_cases heq : (other, otherType) = (id, feeType)
      · exact ⟨config, heq ▸ AList.lookup_insert _⟩
      · obtain ⟨found, hfound⟩ := hdir.fees other otherType hother hvalid
        exact ⟨found, (AList.lookup_insert_ne heq).trans hfound⟩

/-! ## Registration -/

/-- The storage after `args` took the next id. -/
def registered (assets : AssetRegistry) (args : RegisterAssetArgs) : AssetRegistry :=
  withAsset assets assets.nextAssetId args (assets.nextAssetId + 1) (assets.assetCount + 1)

/-- The new asset has a fee of each type, and the fees of the others are kept. -/
theorem fee_registered (id feeType : Nat) :
    (registered assets args).assetFeeConfigs.lookup (id, feeType) =
      if id = assets.nextAssetId ∧ isValidFeeType feeType then some .free
      else assets.assetFeeConfigs.lookup (id, feeType) := by
  unfold registered withAsset
  by_cases hid : id = assets.nextAssetId
  · subst hid
    by_cases hvalid : isValidFeeType feeType
    · rw [if_pos ⟨rfl, hvalid⟩]
      rcases hvalid with rfl | rfl | rfl | rfl | rfl <;>
        simp [feeTypeShield, feeTypeTransfer, feeTypeWithdrawal, feeTypeSplit, feeTypeMerge]
    · rw [if_neg fun h => hvalid h.2]
      unfold isValidFeeType at hvalid
      simp only [not_or] at hvalid
      simp [AList.lookup_insert_ne, hvalid]
  · rw [if_neg fun h => hid h.1]
    simp [AList.lookup_insert_ne, hid]

theorem asset_registered_ne {id : Nat} (hne : id ≠ assets.nextAssetId) :
    (registered assets args).assets.lookup id = assets.assets.lookup id :=
  AList.lookup_insert_ne hne

theorem id_registered_ne {token : Principal} (hne : token ≠ args.token) :
    (registered assets args).principalToId.lookup token = assets.principalToId.lookup token :=
  AList.lookup_insert_ne hne

namespace Directory

variable (hdir : Directory assets)
include hdir

/-- The next id is new. -/
theorem lookup_next : assets.assets.lookup assets.nextAssetId = none := by
  by_contra hsome
  obtain ⟨asset, hasset⟩ := Option.ne_none_iff_exists'.mp hsome
  have hrange := (hdir.ids _).mp (DataMap.mem_iff_lookup.mpr ⟨asset, hasset⟩)
  have hnext := hdir.next
  omega

theorem ne_next {id : Nat} {asset : Asset} (hasset : assets.assets.lookup id = some asset) :
    id ≠ assets.nextAssetId := by
  rintro rfl
  rw [hdir.lookup_next] at hasset
  cases hasset

theorem registered_extends (hfresh : assets.principalToId.lookup args.token = none) :
    Extends assets (registered assets args) where
  ids token id hid := by
    have hne : token ≠ args.token := by
      rintro rfl
      rw [hfresh] at hid
      cases hid
    exact (id_registered_ne hne).trans hid
  assets id asset hasset := ⟨asset, (asset_registered_ne (hdir.ne_next hasset)).trans hasset, rfl, rfl⟩
  deprecated id asset hasset _ := by
    refine ⟨(asset_registered_ne (hdir.ne_next hasset)).trans hasset, fun feeType => ?_⟩
    rw [fee_registered, if_neg fun h => hdir.ne_next hasset h.1]

theorem registered (hfresh : assets.principalToId.lookup args.token = none)
    (hlimits : validLimits args.minShield args.maxShield args.minNote args.maxNote) :
    Directory (AssetRegistry.registered assets args) where
  inverse id token := by
    by_cases hid : id = assets.nextAssetId
    · subst hid
      by_cases htoken : token = args.token
      · subst htoken
        simp [AssetRegistry.registered, withAsset]
      · have hother : assets.principalToId.lookup token ≠ some assets.nextAssetId := by
          intro hsame
          obtain ⟨asset, hasset, -⟩ := (hdir.inverse _ _).mpr hsame
          exact hdir.ne_next hasset rfl
        rw [id_registered_ne htoken]
        simp [AssetRegistry.registered, withAsset, hother, Ne.symm htoken]
    · rw [asset_registered_ne hid, hdir.inverse id token]
      by_cases htoken : token = args.token
      · subst htoken
        simp [AssetRegistry.registered, withAsset, hfresh, Ne.symm hid]
      · rw [id_registered_ne htoken]
  ids id := by
    have hnext := hdir.next
    change id ∈ assets.assets.insert _ _ ↔ 1 ≤ id ∧ id ≤ assets.assetCount + 1
    rw [AList.mem_insert, hdir.ids id]
    omega
  next := congrArg (· + 1) hdir.next
  limits id asset hasset := by
    by_cases hid : id = assets.nextAssetId
    · subst hid
      obtain rfl := Option.some.inj ((AList.lookup_insert _).symm.trans hasset)
      exact hlimits
    · exact hdir.limits id asset ((asset_registered_ne hid).symm.trans hasset)
  fees id feeType hmem hvalid := by
    rw [fee_registered]
    by_cases hid : id = assets.nextAssetId
    · exact ⟨.free, if_pos ⟨hid, hvalid⟩⟩
    · rw [if_neg fun h => hid h.1]
      refine hdir.fees id feeType ?_ hvalid
      exact (AList.mem_insert _).mp hmem |>.resolve_left hid

end Directory

theorem directory_deployed : Directory .deployed where
  inverse id token := by simp [deployed]
  ids id := by
    simp only [deployed, AList.notMem_empty, false_iff]
    omega
  next := rfl
  limits id asset h := by cases h
  fees id feeType h := absurd h (AList.notMem_empty id)

end AssetRegistry

/-! ## Runs -/

variable {env : Env} {w w' : World}

/-- The directory stays one, and extends what it was. -/
def KeepsDirectory (w w' : World) : Prop :=
  AssetRegistry.Directory w.assetRegistry →
    AssetRegistry.Directory w'.assetRegistry ∧ AssetRegistry.Extends w.assetRegistry w'.assetRegistry

theorem keepsDirectory_refl (w : World) : KeepsDirectory w w := fun hdir => ⟨hdir, .refl _⟩

theorem keepsDirectory_trans {u v w : World} (huv : KeepsDirectory u v)
    (hvw : KeepsDirectory v w) : KeepsDirectory u w := by
  intro hdir
  obtain ⟨hmid, hbefore⟩ := huv hdir
  obtain ⟨hlast, hafter⟩ := hvw hmid
  exact ⟨hlast, hbefore.trans hafter⟩

/-- Nothing but the asset registry's own functions touches the directory. -/
theorem keepsDirectory_of_eq (h : w'.assetRegistry = w.assetRegistry) : KeepsDirectory w w' := by
  intro hdir
  rw [h]
  exact ⟨hdir, .refl _⟩

theorem RegistersAsset.keepsDirectory {args : RegisterAssetArgs} (h : RegistersAsset args w w') :
    KeepsDirectory w w' := by
  intro hdir
  rw [h.written]
  exact ⟨hdir.registered h.fresh h.limits, hdir.registered_extends h.fresh⟩

theorem keepsDirectory_kept : KeptByRuns KeepsDirectory where
  refl := keepsDirectory_refl
  trans := keepsDirectory_trans
  store _ _ _ _ := keepsDirectory_of_eq rfl
  registers h := h.keepsDirectory
  called _ _ := keepsDirectory_of_eq rfl
  writes h := by
    cases h with
    | assetRegistry _ hrun =>
        intro hdir
        have hadministered := AssetRegistry.administer_administered hrun
        exact ⟨hdir.administered hadministered, hadministered.extends⟩
    | noteManager hrun =>
        obtain ⟨registry, manager, rfl, -⟩ := NoteManager.execute_frame hrun
        exact keepsDirectory_of_eq rfl
    | _ => exact keepsDirectory_of_eq rfl

theorem Reachable.directory (h : Reachable env w) : AssetRegistry.Directory w.assetRegistry := by
  obtain ⟨deployer, stx, tokens, hrun⟩ := h.exists_deployed
  exact (keepsDirectory_kept.continues hrun AssetRegistry.directory_deployed).1

/-- In every reachable state the directory is a bijection of tokens and ids, and
every later one extends it. -/
theorem asset_directory (hreach : Reachable env w) (hlater : Continues env w w') :
    AssetRegistry.Directory w.assetRegistry ∧
      AssetRegistry.Extends w.assetRegistry w'.assetRegistry :=
  ⟨hreach.directory, (keepsDirectory_kept.continues hlater hreach.directory).2⟩

namespace Sample

def retire : Call := .assetRegistry (.deprecateAsset 1)

/-- The token has been deprecated. -/
def retired : World := transact Sample.env 1 (sentBy owner) retire ready

theorem retired_continues : Continues Sample.env ready retired :=
  .single ⟨_, owner_topLevel, 1, retire, rfl⟩

end Sample

/-- A registered token is deprecated. -/
theorem asset_directory_retired :
    (AssetRegistry.Directory Sample.ready.assetRegistry ∧
      AssetRegistry.Extends Sample.ready.assetRegistry Sample.retired.assetRegistry) ∧
      (Sample.retired.assetRegistry.assets.lookup 1).map Asset.status = some .deprecated :=
  ⟨asset_directory Sample.ready_reachable Sample.retired_continues, by decide +kernel⟩

end StxShield
