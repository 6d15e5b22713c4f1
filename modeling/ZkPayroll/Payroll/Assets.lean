import ZkPayroll.Payroll.Steps

/-!
# The asset allowlist

The contract keeps the set of allowed assets twice: a flag for each asset, and
a list. The list is stored with the first change of the allowlist; until then
it is read off the flag of the contract's own token.
-/

namespace ZkPayroll.Payroll

open Host

section
variable {e : Env} {s s' : Storage} {w w' : World}

theorem changedAssets_nodup (h : assets.Nodup) : (changedAssets assets asset allowed).Nodup := by
  unfold changedAssets
  split
  · rename_i hnew
    refine List.Nodup.append h (List.nodup_singleton asset) ?_
    simpa using hnew.2
  · split
    · exact h.erase asset
    · exact h

theorem mem_changedAssets (h : assets.Nodup) :
    x ∈ changedAssets assets asset allowed ↔ if x = asset then allowed = true else x ∈ assets := by
  unfold changedAssets
  by_cases hx : x = asset
  · subst hx
    cases allowed with
    | false => simp [h.mem_erase_iff]
    | true =>
      by_cases hmem : x ∈ assets <;> simp [hmem]
  · cases allowed with
    | false => simp [h.mem_erase_iff, hx]
    | true =>
      by_cases hmem : asset ∈ assets <;> simp [hmem, hx]

/-- The list is the set of flagged assets, and is not stored before the
contract is initialised. -/
structure AssetsListed (s : Storage) : Prop where
  nodup : (getSupportedAssets s).Nodup
  flagged : ∀ x, x ∈ getSupportedAssets s ↔ isAssetAllowed s x = true
  fresh : s.get .addresses = none → s.get .supportedAssets = none

theorem getSupportedAssets_stored (h : s.get .supportedAssets = some assets) :
    getSupportedAssets s = assets := by
  simp [getSupportedAssets, h]

theorem getSupportedAssets_derived (h : s.get .supportedAssets = none)
    (haddrs : s.get .addresses = some addrs) :
    getSupportedAssets s = if isAssetAllowed s addrs.token then [addrs.token] else [] := by
  simp [getSupportedAssets, h, haddrs]

theorem AssetsListed.of_get (h : AssetsListed s)
    (hflags : ∀ x, s'.get (.allowedAsset x) = s.get (.allowedAsset x))
    (hlist : s'.get .supportedAssets = s.get .supportedAssets)
    (htoken : (s'.get .addresses).map (·.token) = (s.get .addresses).map (·.token)) :
    AssetsListed s' := by
  have hallowed : ∀ x, isAssetAllowed s' x = isAssetAllowed s x := by
    intro x
    rw [isAssetAllowed, isAssetAllowed, hflags]
  have hsupported : getSupportedAssets s' = getSupportedAssets s := by
    unfold getSupportedAssets
    rw [hlist]
    cases hstored : s.get .supportedAssets with
    | some assets => rfl
    | none =>
      cases hs : s.get .addresses <;> cases hs' : s'.get .addresses <;> simp [hs, hs'] at htoken
      · rfl
      · simp [htoken, hallowed]
  refine ⟨by rw [hsupported]; exact h.nodup, fun x => ?_, fun hnone => ?_⟩
  · rw [hsupported, hallowed]
    exact h.flagged x
  · rw [hlist]
    apply h.fresh
    simpa [hnone] using htoken.symm

theorem AssetsListed.initialized (h : AssetsListed s) (hnone : s.get .addresses = none)
    (hlist : s'.get .supportedAssets = s.get .supportedAssets)
    (haddrs : s'.get .addresses = some addrs)
    (htoken : s'.get (.allowedAsset addrs.token) = some true)
    (hothers : ∀ x, x ≠ addrs.token → s'.get (.allowedAsset x) = s.get (.allowedAsset x)) :
    AssetsListed s' := by
  have hunlisted := h.fresh hnone
  have hempty : getSupportedAssets s = [] := by simp [getSupportedAssets, hunlisted, hnone]
  have hone : isAssetAllowed s' addrs.token = true := by simp [isAssetAllowed, htoken]
  have hsupported : getSupportedAssets s' = [addrs.token] := by
    rw [getSupportedAssets_derived (hlist.trans hunlisted) haddrs, if_pos hone]
  refine ⟨by simp [hsupported], fun x => ?_, fun hnone' => by simp [haddrs] at hnone'⟩
  rw [hsupported, List.mem_singleton]
  by_cases hx : x = addrs.token
  · subst hx
    simp [hone]
  · have hflag := h.flagged x
    simp only [hempty, List.not_mem_nil, false_iff] at hflag
    simpa [hx, isAssetAllowed, hothers x hx] using hflag

theorem AssetsListed.base (h : AssetsListed s) (haddrs : s.get .addresses = some addrs)
    (asset : Address) (allowed : Bool) :
    (supportedAssetsOrToken (s.set (.allowedAsset asset) allowed) addrs.token).Nodup ∧
      ∀ x, x ≠ asset →
        (x ∈ supportedAssetsOrToken (s.set (.allowedAsset asset) allowed) addrs.token ↔
          isAssetAllowed s x = true) := by
  cases hlist : s.get .supportedAssets with
  | some stored =>
    have hbase : supportedAssetsOrToken (s.set (.allowedAsset asset) allowed) addrs.token =
        getSupportedAssets s := by
      simp [supportedAssetsOrToken, hlist, getSupportedAssets_stored hlist]
    rw [hbase]
    exact ⟨h.nodup, fun x _ => h.flagged x⟩
  | none =>
    have hbase : supportedAssetsOrToken (s.set (.allowedAsset asset) allowed) addrs.token =
        if isAssetAllowed (s.set (.allowedAsset asset) allowed) addrs.token then [addrs.token]
        else [] := by
      simp [supportedAssetsOrToken, hlist]
    rw [hbase]
    refine ⟨by split <;> simp, fun x hx => ?_⟩
    -- the token's flag is the new one only where the token is the changed asset
    rw [← h.flagged x, getSupportedAssets_derived hlist haddrs]
    by_cases htoken : addrs.token = asset
    · have hne : x ≠ addrs.token := by rw [htoken]; exact hx
      split <;> split <;> simp [hne]
    · have hflag : isAssetAllowed (s.set (.allowedAsset asset) allowed) addrs.token =
          isAssetAllowed s addrs.token := by simp [isAssetAllowed, htoken]
      rw [hflag]

theorem AssetsListed.set (h : AssetsListed s) (haddrs : s.get .addresses = some addrs)
    (asset : Address) (allowed : Bool) :
    AssetsListed ((s.set (.allowedAsset asset) allowed).set .supportedAssets
      (changedAssets (supportedAssetsOrToken (s.set (.allowedAsset asset) allowed) addrs.token)
        asset allowed)) := by
  obtain ⟨hnodup, hbase⟩ := h.base haddrs asset allowed
  refine ⟨?_, fun x => ?_, fun hnone => by simp [haddrs] at hnone⟩
  · rw [getSupportedAssets_stored (Store.get_set_self _ _ _)]
    exact changedAssets_nodup hnodup
  · rw [getSupportedAssets_stored (Store.get_set_self _ _ _), mem_changedAssets hnodup]
    by_cases hx : x = asset
    · subst hx
      simp [isAssetAllowed]
    · rw [if_neg hx, hbase x hx]
      simp [isAssetAllowed, hx]

theorem exec_assetsListed (hok : exec e call w = .ok (ret, w')) (h : AssetsListed w.payroll) :
    AssetsListed w'.payroll := by
  cases call with
  | initializePayroll addrs =>
    obtain ⟨_, hf, -, rfl⟩ := onStorage_ok.mp hok
    obtain ⟨hnone, rfl⟩ := initializePayroll_ok.mp hf
    have haddrs : (initializeStorageVersion e ((((w.payroll.set .addresses addrs).set
        (.allowedAsset addrs.token) true).set .treasuryOwner addrs.treasuryOwner).set
          .runCounter 0)).get .addresses = some addrs := by
      rw [initializeStorageVersion_agree _ _ (by simp)]
      simp
    refine h.initialized hnone ?_ haddrs ?_ fun x hx => ?_
    · rw [initializeStorageVersion_agree _ _ (by simp)]
      simp
    · rw [initializeStorageVersion_agree _ _ (by simp)]
      simp
    · rw [initializeStorageVersion_agree _ _ (by simp)]
      simp [hx]
  | setAssetAllowed asset allowed =>
    obtain ⟨_, hf, -, rfl⟩ := onStorage_ok.mp hok
    obtain ⟨addrs, haddrs, -, -, rfl⟩ := setAssetAllowed_ok.mp hf
    exact h.set haddrs asset allowed
  | acceptAdminRotation newAdmin =>
    obtain ⟨_, hf, -, rfl⟩ := onStorage_ok.mp hok
    obtain ⟨-, _, -, -, -, -, addrs, haddrs, rfl⟩ := acceptAdminRotation_ok.mp hf
    exact h.of_get (by simp) (by simp) (by simp [haddrs])
  | acceptTreasuryRotation newOwner =>
    obtain ⟨_, hf, -, rfl⟩ := onStorage_ok.mp hok
    obtain ⟨-, _, -, -, -, -, -, addrs, haddrs, rfl⟩ := acceptTreasuryRotation_ok.mp hf
    exact h.of_get (by simp) (by simp) (by simp [haddrs])
  | acceptAdminHandover pendingAdmin =>
    obtain ⟨_, hf, -, rfl⟩ := onStorage_ok.mp hok
    obtain ⟨-, _, -, -, -, addrs, haddrs, rfl⟩ := acceptAdminHandover_ok.mp hf
    exact h.of_get (by simp) (by simp) (by simp [haddrs])
  | _ =>
    refine h.of_get (fun _ => exec_keeps hok rfl) (exec_keeps hok rfl) ?_
    rw [exec_keeps hok rfl]

theorem Reached.assetsListed (hw : Reached w) : AssetsListed w.payroll :=
  payroll_invariant ⟨by simp [getSupportedAssets], by simp [getSupportedAssets, isAssetAllowed],
    by simp⟩ (fun _ => exec_assetsListed) hw

/-- In every reachable state the supported assets are the allowed ones, each
listed once. -/
theorem supported_assets_allowed (hw : Reached w) :
    (getSupportedAssets w.payroll).Nodup ∧
      ∀ x, x ∈ getSupportedAssets w.payroll ↔ isAssetAllowed w.payroll x = true :=
  ⟨hw.assetsListed.nodup, hw.assetsListed.flagged⟩

end

theorem token_allowed_again :
    let w := runFrom next World.genesis
      [Sample.deploy, Sample.call [Sample.admin] (.setAssetAllowed Sample.token false),
        Sample.call [Sample.admin] (.setAssetAllowed Sample.bob true),
        Sample.call [Sample.admin] (.setAssetAllowed Sample.token true)]
    getSupportedAssets w.payroll = [Sample.bob, Sample.token] ∧
      isAssetAllowed w.payroll Sample.token = true := by
  intro w
  have hlist : getSupportedAssets w.payroll = [Sample.bob, Sample.token] := rfl
  refine ⟨hlist, ((supported_assets_allowed reachable_runFrom).2 Sample.token).mp ?_⟩
  show Sample.token ∈ getSupportedAssets w.payroll
  simp [hlist]

end ZkPayroll.Payroll
