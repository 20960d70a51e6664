import Mathlib
import ZonePropagation.Proofs.Keyed
import ZonePropagation.Proofs.Nameserver.TextForm
import ZonePropagation.Proofs.Settings.SigningKeys
import ZonePropagation.Provisioner.Registry
/-!
The drivers of the configured targets.

A target's id ends with its type and, before that, with its index.  Neither holds a hyphen, so that
the two last hyphens of an id part it again, however many the id of the pool holds.  Pools that pass
validation differ in their ids; hence so do all targets, and no driver takes the place of another.
-/

namespace ZonePropagation

/-! ### Ids of targets -/

theorem hyphen_not_mem_backendType : ∀ type ∈ backendTypes, '-' ∉ type.toList := by
  decide

namespace TargetSetting

theorem toList_targetId (setting : TargetSetting) (poolId : String) (index : Nat) :
    (setting.target poolId index).id.toList =
      (poolId.toList ++ '-' :: Nat.toDigits 10 index) ++ '-' :: setting.backendType.toList := by
  have joined : (setting.target poolId index).id =
      poolId ++ "-" ++ toString index ++ "-" ++ setting.backendType := rfl
  simp [joined, String.toList_append]

theorem parts_of_targetId {setting other : TargetSetting} {poolId otherId : String}
    {index otherIndex : Nat} (known : setting.backendType ∈ backendTypes)
    (otherKnown : other.backendType ∈ backendTypes)
    (same : (setting.target poolId index).id = (other.target otherId otherIndex).id) :
    poolId = otherId ∧ index = otherIndex ∧ setting.backendType = other.backendType := by
  have hyphen : '-'.isDigit = false := rfl
  have spelled := congrArg (fun id => Text.splitLast? '-' id.toList) same
  simp only [toList_targetId] at spelled
  rw [Text.splitLast?_append _ (hyphen_not_mem_backendType _ known),
    Text.splitLast?_append _ (hyphen_not_mem_backendType _ otherKnown), Option.some_inj,
    Prod.mk.injEq] at spelled
  obtain ⟨placed, sameType⟩ := spelled
  have parted := congrArg (Text.splitLast? '-') placed
  rw [Text.splitLast?_append _ (Text.not_mem_toDigits hyphen),
    Text.splitLast?_append _ (Text.not_mem_toDigits hyphen), Option.some_inj,
    Prod.mk.injEq] at parted
  obtain ⟨samePool, sameDigits⟩ := parted
  exact ⟨String.toList_inj.mp samePool, Text.toDigits_injective sameDigits,
    String.toList_inj.mp sameType⟩

end TargetSetting

def PoolSetting.placedTargets (pool : PoolSetting) : List Target :=
  pool.targets.mapIdx fun index setting => setting.target pool.id index

namespace Settings

def placedTargets (settings : Settings) : List Target :=
  settings.pools.flatMap PoolSetting.placedTargets

/-! ### Pools that pass validation -/

/-- The pools differ from each other and from the earlier ones in their ids, and there are drivers
for the types of their targets. -/
theorem distinct_of_checkPools {settings : Settings} {earlier : List String}
    {pools : List PoolSetting} (passed : settings.checkPools earlier pools = .ok ()) :
    (∀ pool ∈ pools, pool.id ∉ earlier) ∧ (pools.map PoolSetting.id).Nodup ∧
      ∀ pool ∈ pools, ∀ target ∈ pool.targets, target.backendType ∈ backendTypes := by
  induction pools generalizing earlier with
  | nil => simp
  | cons pool rest ih =>
      obtain ⟨⟨⟩, here, there⟩ := bind_eq_ok_iff.mp passed
      obtain ⟨apart, distinct, known⟩ := ih there
      unfold checkPool at here
      simp only [bind_eq_ok_iff] at here
      obtain ⟨⟨⟩, fresh, ⟨⟩, -, ⟨⟩, types, -⟩ := here
      have ownId : pool.id ∉ earlier := by
        simpa [require_eq_ok_iff] using fresh
      have ownTypes : ∀ target ∈ pool.targets, target.backendType ∈ backendTypes := by
        intro target member
        have allowed := forM_eq_ok_iff.mp types target member
        rw [require_eq_ok_iff, allowsBackend, Bool.and_eq_true] at allowed
        simpa using allowed.2
      refine ⟨?_, ?_, List.forall_mem_cons.mpr ⟨ownTypes, known⟩⟩
      · rw [List.forall_mem_cons]
        refine ⟨ownId, fun other member old => ?_⟩
        exact apart other member (List.mem_cons_of_mem _ old)
      · rw [List.map_cons, List.nodup_cons, List.mem_map]
        refine ⟨?_, distinct⟩
        rintro ⟨other, member, same⟩
        exact apart other member (List.mem_cons.mpr (.inl same))

section Valid

variable {settings : Settings}

theorem pools_of_validate (valid : settings.validate = .ok ()) :
    (settings.pools.map PoolSetting.id).Nodup ∧
      ∀ pool ∈ settings.pools, ∀ target ∈ pool.targets, target.backendType ∈ backendTypes :=
  (distinct_of_checkPools ((validate_eq_ok_iff settings).mp valid).2.2).2

theorem nodup_ids_of_pool {pool : PoolSetting}
    (known : ∀ target ∈ pool.targets, target.backendType ∈ backendTypes) :
    (pool.placedTargets.map Target.id).Nodup := by
  rw [List.Nodup, List.pairwise_iff_getElem]
  intro index later inside laterInside before same
  simp only [PoolSetting.placedTargets, List.getElem_map, List.getElem_mapIdx] at same
  have parts := TargetSetting.parts_of_targetId (known _ (List.getElem_mem _))
    (known _ (List.getElem_mem _)) same
  omega

theorem nodup_targetIds (valid : settings.validate = .ok ()) :
    (settings.placedTargets.map Target.id).Nodup := by
  obtain ⟨distinct, known⟩ := pools_of_validate valid
  unfold placedTargets
  rw [List.map_flatMap, List.nodup_flatMap]
  refine ⟨fun pool member => nodup_ids_of_pool (known pool member), ?_⟩
  refine (List.pairwise_map.mp distinct).imp_of_mem ?_
  intro pool other member otherMember apart id here there
  obtain ⟨target, listed, rfl⟩ := List.mem_map.mp here
  obtain ⟨otherTarget, otherListed, same⟩ := List.mem_map.mp there
  obtain ⟨index, inside, rfl⟩ := List.mem_mapIdx.mp listed
  obtain ⟨otherIndex, otherInside, rfl⟩ := List.mem_mapIdx.mp otherListed
  have parts := TargetSetting.parts_of_targetId
    (known other otherMember _ (List.getElem_mem otherInside))
    (known pool member _ (List.getElem_mem inside)) same
  exact apart parts.1.symm

end Valid

end Settings

/-! ### The topology -/

namespace Topology

theorem pools_insert {topology : Topology} {pool : Pool}
    (fresh : pool.id ∉ topology.pools.map Pool.id) :
    (topology.insert pool).pools = topology.pools ++ [pool] := by
  unfold insert
  rw [filter_ne_of_fresh fresh]

theorem pools_ofPools {pools : List Pool} (distinct : (pools.map Pool.id).Nodup) :
    (ofPools pools).pools = pools := by
  induction pools using List.reverseRecOn with
  | nil => rfl
  | append_singleton pools pool ih =>
      obtain ⟨fresh, distinct⟩ := nodup_keys_concat.mp distinct
      have added : ofPools (pools ++ [pool]) = (ofPools pools).insert pool :=
        List.foldl_concat _ _ _ _
      rw [← ih distinct] at fresh
      rw [added, pools_insert fresh, ih distinct]

end Topology

theorem Settings.targets_topology {settings : Settings}
    (distinct : (settings.pools.map PoolSetting.id).Nodup) :
    settings.topology.pools.flatMap Pool.targets = settings.placedTargets := by
  have ids : ((settings.pools.map fun pool => pool.pool settings.threshold).map Pool.id) =
      settings.pools.map PoolSetting.id := by
    rw [List.map_map]
    rfl
  rw [topology, Topology.pools_ofPools (ids.symm ▸ distinct), List.flatMap_map]
  rfl

/-! ### The drivers -/

theorem Backend.type_of_ofTarget {target : Target} {driver : Backend}
    (made : Backend.ofTarget target = .ok driver) : driver.type = target.backendType := by
  unfold ofTarget ofTarget? at made
  by_cases sidecar : target.backendType = Provisioner.Sidecar.type
  · rw [if_pos sidecar] at made
    obtain ⟨made, -, rfl⟩ := map_eq_ok_iff.mp made
    exact sidecar.symm
  rw [if_neg sidecar] at made
  by_cases powerDns : target.backendType = Provisioner.PowerDns.type
  · rw [if_pos powerDns] at made
    obtain ⟨made, -, rfl⟩ := map_eq_ok_iff.mp made
    exact powerDns.symm
  rw [if_neg powerDns] at made
  by_cases rehearsal : target.backendType = Provisioner.Rehearsal.type
  · rw [if_pos rehearsal] at made
    cases made
    exact rehearsal.symm
  · rw [if_neg rehearsal] at made
    cases made

namespace Backends

/-- The entries are those of the targets, one for each. -/
def Serves : List (String × Backend) → List Target → Prop :=
  List.Forall₂ fun entry target => entry.1 = target.id ∧ Backend.ofTarget target = .ok entry.2

section Serves

variable {backends : Backends} {entries : List (String × Backend)} {targets : List Target}
  {target : Target} {driver : Backend}

theorem Serves.ids (serves : Serves entries targets) :
    entries.map Prod.fst = targets.map Target.id := by
  unfold Serves at serves
  induction serves with
  | nil => rfl
  | cons here _there ih => rw [List.map_cons, List.map_cons, here.1, ih]

theorem Serves.exists_mem (serves : Serves entries targets) (member : target ∈ targets) :
    ∃ driver, (target.id, driver) ∈ entries ∧ Backend.ofTarget target = .ok driver := by
  unfold Serves at serves
  induction serves with
  | nil => cases member
  | cons here _there ih =>
      rcases List.mem_cons.mp member with rfl | later
      · exact ⟨_, List.mem_cons.mpr (.inl (Prod.ext here.1.symm rfl)), here.2⟩
      · obtain ⟨driver, listed, made⟩ := ih later
        exact ⟨driver, List.mem_cons_of_mem _ listed, made⟩

theorem Serves.insert (serves : Serves backends.byTarget targets)
    (fresh : target.id ∉ targets.map Target.id) (made : Backend.ofTarget target = .ok driver) :
    Serves (backends.insert target.id driver).byTarget (targets ++ [target]) := by
  rw [← serves.ids] at fresh
  unfold Backends.insert
  rw [filter_ne_of_fresh fresh]
  exact List.rel_append serves (.cons ⟨rfl, made⟩ .nil)

theorem get?_of_mem (distinct : (backends.byTarget.map Prod.fst).Nodup) {id : String}
    (member : (id, driver) ∈ backends.byTarget) : backends.get? id = some driver := by
  have found := (find?_key_eq_some_iff distinct).mpr ⟨member, rfl⟩
  unfold get?
  rw [found, Option.map_some]

theorem serves_of_ofTopology {topology : Topology}
    (distinct : ((topology.pools.flatMap Pool.targets).map Target.id).Nodup)
    (built : ofTopology topology = .ok backends) :
    Serves backends.byTarget (topology.pools.flatMap Pool.targets) := by
  unfold ofTopology at built
  generalize topology.pools.flatMap Pool.targets = targets at distinct built ⊢
  induction targets using List.reverseRecOn generalizing backends with
  | nil =>
      cases built
      exact .nil
  | append_singleton targets target ih =>
      obtain ⟨fresh, distinct⟩ := nodup_keys_concat.mp distinct
      obtain ⟨earlier, before, last⟩ := bind_eq_ok_iff.mp (List.foldlM_append.symm.trans built)
      rw [foldlM_concat before, map_eq_ok_iff] at built
      obtain ⟨driver, made, rfl⟩ := built
      exact (ih distinct before).insert fresh made

end Serves

end Backends

namespace Settings

/-- The targets of valid settings differ in their ids.  In whichever order the pools come, drivers
that can be made for all of them are one for each target, and a target finds its own, which has the
type of the target. -/
theorem targets_have_own_drivers {settings : Settings} (valid : settings.validate = .ok ()) :
    (settings.placedTargets.map Target.id).Nodup ∧
      ∀ topology : Topology, topology.pools.Perm settings.topology.pools →
        ∀ backends, Backends.ofTopology topology = .ok backends →
          (backends.byTarget.map Prod.fst).Perm (settings.placedTargets.map Target.id) ∧
            ∀ target ∈ settings.placedTargets, ∃ driver, backends.get? target.id = some driver ∧
              driver.type = target.backendType ∧ Backend.ofTarget target = .ok driver := by
  have distinct := nodup_targetIds valid
  refine ⟨distinct, ?_⟩
  intro topology reordered backends built
  have same : (topology.pools.flatMap Pool.targets).Perm settings.placedTargets := by
    rw [← targets_topology (pools_of_validate valid).1]
    exact reordered.flatMap_right _
  have sameIds := same.map Target.id
  have distinctThere := sameIds.nodup_iff.mpr distinct
  have serves := Backends.serves_of_ofTopology distinctThere built
  refine ⟨serves.ids ▸ sameIds, ?_⟩
  intro target member
  obtain ⟨driver, held, made⟩ := serves.exists_mem (same.mem_iff.mpr member)
  have found := Backends.get?_of_mem (serves.ids ▸ distinctThere) held
  exact ⟨driver, found, Backend.type_of_ofTarget made, made⟩

/-- Pools whose ids look like those of targets. -/
def hyphenated : Settings where
  pools := [
    { id := "a"
      targets := [{ backendType := "fake" }, { backendType := "fake" }] },
    { id := "a-0"
      targets := [
        { backendType := "powerdns", options := [("api_url", "http://192.0.2.1:8081")] }] },
    { id := "a-0-fake"
      targets := [{ backendType := "fake" }] }]

theorem targets_have_own_drivers_hyphenated :
    hyphenated.validate = .ok () ∧ ∃ backends,
      Backends.ofTopology hyphenated.topology = .ok backends ∧
        (backends.byTarget.map Prod.fst).Perm
          ["a-0-fake", "a-1-fake", "a-0-0-powerdns", "a-0-fake-0-fake"] ∧
        ∃ driver, backends.get? "a-0-0-powerdns" = some driver ∧ driver.type = "powerdns" := by
  have valid : hyphenated.validate = .ok () := rfl
  obtain ⟨backends, built⟩ : ∃ backends,
      Backends.ofTopology hyphenated.topology = .ok backends := ⟨_, rfl⟩
  obtain ⟨-, drivers⟩ := targets_have_own_drivers valid
  obtain ⟨ids, own⟩ := drivers hyphenated.topology (List.Perm.refl _) backends built
  obtain ⟨driver, found, sameType, -⟩ := own (hyphenated.placedTargets[2]) (List.getElem_mem _)
  exact ⟨valid, backends, built, ids, driver, found, sameType⟩

end Settings

end ZonePropagation
