import Mathlib
import ZonePropagation.Proofs.Name.Canonical
import ZonePropagation.Proofs.Octets.Placement
import ZonePropagation.Settings.Topology
/-!
Validation and the signature keys.

A client can be built when all keys decode and every server names a key that exists.  Validation
looks at the servers that are verified and at those that are only notified, so what it leaves open
is the keys of the targets' masters, and nothing else.
-/

namespace ZonePropagation

namespace Settings

open SettingsError

def masters (settings : Settings) : List ServerSetting :=
  settings.pools.flatMap fun pool => pool.targets.flatMap TargetSetting.masters

def KeyKnown (settings : Settings) (server : ServerSetting) : Prop :=
  ∀ name, server.signatureKey = some name → settings.hasKeyNamed name = true

theorem hasKeyNamed_iff (settings : Settings) (name : String) :
    settings.hasKeyNamed name = true ↔ ∃ setting ∈ settings.signatureKeys,
      KeySetting.plainName setting.name = KeySetting.plainName name := by
  simp [hasKeyNamed]

theorem mem_servers_iff (settings : Settings) (server : ServerSetting) :
    server ∈ settings.servers ↔
      (∃ pool ∈ settings.pools, server ∈ pool.nameservers ++ pool.alsoNotifies) ∨
        server ∈ settings.masters := by
  simp only [servers, masters, List.mem_flatMap, List.mem_append]
  constructor
  · rintro ⟨pool, member, listed | master⟩
    · exact .inl ⟨pool, member, listed⟩
    · exact .inr ⟨pool, member, master⟩
  · rintro (⟨pool, member, listed⟩ | ⟨pool, member, master⟩)
    · exact ⟨pool, member, .inl listed⟩
    · exact ⟨pool, member, .inr master⟩

/-! ### What validation checks -/

theorem require_eq_ok_iff (cause : SettingsError) (condition : Bool) :
    cause.require condition = .ok () ↔ condition = true := by
  cases condition <;> simp [require]

theorem checkServer_eq_ok_iff (settings : Settings) (server : ServerSetting) :
    settings.checkServer server = .ok () ↔ settings.KeyKnown server := by
  unfold checkServer KeyKnown
  cases server.signatureKey with
  | none => simp
  | some name => simp [require_eq_ok_iff]

/-- Whichever pools stand before it, a pool that passes names known keys for its own servers. -/
theorem known_of_checkPool {settings : Settings} {earlier : List String} {pool : PoolSetting}
    (passed : settings.checkPool earlier pool = .ok ()) :
    ∀ server ∈ pool.nameservers ++ pool.alsoNotifies, settings.KeyKnown server := by
  unfold checkPool at passed
  simp only [bind_eq_ok_iff] at passed
  obtain ⟨-, -, -, -, -, -, passed⟩ := passed
  intro server member
  exact (checkServer_eq_ok_iff settings server).mp (forM_eq_ok_iff.mp passed server member)

theorem known_of_checkPools {settings : Settings} {earlier : List String}
    {pools : List PoolSetting} (passed : settings.checkPools earlier pools = .ok ()) :
    ∀ pool ∈ pools, ∀ server ∈ pool.nameservers ++ pool.alsoNotifies,
      settings.KeyKnown server := by
  induction pools generalizing earlier with
  | nil =>
      intro pool member
      cases member
  | cons pool rest ih =>
      obtain ⟨⟨⟩, here, there⟩ := bind_eq_ok_iff.mp passed
      rw [List.forall_mem_cons]
      exact ⟨known_of_checkPool here, ih there⟩

theorem validate_eq_ok_iff (settings : Settings) :
    settings.validate = .ok () ↔ settings.checkNumbers = .ok () ∧
      (∀ setting ∈ settings.signatureKeys, ∃ key, setting.decode = .ok key) ∧
      settings.checkPools [] settings.pools = .ok () := by
  have decodes : (settings.signatureKeys.forM fun key => key.decode.map fun _ => ()) = .ok () ↔
      ∀ setting ∈ settings.signatureKeys, ∃ key, setting.decode = .ok key := by
    rw [forM_eq_ok_iff]
    refine forall₂_congr fun setting _ => ?_
    cases setting.decode <;> simp [Except.map]
  rw [← decodes]
  simp only [validate, bind_eq_ok_iff]
  constructor
  · rintro ⟨⟨⟩, numbers, ⟨⟩, keys, pools⟩
    exact ⟨numbers, keys, pools⟩
  · rintro ⟨numbers, keys, pools⟩
    exact ⟨(), numbers, (), keys, pools⟩

/-! ### What a client needs -/

/-- The keys are held under exactly the plain names of the key settings. -/
def Covers (settings : Settings) (keys : List (String × SignatureKey)) : Prop :=
  ∀ name, (∃ entry ∈ keys, entry.1 = KeySetting.plainName name) ↔
    settings.hasKeyNamed name = true

theorem name_held_cons (keys : List (String × SignatureKey)) (own : String) (key : SignatureKey)
    (name : String) :
    (∃ entry ∈ (own, key) :: keys.filter (fun other => other.1 != own), entry.1 = name) ↔
      (∃ entry ∈ keys, entry.1 = name) ∨ own = name := by
  rw [List.exists_mem_cons_iff, or_comm]
  refine or_congr_left' fun apart => exists_congr fun entry => ?_
  rw [List.mem_filter, bne_iff_ne, and_assoc]
  exact and_congr_right fun _ => and_iff_right_of_imp fun found clash =>
    apart (clash.symm.trans found)

theorem exists_keysByName {settings : Settings}
    (decodes : ∀ setting ∈ settings.signatureKeys, ∃ key, setting.decode = .ok key) :
    ∃ keys, settings.keysByName = .ok keys ∧ settings.Covers keys := by
  simp only [Covers, hasKeyNamed_iff, keysByName]
  generalize settings.signatureKeys = described at decodes
  induction described using List.reverseRecOn with
  | nil => exact ⟨[], rfl, by simp⟩
  | append_singleton described setting ih =>
      obtain ⟨keys, made, names⟩ := ih fun other member =>
        decodes other (List.mem_append_left _ member)
      obtain ⟨key, decoded⟩ := decodes setting (by simp)
      refine ⟨(KeySetting.plainName setting.name, key) ::
        keys.filter fun other => other.1 != KeySetting.plainName setting.name, ?_, fun name => ?_⟩
      · rw [foldlM_concat made, decoded]
        rfl
      · rw [name_held_cons, names]
        simp only [List.mem_append, List.mem_singleton, or_and_right, exists_or, exists_eq_left]

theorem serverKey_isOk_iff {settings : Settings} {keys : List (String × SignatureKey)}
    (covers : settings.Covers keys) (server : ServerSetting) :
    (∃ found, serverKey keys server = .ok found) ↔ settings.KeyKnown server := by
  unfold serverKey KeyKnown
  cases named : server.signatureKey with
  | none => simp
  | some name =>
      simp only [Option.some_inj, forall_eq', ← covers name]
      cases found : keys.find? fun entry => entry.1 == KeySetting.plainName name with
      | none =>
          rw [List.find?_eq_none] at found
          simp only [reduceCtorEq, exists_false, false_iff]
          rintro ⟨entry, member, here⟩
          exact found entry member (beq_iff_eq.mpr here)
      | some entry =>
          have here : entry.1 = KeySetting.plainName name := by
            simpa using List.find?_some found
          simp only [Except.ok.injEq, exists_eq', true_iff]
          exact ⟨entry, List.mem_of_find?_eq_some found, here⟩

theorem unknownKey_of_serverKey {keys : List (String × SignatureKey)} {server : ServerSetting}
    {cause : SettingsError} (failed : serverKey keys server = .error cause) :
    ∃ name, server.signatureKey = some name ∧ cause = .unknownKey name := by
  unfold serverKey at failed
  cases named : server.signatureKey with
  | none =>
      rw [named] at failed
      cases failed
  | some name =>
      rw [named] at failed
      dsimp only at failed
      split at failed
      · cases failed
      · cases failed
        exact ⟨name, rfl, rfl⟩

variable {settings : Settings} {keys : List (String × SignatureKey)}

theorem client_of_keys (made : settings.keysByName = .ok keys) :
    settings.client = settings.servers.mapM (serverKey keys) >>= fun servers =>
      .ok { allTcp := settings.allTcp, keys := servers.filterMap id } := by
  rw [client, made, ok_bind]
  rfl

theorem client_isError_iff (made : settings.keysByName = .ok keys)
    (covers : settings.Covers keys) :
    (∃ cause, settings.client = .error cause) ↔
      ∃ server ∈ settings.servers, ¬settings.KeyKnown server := by
  have each (server : ServerSetting) :
      (∃ cause, serverKey keys server = .error cause) ↔ ¬settings.KeyKnown server := by
    rw [← serverKey_isOk_iff covers]
    cases serverKey keys server <;> simp
  simp only [← each, ← mapM_isError_iff, client_of_keys made]
  cases settings.servers.mapM (serverKey keys) <;> simp

theorem unknownKey_of_client (made : settings.keysByName = .ok keys)
    (covers : settings.Covers keys) {cause : SettingsError}
    (failed : settings.client = .error cause) :
    ∃ server ∈ settings.servers, ∃ name, server.signatureKey = some name ∧
      settings.hasKeyNamed name = false ∧ cause = .unknownKey name := by
  cases found : settings.servers.mapM (serverKey keys) with
  | ok servers =>
      rw [client_of_keys made, found] at failed
      cases failed
  | error first =>
      rw [client_of_keys made, found, error_bind, Except.error.injEq] at failed
      obtain ⟨server, member, here⟩ := exists_mem_of_mapM_eq_error found
      obtain ⟨name, named, rfl⟩ := unknownKey_of_serverKey here
      have unknown : ¬settings.KeyKnown server := by
        rw [← serverKey_isOk_iff covers, here]
        simp
      exact ⟨server, member, name, named, by simpa [KeyKnown, named] using unknown, failed.symm⟩

/-! ### Valid settings -/

/-- Settings that pass validation give the keys.  They give a client exactly when every master of
a target names a key that exists, if any, and otherwise the error tells of a missing one. -/
theorem client_iff_masters_known (valid : settings.validate = .ok ()) :
    ∃ keys, settings.keysByName = .ok keys ∧
      ((∃ client, settings.client = .ok client) ↔
        ∀ master ∈ settings.masters, settings.KeyKnown master) ∧
      ∀ cause, settings.client = .error cause → ∃ master ∈ settings.masters, ∃ name,
        master.signatureKey = some name ∧ settings.hasKeyNamed name = false ∧
          cause = .unknownKey name := by
  obtain ⟨-, decodes, passed⟩ := (validate_eq_ok_iff settings).mp valid
  obtain ⟨keys, made, covers⟩ := exists_keysByName decodes
  have master_of {server : ServerSetting} (member : server ∈ settings.servers)
      (unknown : ¬settings.KeyKnown server) : server ∈ settings.masters := by
    rcases (mem_servers_iff settings server).mp member with ⟨pool, listed, own⟩ | master
    · exact absurd (known_of_checkPools passed pool listed server own) unknown
    · exact master
  refine ⟨keys, made, ?_, ?_⟩
  · have fails := client_isError_iff made covers
    have either : (∃ client, settings.client = .ok client) ↔
        ¬∃ cause, settings.client = .error cause := by
      cases settings.client <;> simp
    rw [either, fails]
    constructor
    · intro known master member
      by_contra unknown
      exact known ⟨master, (mem_servers_iff settings master).mpr (.inr member), unknown⟩
    · rintro known ⟨server, member, unknown⟩
      exact unknown (known server (master_of member unknown))
  · intro cause failed
    obtain ⟨server, member, name, named, lacks, told⟩ := unknownKey_of_client made covers failed
    have unknown : ¬settings.KeyKnown server := by
      simp [KeyKnown, named, lacks]
    exact ⟨server, master_of member unknown, name, named, lacks, told⟩

/-- A pool whose nameserver and whose target's master name one key, in different cases. -/
def transferPool : PoolSetting where
  id := "p"
  targets := [{
    backendType := "fake"
    masters := [{ host := "10.0.0.1", signatureKey := some "TRANSFER" }] }]
  nameservers := [{ host := "ns1.test", signatureKey := some "transfer" }]

def transferring : Settings where
  signatureKeys := [{ name := "Transfer.", secret := "c2VjcmV0" }]
  pools := [transferPool]

theorem plainName_transfer :
    ∀ name ∈ ["Transfer.", "transfer", "TRANSFER"], KeySetting.plainName name = "transfer" := by
  have small (text : String) (ascii : ∀ character ∈ text.toList, character.toNat < 128)
      (lowered : text.toList.map Char.toLower = "transfer".toList) :
      Text.lowercase text = "transfer" :=
    String.toList_inj.mp ((Text.toList_lowercase ascii).trans lowered)
  rw [List.forall_mem_cons, List.forall_mem_cons, List.forall_mem_singleton]
  exact ⟨small "Transfer" (by simp) rfl, small "transfer" (by simp) rfl,
    small "TRANSFER" (by simp) rfl⟩

theorem transferring_known {name : String} (listed : name ∈ ["Transfer.", "transfer", "TRANSFER"]) :
    transferring.hasKeyNamed name = true := by
  rw [hasKeyNamed_iff]
  refine ⟨_, List.mem_singleton_self _, ?_⟩
  rw [plainName_transfer _ listed, plainName_transfer _ (by simp)]

theorem transferring_decodes :
    ∀ setting ∈ transferring.signatureKeys, ∃ key, setting.decode = .ok key := by
  have lowered : Text.lowercase "hmac-sha256" = "hmac-sha256" :=
    String.toList_inj.mp ((Text.toList_lowercase (by simp)).trans rfl)
  have algorithm : SignatureAlgorithm.ofName? "hmac-sha256" = some .sha256 := by
    rw [SignatureAlgorithm.ofName?, lowered]
    decide +kernel
  have secret : Text.Base64.decode (Octets.ofText (Text.trim "c2VjcmV0")) =
      .ok (Octets.ofText "secret") := by decide +kernel
  intro setting member
  rw [List.mem_singleton.mp member]
  simp only [KeySetting.decode, SignatureKey.ofBase64, algorithm, secret]
  exact ⟨_, rfl⟩

theorem client_iff_masters_known_transferring :
    transferring.validate = .ok () ∧ ∃ client, transferring.client = .ok client := by
  have passed : transferring.checkPool [] transferPool = .ok () := by
    unfold checkPool
    simp only [bind_eq_ok_iff]
    refine ⟨(), rfl, (), rfl, (), rfl, forM_eq_ok_iff.mpr fun server listed => ?_⟩
    rw [List.mem_singleton.mp listed, checkServer_eq_ok_iff]
    rintro name ⟨⟩
    exact transferring_known (by simp)
  have valid : transferring.validate = .ok () :=
    (validate_eq_ok_iff _).mpr
      ⟨by decide +kernel, transferring_decodes, bind_eq_ok_iff.mpr ⟨(), passed, rfl⟩⟩
  obtain ⟨keys, -, built, -⟩ := client_iff_masters_known valid
  refine ⟨valid, built.mpr ?_⟩
  intro master member
  rw [List.mem_singleton.mp member]
  rintro name ⟨⟩
  exact transferring_known (by simp)

def unkeyed : Settings where
  pools := [{
    id := "p"
    targets := [{
      backendType := "fake"
      masters := [{ host := "10.0.0.1", signatureKey := some "transfer" }] }]
    nameservers := [{ host := "ns1.test" }] }]

theorem unkeyed_lacks_client :
    unkeyed.validate = .ok () ∧ unkeyed.keysByName = .ok [] ∧
      unkeyed.client = .error (.unknownKey "transfer") :=
  ⟨rfl, rfl, rfl⟩

end Settings

end ZonePropagation
