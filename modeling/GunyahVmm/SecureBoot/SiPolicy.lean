import Mathlib.Logic.Function.Basic
import Mathlib.Tactic.SplitIfs

/-! The provisioning of the integrity policy (`SecureBootProvisioningDxe.c`); any file call may
fail. -/

namespace GunyahVmm.SecureBoot

inductive EfiStatus where
  | success
  | notFound
  | bufferTooSmall
  | outOfResources
  | error (code : Nat)
  deriving DecidableEq

abbrev Volume := String → Option (List (BitVec 8))

def bootmgfw : String := "\\EFI\\Microsoft\\Boot\\bootmgfw.efi"

def siPolicy : String := "\\EFI\\Microsoft\\Boot\\SiPolicy.p7b"

inductive Call where
  | getSectionFromAnyFv
  | handleProtocol
  | openVolume
  | openBootmgfw
  | openPolicy
  | getInfoSize
  | allocateInfo
  | getInfo
  | allocatePolicy
  | read
  | create
  | write

/-- The policy image, the size of the platform key (0 for none), and how calls end. A failed write
has stored the first `written` bytes. -/
structure Firmware where
  policy : List (BitVec 8)
  pkSize : Nat
  sha256 : List (BitVec 8) → BitVec 256
  fails : Call → Option Nat
  deletes : Bool
  written : Nat

namespace Firmware
variable (fw : Firmware) (vol : Volume)

/-- `GetVariable` of the platform key without a buffer. -/
def getVariable : EfiStatus × Nat :=
  if fw.pkSize = 0 then (.notFound, 0) else (.bufferTooSmall, fw.pkSize)

def isSecureBootOn : Bool :=
  match fw.getVariable with
  | (.bufferTooSmall, pkSize) => pkSize > 0
  | _ => false

def openFile (call : Call) (path : String) : EfiStatus :=
  match fw.fails call with
  | some code => .error code
  | none => if (vol path).isSome then .success else .notFound

/-- The status of `Delete` is not looked at. -/
def delete : Volume := if fw.deletes then Function.update vol siPolicy none else vol

/-- What is read of the existing file, maybe nothing; `none` if an allocation fails. -/
def readExisting : Option (Option (List (BitVec 8))) :=
  let content := (vol siPolicy).getD []
  if (fw.fails .getInfoSize).isNone && (fw.fails .allocateInfo).isSome then none
  else if (fw.fails .getInfoSize).isSome || (fw.fails .getInfo).isSome || content.isEmpty then
    some none
  else if (fw.fails .allocatePolicy).isSome then none
  else if (fw.fails .read).isSome then some none
  else some (some content)

/-- Open the file, which is created if it does not exist, and write the image from its start. -/
def writePolicy : EfiStatus × Volume :=
  match fw.fails .create with
  | some code => (.error code, vol)
  | none =>
    let store (n : Nat) : Volume := Function.update vol siPolicy
      (some (fw.policy.take n ++ ((vol siPolicy).getD []).drop n))
    match fw.fails .write with
    | some code => (.error code, store fw.written)
    | none => (.success, store fw.policy.length)

/-- The status, and the volume as it is left. -/
def tryWritePlatformSiPolicy : EfiStatus × Volume :=
  match (fw.fails .getSectionFromAnyFv).or
    ((fw.fails .handleProtocol).or (fw.fails .openVolume)) with
  | some code => (.error code, vol)
  | none =>
    -- the status of opening `bootmgfw.efi` is overwritten by this one
    match fw.openFile vol .openPolicy siPolicy with
    | .success =>
      if fw.isSecureBootOn then
        match fw.readExisting vol with
        | none => (.outOfResources, vol)
        | some content =>
          if content.map fw.sha256 = some (fw.sha256 fw.policy) then (.success, vol)
          else fw.writePolicy (fw.delete vol)
      else (.success, fw.delete vol)
    | .notFound => if fw.isSecureBootOn then fw.writePolicy vol else (.success, vol)
    | status => (status, vol)

/-- No collision of the hash hides another policy. -/
def CollisionFree : Prop :=
  ∀ content, vol siPolicy = some content → fw.sha256 content = fw.sha256 fw.policy →
    content = fw.policy

structure Provisions : Prop where
  frame : ∀ path ≠ siPolicy, (fw.tryWritePlatformSiPolicy vol).2 path = vol path
  other : fw.openFile vol .openBootmgfw bootmgfw ≠ .success →
    (fw.tryWritePlatformSiPolicy vol).2 = vol
  policy : fw.openFile vol .openBootmgfw bootmgfw = .success →
    (fw.tryWritePlatformSiPolicy vol).1 = .success → (fw.tryWritePlatformSiPolicy vol).2 siPolicy =
      if fw.pkSize = 0 then none else some fw.policy

/-! ## When the provisioning is right -/

def ReachesPolicy (fw : Firmware) : Prop :=
  (fw.fails .getSectionFromAnyFv).or ((fw.fails .handleProtocol).or (fw.fails .openVolume)) = none

/-- An existing file is to be replaced: it could not be read, or it is another one. -/
def Replaces : Prop :=
  ∃ content, fw.readExisting vol = some content ∧ content.map fw.sha256 ≠ some (fw.sha256 fw.policy)

/-- The number of bytes of the image that a write stores. -/
def stored : Nat := if (fw.fails .write).isSome then fw.written else fw.policy.length

/-- Deleting and writing leave the old content as it was. -/
def Keeps (old : List (BitVec 8)) : Prop :=
  if (fw.fails .create).isSome then fw.deletes = false
  else old = fw.policy.take fw.stored ++ (if fw.deletes then [] else old).drop fw.stored

/-- On a system volume `Delete` works where it is relied on; on another one the policy is neither
deleted, nor replaced, nor created. -/
def Provisionable : Prop :=
  fw.ReachesPolicy →
    match fw.openFile vol .openPolicy siPolicy with
    | .success =>
      let old := (vol siPolicy).getD []
      if fw.openFile vol .openBootmgfw bootmgfw = .success then
        if fw.pkSize = 0 then fw.deletes = true
        else fw.Replaces vol → fw.fails .create = none → fw.fails .write = none →
          fw.deletes = true ∨ old.length ≤ fw.policy.length
      else if fw.pkSize = 0 then fw.deletes = false else fw.Replaces vol → fw.Keeps old
    | .notFound => fw.openFile vol .openBootmgfw bootmgfw = .success ∨ fw.pkSize = 0 ∨
        fw.fails .create ≠ none
    | _ => True

variable {fw vol}

lemma isSecureBootOn_iff : fw.isSecureBootOn = true ↔ fw.pkSize ≠ 0 := by
  by_cases h : fw.pkSize = 0
  · simp [isSecureBootOn, getVariable, h]
  · simp [isSecureBootOn, getVariable, h, Nat.pos_iff_ne_zero]

/-- A file that can be opened exists, and one that is not found does not. -/
lemma openFile_cases (fw : Firmware) (vol : Volume) (call : Call) (path : String) :
    (∃ content, fw.openFile vol call path = .success ∧ vol path = some content) ∨
      (fw.openFile vol call path = .notFound ∧ vol path = none) ∨
      ∃ code, fw.openFile vol call path = .error code := by
  unfold openFile
  cases fw.fails call with
  | some code => exact .inr (.inr ⟨code, rfl⟩)
  | none =>
    cases h : vol path with
    | some content => exact .inl ⟨content, rfl, rfl⟩
    | none => exact .inr (.inl ⟨rfl, rfl⟩)

lemma readExisting_eq_some {content : List (BitVec 8)}
    (h : fw.readExisting vol = some (some content)) : content = (vol siPolicy).getD [] := by
  unfold readExisting at h
  dsimp only at h
  split_ifs at h
  all_goals cases h
  rfl

lemma writePolicy_frame {path : String} (hp : path ≠ siPolicy) :
    (fw.writePolicy vol).2 path = vol path := by
  unfold writePolicy
  split
  · rfl
  · dsimp only
    split <;> simp [hp]

lemma delete_frame {path : String} (hp : path ≠ siPolicy) : fw.delete vol path = vol path := by
  unfold delete
  split <;> simp [hp]

lemma delete_siPolicy : fw.delete vol siPolicy = if fw.deletes then none else vol siPolicy := by
  unfold delete
  split <;> simp

lemma writePolicy_of_create (h : fw.fails .create = none) :
    ((fw.writePolicy vol).1 = .success ↔ fw.fails .write = none) ∧
      (fw.writePolicy vol).2 siPolicy =
        some (fw.policy.take fw.stored ++ ((vol siPolicy).getD []).drop fw.stored) := by
  unfold writePolicy stored
  rw [h]
  cases fw.fails .write <;> simp

lemma writePolicy_of_fails {code : Nat} (h : fw.fails .create = some code) :
    fw.writePolicy vol = (.error code, vol) := by
  simp [writePolicy, h]

/-- **Frame.** Whatever fails, the other files are as before. -/
lemma tryWrite_frame {path : String} (hp : path ≠ siPolicy) :
    (fw.tryWritePlatformSiPolicy vol).2 path = vol path := by
  unfold tryWritePlatformSiPolicy
  split
  · rfl
  split
  · split_ifs
    · split
      · rfl
      split_ifs
      · rfl
      · exact (writePolicy_frame hp).trans (delete_frame hp)
    · exact delete_frame hp
  · split_ifs
    · exact writePolicy_frame hp
    · rfl
  · rfl

/-- Only the policy file has to be looked at. -/
lemma provisions_iff_siPolicy : fw.Provisions vol ↔
    if fw.openFile vol .openBootmgfw bootmgfw = .success then
      (fw.tryWritePlatformSiPolicy vol).1 = .success →
        (fw.tryWritePlatformSiPolicy vol).2 siPolicy =
          if fw.pkSize = 0 then none else some fw.policy
    else (fw.tryWritePlatformSiPolicy vol).2 siPolicy = vol siPolicy := by
  by_cases hb : fw.openFile vol .openBootmgfw bootmgfw = .success
  · rw [if_pos hb]
    exact ⟨fun h => h.policy hb, fun h => ⟨fun _ hp => tryWrite_frame hp, absurd hb, fun _ => h⟩⟩
  · rw [if_neg hb]
    refine ⟨fun h => congrFun (h.other hb) _, fun h => ⟨fun _ hp => tryWrite_frame hp, fun _ => ?_,
      fun hs => absurd hs hb⟩⟩
    funext path
    by_cases hp : path = siPolicy
    · rw [hp, h]
    · exact tryWrite_frame hp

lemma replaced_iff (hv : vol siPolicy = some old) :
    (if fw.openFile vol .openBootmgfw bootmgfw = .success then
      (fw.writePolicy (fw.delete vol)).1 = .success →
        (fw.writePolicy (fw.delete vol)).2 siPolicy = some fw.policy
    else (fw.writePolicy (fw.delete vol)).2 siPolicy = vol siPolicy) ↔
    if fw.openFile vol .openBootmgfw bootmgfw = .success then
      fw.fails .create = none → fw.fails .write = none →
        fw.deletes = true ∨ old.length ≤ fw.policy.length
    else fw.Keeps old := by
  have hbase : ((fw.delete vol siPolicy).getD []) = if fw.deletes then [] else old := by
    rw [delete_siPolicy, hv]
    split_ifs <;> rfl
  cases hc : fw.fails .create with
  | some code =>
    simp only [writePolicy_of_fails hc, delete_siPolicy, hv, Keeps, hc]
    split_ifs <;> simp_all
  | none =>
    obtain ⟨hs, hn⟩ := @writePolicy_of_create fw (fw.delete vol) hc
    rw [hs, hn, hbase, hv]
    by_cases hb : fw.openFile vol .openBootmgfw bootmgfw = .success
    · rw [if_pos hb, if_pos hb, forall_prop_of_true rfl]
      refine forall_congr' fun hw => ?_
      simp only [hw, stored, Option.isSome_none, Bool.false_eq_true, if_false]
      cases fw.deletes <;> simp
    · rw [if_neg hb, if_neg hb, Keeps, hc, Option.some.injEq, eq_comm]
      rfl

/-- **Provisioning** is right exactly under these conditions. -/
theorem provisions_iff (hsha : fw.CollisionFree vol) :
    fw.Provisions vol ↔ fw.Provisionable vol := by
  rw [provisions_iff_siPolicy, Provisionable, ReachesPolicy]
  unfold tryWritePlatformSiPolicy
  cases he : (fw.fails .getSectionFromAnyFv).or
    ((fw.fails .handleProtocol).or (fw.fails .openVolume)) with
  | some code => simp
  | none =>
    rw [forall_prop_of_true rfl]
    obtain ⟨old, ho, hv⟩ | ⟨ho, hv⟩ | ⟨code, ho⟩ := fw.openFile_cases vol .openPolicy siPolicy
    all_goals
      rw [ho]
      dsimp only
    · by_cases hpk : fw.pkSize = 0
      · have hoff : fw.isSecureBootOn = false := by simp [isSecureBootOn, getVariable, hpk]
        simp only [hoff, Bool.false_eq_true, if_false, delete_siPolicy, hv, hpk, if_true]
        cases fw.deletes <;> simp
      · rw [if_pos (isSecureBootOn_iff.mpr hpk), if_neg hpk, if_neg hpk, if_neg hpk]
        cases hr : fw.readExisting vol with
        | none => simp [Replaces, hr]
        | some content =>
          dsimp only
          by_cases heq : content.map fw.sha256 = some (fw.sha256 fw.policy)
          · obtain ⟨c, rfl, hc⟩ := Option.map_eq_some_iff.mp heq
            obtain rfl := readExisting_eq_some hr
            rw [hv, Option.getD_some] at hc
            simp [Replaces, hr, hv, hsha old hv hc]
          · have hrep : fw.Replaces vol := ⟨content, hr, heq⟩
            rw [if_neg heq, forall_prop_of_true hrep, forall_prop_of_true hrep, replaced_iff hv, hv]
            rfl
    · by_cases hpk : fw.pkSize = 0
      · have hoff : fw.isSecureBootOn = false := by simp [isSecureBootOn, getVariable, hpk]
        simp [hoff, hpk, hv]
      · rw [if_pos (isSecureBootOn_iff.mpr hpk), if_neg hpk, hv]
        cases hc : fw.fails .create with
        | some code => simp [writePolicy_of_fails hc, hv]
        | none =>
          obtain ⟨hs, hn⟩ := @writePolicy_of_create fw vol hc
          rw [hs, hn, hv]
          split_ifs with hb
          · refine iff_of_true (fun hw => ?_) (.inl hb)
            simp [stored, hw]
          · simp [hpk, hb]
    · simp

/-- Every call succeeds, and the hash is the length. -/
def withKey (pkSize : Nat) : Firmware :=
  ⟨[1], pkSize, fun l => BitVec.ofNat 256 l.length, fun _ => none, true, 0⟩

/-- An empty policy, and the file that tells a system volume if `system`. -/
def volumeOf (system : Bool) : Volume := fun path =>
  if path = siPolicy ∨ (system ∧ path = bootmgfw) then some [] else none

theorem provisions_iff_key : (withKey 1).Provisions (volumeOf true) := by
  refine (provisions_iff fun content hv hc => ?_).mpr fun _ _ _ _ => .inl rfl
  cases hv
  cases hc

/-- The policy file of a volume that is no Windows system volume is deleted. -/
theorem other_volume_changed :
    (withKey 0).openFile (volumeOf false) .openBootmgfw bootmgfw = .notFound ∧
      (volumeOf false) siPolicy = some [] ∧
      ((withKey 0).tryWritePlatformSiPolicy (volumeOf false)).2 siPolicy = none := by
  decide

end Firmware

end GunyahVmm.SecureBoot
