import GunyahVmm.Lib.Patch
import GunyahVmm.Pflash.Device

/-! A bus write programs the byte or erases the block its command named, and nothing else. A failed
erase leaves a part. -/

namespace GunyahVmm.Pflash
open Run Device List

/-! ## Histories -/

def Access.ignored : Access → Bool
  | .write _ (_ :: _ :: _) _ => true
  | _ => false

def Commanded (past : List Access) (command : BitVec 8) (offset : BitVec 64) : Prop :=
  ∃ fails, (past.filter (!·.ignored)).getLast? = some (.write offset [command] fails)

/-- What a device that is made for an image remembers of the accesses. -/
structure Remembers (image : List (BitVec 8)) (blockSize : BitVec 32) (past : List Access)
    (dev : Device) : Prop where
  length : dev.image.length = image.length
  imageSize : dev.imageSize = image.length
  blockSize : dev.blockSize = blockSize
  write : ∀ offset, dev.state = .write offset → Commanded past commandWriteByte offset
  blockErase : ∀ offset, dev.state = .blockErase offset → Commanded past commandBlockErase offset

/-- The ways in which an access may change the image. -/
inductive Change (past : List Access) (blockSize : Nat) (image : List (BitVec 8)) :
    Access → List (BitVec 8) → Prop
  | unchanged (access : Access) : Change past blockSize image access image
  | byte {offset : BitVec 64} {data : BitVec 8} {fails : Option Nat} :
    Commanded past commandWriteByte offset → offset.toNat < image.length →
    Change past blockSize image (.write offset [data] fails) (patch image offset.toNat [data])
  | block {offset : BitVec 64} {fails : Option Nat} :
    Commanded past commandBlockErase offset → offset.toNat + blockSize ≤ image.length →
    offset.toNat % blockSize = 0 →
    Change past blockSize image (.write offset [commandBlockEraseConfirm] fails)
      (patch image offset.toNat (List.replicate blockSize 0xff))
  | brokenErase {offset : BitVec 64} {stored : Nat} :
    Commanded past commandBlockErase offset → offset.toNat + blockSize ≤ image.length →
    offset.toNat % blockSize = 0 → stored < blockSize →
    Change past blockSize image (.write offset [commandBlockEraseConfirm] (some stored))
      (patch image offset.toNat (List.replicate stored 0xff))

variable {offset : Nat} {image : List (BitVec 8)} (data : List (BitVec 8))

lemma Commanded.append_ignored {past : List Access} {command : BitVec 8} {offset : BitVec 64}
    (h : Commanded past command offset) {access : Access} (hi : access.ignored = true) :
    Commanded (past ++ [access]) command offset := by
  obtain ⟨fails, hl⟩ := h
  refine ⟨fails, ?_⟩
  rw [filter_append, filter_singleton]
  simp only [hi, Bool.not_true]
  simpa using hl

lemma commanded_self (past : List Access) (command : BitVec 8) (offset : BitVec 64)
    (fails : Option Nat) : Commanded (past ++ [.write offset [command] fails]) command offset := by
  refine ⟨fails, ?_⟩
  rw [filter_append, filter_singleton]
  exact getLast?_concat

/-! ## Writes to the image -/

lemma writeFile_eq_patch {data : List (BitVec 8)} (h : offset + data.length ≤ image.length) :
    writeFile image offset data = patch image offset data := by
  have ht : (image.take offset).length = offset := by
    rw [length_take]
    omega
  unfold writeFile
  rw [Nat.sub_eq_zero_of_le (by omega), replicate_zero, append_nil]
  refine ext_getElem? fun i => ?_
  rw [getElem?_patch]
  rcases Nat.lt_or_ge i offset with hl | hh
  · rw [append_assoc, getElem?_append_left (by omega), getElem?_take_of_lt hl]
    simp [Nat.not_le.mpr hl]
  · rcases Nat.lt_or_ge i (offset + data.length) with hm | hb
    · have hin : i < image.length := by omega
      rw [getElem?_append_left (by rw [length_append]; omega),
        getElem?_append_right (by omega), ht, getElem?_eq_getElem (by omega),
        getElem?_eq_getElem hin]
      simp [hh]
    · rw [getElem?_append_right (by rw [length_append]; omega), getElem?_drop,
        length_append, ht, getElem?_eq_none (by omega : data.length ≤ i - offset)]
      simp [show offset + data.length + (i - (offset + data.length)) = i by omega]

/-- The bytes of a write that the host stores, whether it completes it or not. -/
def stored (data : List (BitVec 8)) : Option Nat → List (BitVec 8)
  | none => data
  | some count => data.take count

def finish (image : List (BitVec 8)) (blockSize : Nat) (command : BitVec 8)
    (expected offset : BitVec 64) (data : BitVec 8) (fails : Option Nat) : List (BitVec 8) :=
  if offset ≠ expected then image
  else if image.length ≤ offset.toNat then image
  else if command = commandWriteByte then patch image offset.toNat (stored [data] fails)
  else if data ≠ commandBlockEraseConfirm then image
  else if offset.toNat % blockSize ≠ 0 then image
  else patch image offset.toNat (stored (replicate blockSize 0xff) fails)

/-- The device after the second write of a command. -/
def Device.closed (dev : Device) (image : List (BitVec 8)) : Device :=
  { dev with image := image, state := .readArray, status := statusReady }

def State.opened : State → Option (BitVec 8 × BitVec 64)
  | .write offset => some (commandWriteByte, offset)
  | .blockErase offset => some (commandBlockErase, offset)
  | .readArray | .readStatus | .readCfi => none

lemma stored_cases (fails : Option Nat) :
    stored data fails = data ∨
      ∃ count, fails = some count ∧ count < data.length ∧ stored data fails = data.take count := by
  cases fails with
  | none => exact .inl rfl
  | some count =>
    rcases Nat.lt_or_ge count data.length with hlt | hge
    · exact .inr ⟨count, rfl, hlt, rfl⟩
    · exact .inl (take_of_length_le hge)

lemma writeAllAt_eq_patch (h : offset + data.length ≤ image.length) (fails : Option Nat) :
    writeAllAt image offset data fails = patch image offset (stored data fails) := by
  cases fails with
  | none => exact writeFile_eq_patch h
  | some count =>
    refine writeFile_eq_patch ?_
    rw [length_take]
    omega

lemma block_end_le {blockSize size : Nat} (hs : size % blockSize = 0)
    (ho : offset % blockSize = 0) (hlt : offset < size) : offset + blockSize ≤ size := by
  obtain ⟨n, rfl⟩ := Nat.dvd_of_mod_eq_zero hs
  obtain ⟨k, rfl⟩ := Nat.dvd_of_mod_eq_zero ho
  have hlt' : k < n := Nat.lt_of_mul_lt_mul_left hlt
  calc blockSize * k + blockSize = blockSize * (k + 1) := (Nat.mul_succ _ _).symm
    _ ≤ blockSize * n := Nat.mul_le_mul_left _ hlt'

/-! ## Accesses -/

section
variable {image : List (BitVec 8)} {blockSize : BitVec 32} {past : List Access} {dev : Device}
variable {access : Access} {dev' : Device} {command : BitVec 8} {expected : BitVec 64}

lemma Remembers.close (h : Remembers image blockSize past dev)
    (hl : dev'.image.length = dev.image.length) (hs : dev'.imageSize = dev.imageSize)
    (hb : dev'.blockSize = dev.blockSize)
    (hc : ∀ offset, dev'.state ≠ .write offset ∧ dev'.state ≠ .blockErase offset) :
    Remembers image blockSize (past ++ [access]) dev' where
  length := hl.trans h.length
  imageSize := hs.trans h.imageSize
  blockSize := hb.trans h.blockSize
  write offset hst := absurd hst (hc offset).1
  blockErase offset hst := absurd hst (hc offset).2

lemma read_closes {offset : BitVec 64} {data data' : List (BitVec 8)} {fails : Option Nat}
    (h : dev.read offset data fails = some (dev', data')) :
    dev'.image = dev.image ∧ dev'.imageSize = dev.imageSize ∧ dev'.blockSize = dev.blockSize ∧
      ∀ offset, dev'.state ≠ .write offset ∧ dev'.state ≠ .blockErase offset := by
  unfold Device.read at h
  cases hst : dev.state with
  | readArray =>
    simp only [hst] at h
    split at h
    · cases h
    · split at h <;> cases h <;> simp [hst]
  | readStatus | blockErase | write =>
    simp only [hst] at h
    cases h
    simp
  | readCfi =>
    simp only [hst] at h
    obtain ⟨cfi, -, h⟩ := Option.bind_eq_some_iff.mp h
    obtain ⟨bytes, -, h⟩ := Option.bind_eq_some_iff.mp h
    cases h
    simp [hst]

section
variable (h : Remembers image blockSize past dev)
include h

lemma programByte_eq (expected offset : BitVec 64) (data : BitVec 8) (fails : Option Nat) :
    dev.programByte expected offset data fails =
      dev.closed (finish dev.image blockSize.toNat commandWriteByte
        expected offset data fails) := by
  unfold programByte finish closed
  dsimp only
  rw [h.imageSize, ← h.length, if_pos rfl]
  split_ifs with hne hin
  · rfl
  · rfl
  · rw [writeAllAt_eq_patch [data] (Nat.not_le.mp hin) fails]

lemma eraseBlock_eq (hs : image.length % blockSize.toNat = 0) (expected offset : BitVec 64)
    (data : BitVec 8) (fails : Option Nat) :
    dev.eraseBlock expected offset data fails =
      dev.closed (finish dev.image blockSize.toNat commandBlockErase
        expected offset data fails) := by
  unfold eraseBlock finish closed
  dsimp only
  rw [h.imageSize, ← h.length, h.blockSize,
    if_neg (by decide : commandBlockErase ≠ commandWriteByte)]
  rcases eq_or_ne data commandBlockEraseConfirm with rfl | hc
  · rw [if_neg (not_not.mpr rfl), if_neg (not_not.mpr rfl)]
    split_ifs with hne hin hal
    · rfl
    · rfl
    · rfl
    · rw [writeAllAt_eq_patch]
      rw [length_replicate, h.length]
      exact block_end_le hs (not_not.mp hal) (h.length ▸ Nat.not_le.mp hin)
  · rw [if_pos hc, if_pos hc, ite_self, ite_self]

lemma write_eq (hs : image.length % blockSize.toNat = 0) (offset : BitVec 64) (data : BitVec 8)
    (fails : Option Nat) :
    dev.write offset [data] fails = some (match dev.state.opened with
      | some (command, expected) =>
        dev.closed (finish dev.image blockSize.toNat command expected offset data fails)
      | none => dev.command offset data) := by
  unfold write
  cases hst : dev.state with
  | write expected => exact congrArg some (programByte_eq h expected offset data fails)
  | blockErase expected => exact congrArg some (eraseBlock_eq h hs expected offset data fails)
  | readArray | readStatus | readCfi => rfl

lemma Remembers.commanded (ho : dev.state.opened = some (command, expected)) :
    (command = commandWriteByte ∨ command = commandBlockErase) ∧
      Commanded past command expected := by
  cases hst : dev.state <;> rw [hst] at ho <;> cases ho
  · exact ⟨.inr rfl, h.blockErase expected hst⟩
  · exact ⟨.inl rfl, h.write expected hst⟩

end

lemma finish_effect (hs : image.length % blockSize.toNat = 0)
    (hc : command = commandWriteByte ∨ command = commandBlockErase)
    (hcmd : Commanded past command expected) (offset : BitVec 64) (data : BitVec 8)
    (fails : Option Nat) :
    Change past blockSize.toNat image (.write offset [data] fails)
      (finish image blockSize.toNat command expected offset data fails) := by
  unfold finish
  split_ifs with hne hin hw hcn hal
  · exact .unchanged _
  · exact .unchanged _
  · rw [hw, ← not_not.mp hne] at hcmd
    rcases stored_cases [data] fails with ha | ⟨count, -, hlt, hp⟩
    · rw [ha]
      exact .byte hcmd (Nat.not_le.mp hin)
    · rw [hp, Nat.lt_one_iff.mp hlt, take_zero, patch_nil]
      exact .unchanged _
  · exact .unchanged _
  · exact .unchanged _
  · obtain rfl := not_not.mp hcn
    rw [not_not] at hal
    rw [hc.resolve_left hw, ← not_not.mp hne] at hcmd
    have hend := block_end_le hs hal (Nat.not_le.mp hin)
    rcases stored_cases (replicate blockSize.toNat 0xff) fails with ha | ⟨count, rfl, hlt, hp⟩
    · rw [ha]
      exact .block hcmd hend hal
    · rw [length_replicate] at hlt
      rw [hp, take_replicate, Nat.min_eq_left (Nat.le_of_lt hlt)]
      exact .brokenErase hcmd hend hal hlt

lemma Change.length_eq {size : Nat} {image' : List (BitVec 8)}
    (h : Change past size image access image') : image'.length = image.length := by
  cases h with
  | unchanged => rfl
  | byte | block | brokenErase => exact length_patch

lemma command_remembers (h : Remembers image blockSize past dev) (offset : BitVec 64)
    (command : BitVec 8) (fails : Option Nat) :
    (dev.command offset command).image = dev.image ∧
      Remembers image blockSize (past ++ [.write offset [command] fails])
        (dev.command offset command) := by
  have hs := commanded_self past command offset fails
  have hf : (dev.command offset command).image = dev.image ∧
      (dev.command offset command).imageSize = dev.imageSize ∧
      (dev.command offset command).blockSize = dev.blockSize := by
    unfold Device.command
    split_ifs <;> exact ⟨rfl, rfl, rfl⟩
  obtain ⟨hi, hsz, hb⟩ := hf
  refine ⟨hi, (congrArg _ hi).trans h.length, hsz.trans h.imageSize,
    hb.trans h.blockSize, ?_, ?_⟩
  all_goals intro o ho
  all_goals unfold Device.command at ho
  · split_ifs at ho with _ _ _ _ hw _
    · cases ho
      rw [← hw]
      exact hs
  · split_ifs at ho with _ _ _ _ _ her
    · cases ho
      rw [← her]
      exact hs

/-- **Step.** An access changes the image in one of the ways, and the device remembers it. -/
lemma step_effect (h : Remembers image blockSize past dev)
    (hsz : image.length % blockSize.toNat = 0) (hs : step dev access = some dev') :
    Change past blockSize.toNat dev.image access dev'.image ∧
      Remembers image blockSize (past ++ [access]) dev' := by
  cases access with
  | read offset data fails =>
    obtain ⟨⟨dev₁, data'⟩, hr, rfl⟩ := Option.map_eq_some_iff.mp hs
    obtain ⟨hi, hs', hb, hcl⟩ := read_closes hr
    refine ⟨?_, h.close (congrArg _ hi) hs' hb hcl⟩
    rw [hi]
    exact .unchanged _
  | write offset data fails =>
    change dev.write offset data fails = some dev' at hs
    match data with
    | [] => cases hs
    | _ :: _ :: _ =>
      cases hs
      refine ⟨.unchanged _, h.length, h.imageSize, h.blockSize, ?_, ?_⟩
      · exact fun o ho => (h.write o ho).append_ignored rfl
      · exact fun o ho => (h.blockErase o ho).append_ignored rfl
    | [byte] =>
      rw [write_eq h hsz] at hs
      cases hopn : dev.state.opened with
      | none =>
        rw [hopn] at hs
        cases hs
        obtain ⟨hi, hrem⟩ := command_remembers h offset byte fails
        rw [hi]
        exact ⟨.unchanged _, hrem⟩
      | some command =>
        rw [hopn] at hs
        cases hs
        obtain ⟨hc, hcmd⟩ := h.commanded hopn
        have hchg := finish_effect (h.length ▸ hsz) hc hcmd offset byte fails
        exact ⟨hchg, h.close hchg.length_eq rfl rfl fun _ => ⟨nofun, nofun⟩⟩

end

lemma remembers_new {blockSize : BitVec 32} {dev : Device} (h : new image blockSize = .ok dev) :
    image.length % blockSize.toNat = 0 ∧ Remembers image blockSize [] dev := by
  unfold new at h
  split at h
  · cases h
  split at h
  · cases h
  rename_i hm
  cases h
  refine ⟨not_not.mp hm, rfl, rfl, rfl, ?_, ?_⟩
  all_goals
    intro offset hst
    cases hst

lemma remembers_run {blockSize : BitVec 32} {start : Device}
    (hn : new image blockSize = .ok start) {past : List Access} {dev : Device}
    (hr : run step past start = some dev) : Remembers image blockSize past dev := by
  obtain ⟨hs, hst⟩ := remembers_new hn
  exact run_history (Remembers image blockSize)
    (fun _ _ _ _ h hstp => (step_effect h hs hstp).2) past [] start dev hst hr

/-- **Frame.** After any accesses the image has the length it had, the next access changes it in one
of the ways, and a read does not change it. -/
theorem image_frame (image : List (BitVec 8)) (blockSize : BitVec 32) (start : Device)
    (hnew : new image blockSize = .ok start) (past : List Access) (dev : Device)
    (hrun : run step past start = some dev) :
    dev.image.length = image.length ∧
      (∀ access dev', step dev access = some dev' →
        Change past blockSize.toNat dev.image access dev'.image) ∧
      ∀ offset data fails dev', step dev (.read offset data fails) = some dev' →
        dev'.image = dev.image := by
  have hsz := (remembers_new hnew).1
  have hd := remembers_run hnew hrun
  refine ⟨hd.length, fun access dev' hs => (step_effect hd hsz hs).1, ?_⟩
  intro offset data fails dev' hs
  obtain ⟨⟨dev₁, data'⟩, hr, rfl⟩ := Option.map_eq_some_iff.mp hs
  exact (read_closes hr).1

/-- One block of two bytes, whose erasure has been asked for. -/
theorem image_frame_pair :
    ∃ start dev, new [0, 0] 2 = .ok start ∧
      run step [.write 0 [commandBlockErase] none] start = some dev ∧
      Change [.write 0 [commandBlockErase] none] 2 [0, 0]
        (.write 0 [commandBlockEraseConfirm] none) [0xff, 0xff] :=
  ⟨_, _, rfl, rfl, (image_frame [0, 0] 2 _ rfl [.write 0 [commandBlockErase] none] _ rfl).2.1
    (.write 0 [commandBlockEraseConfirm] none) _ rfl⟩

/-- A host that stores one byte of the erased block and then fails leaves half a block erased. -/
theorem erase_broken_off :
    ∃ start dev dev', new [0, 0] 2 = .ok start ∧
      run step [.write 0 [commandBlockErase] none] start = some dev ∧ dev.image = [0, 0] ∧
      step dev (.write 0 [commandBlockEraseConfirm] (some 1)) = some dev' ∧
      dev'.image = [0xff, 0] :=
  ⟨_, _, _, rfl, rfl, rfl, rfl, rfl⟩

end GunyahVmm.Pflash
