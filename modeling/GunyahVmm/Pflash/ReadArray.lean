import GunyahVmm.Pflash.FrameEffect

/-! The flash as a plain array of bytes in read-array mode, but for a read of the last byte. -/

namespace GunyahVmm.Pflash
open Run Device List

/-- The array, with the command that waits for its second write. -/
structure Flash where
  bytes : List (BitVec 8)
  opened : Option (BitVec 8 × BitVec 64)

def Flash.access (blockSize : Nat) (flash : Flash) : Access → Flash
  | .write offset [data] fails =>
    match flash.opened with
    | some (command, expected) =>
      ⟨finish flash.bytes blockSize command expected offset data fails, none⟩
    | none =>
      { flash with
        opened := if data = commandWriteByte ∨ data = commandBlockErase then some (data, offset)
          else none }
  | .write _ _ _ => flash
  | .read _ _ _ => { flash with opened := none }

/-- The image after the programs and erases of a history. -/
def contents (image : List (BitVec 8)) (blockSize : Nat) (past : List Access) : List (BitVec 8) :=
  (past.foldl (Flash.access blockSize) ⟨image, none⟩).bytes

def Device.view (dev : Device) : Flash := ⟨dev.image, dev.state.opened⟩

variable {image : List (BitVec 8)} {blockSize : BitVec 32} {past : List Access} {dev dev' : Device}
  {access : Access}

lemma opened_command (dev : Device) (offset : BitVec 64) (data : BitVec 8) :
    (dev.command offset data).state.opened =
      if data = commandWriteByte ∨ data = commandBlockErase then some (data, offset) else none := by
  unfold Device.command
  split_ifs <;> simp_all [State.opened, commandReadArray, commandReadStatus, commandCfiQuery,
    commandClearStatus, commandWriteByte, commandBlockErase]

/-- **Refinement.** An access does to the device what it does to the array. -/
lemma step_view (h : Remembers image blockSize past dev)
    (hsz : image.length % blockSize.toNat = 0) (hs : step dev access = some dev') :
    dev'.view = dev.view.access blockSize.toNat access := by
  cases access with
  | read offset data fails =>
    obtain ⟨⟨dev₁, data'⟩, hr, rfl⟩ := Option.map_eq_some_iff.mp hs
    obtain ⟨hi, -, -, hc⟩ := read_closes hr
    unfold Device.view
    rw [hi]
    cases hst : dev₁.state with
    | write offset => exact absurd hst (hc offset).1
    | blockErase offset => exact absurd hst (hc offset).2
    | readArray | readStatus | readCfi => rfl
  | write offset data fails =>
    change dev.write offset data fails = some dev' at hs
    match data with
    | [] => cases hs
    | _ :: _ :: _ =>
      cases hs
      rfl
    | [byte] =>
      rw [write_eq h hsz] at hs
      cases hs
      cases ho : dev.state.opened with
      | none =>
        simp [Device.view, Flash.access, ho, opened_command,
          (command_remembers h offset byte fails).1]
      | some command =>
        simp only [Device.view, Flash.access, ho]
        rfl

/-- **Reads.** In read-array mode a read that ends before the last byte of the image returns the
bytes of the array. -/
theorem read_contents (image : List (BitVec 8)) (himage : image.length < u64Size)
    (blockSize : BitVec 32) (start : Device) (hnew : new image blockSize = .ok start)
    (past : List Access) (dev : Device) (hrun : run step past start = some dev)
    (hmode : dev.state = .readArray) (offset : BitVec 64) (data : List (BitVec 8))
    (hin : offset.toNat + data.length < image.length) :
    dev.read offset data none =
      some (dev, ((contents image blockSize.toNat past).drop offset.toNat).take data.length) := by
  obtain ⟨hs, hstr⟩ := remembers_new hnew
  have hv : Remembers image blockSize past dev ∧
      dev.view = past.foldl (Flash.access blockSize.toNat) ⟨image, none⟩ := by
    refine run_history (fun past dev => Remembers image blockSize past dev ∧
      dev.view = past.foldl (Flash.access blockSize.toNat) ⟨image, none⟩) ?_ past [] start dev
      ⟨hstr, ?_⟩ hrun
    · intro past dev access dev' ⟨h, hd⟩ hst
      refine ⟨(step_effect h hs hst).2, ?_⟩
      rw [step_view h hs hst, hd, foldl_concat]
    · unfold new at hnew
      split_ifs at hnew
      cases hnew
      rfl
  obtain ⟨h, hv⟩ := hv
  unfold Device.read contents
  rw [← hv, hmode]
  simp only [h.imageSize]
  rw [if_neg (by omega), if_neg (by omega)]
  rfl

/-- The second byte of four, after a program of it. -/
theorem read_contents_second :
    ∃ start dev, new [0, 1, 2, 3] 2 = .ok start ∧
      run step [.write 1 [commandWriteByte] none, .write 1 [7] none] start = some dev ∧
      dev.read 1 [0] none = some (dev, [7]) :=
  ⟨_, _, rfl, rfl, read_contents [0, 1, 2, 3] (by decide) 2 _ rfl
    [.write 1 [commandWriteByte] none, .write 1 [7] none] _ rfl rfl 1 [0] (by decide)⟩

/-- A read of the last byte of the image leaves the buffer as it is. -/
theorem last_byte_unread :
    ∃ start, new [1, 2] 2 = .ok start ∧ start.state = .readArray ∧
      start.read 1 [0] none = some (start, [0]) ∧
      ((contents [1, 2] 2 []).drop 1).take 1 = [2] :=
  ⟨_, rfl, rfl, rfl, rfl⟩

end GunyahVmm.Pflash
