import GunyahVmm.Virtio.HandlerRules
import GunyahVmm.Virtio.ScsiConfinement
import GunyahVmm.Virtio.ScsiUnitCommands

/-! Read-only units. WRITE SAME (16) does not look at the protection of the unit. -/

namespace GunyahVmm.Virtio.Scsi
open Run Handler

/-! ## Handlers that leave the disk alone -/

def Untouched (calls : List HostCall) : Prop := ∀ call ∈ calls, call.changesDisk = false

abbrev LeavesDisk {ε α : Type} (x : Handler Unit ε α) : Prop := Keeps True Untouched x

variable {α : Type} {dev : LogicalUnit} {cdb : List (BitVec 8)} (host : Host)

lemma leavesDisk_ofOutcome (x : Outcome ExecuteError α) : LeavesDisk (ofOutcome x) := by
  cases x with
  | ok a => exact keeps_pure a
  | err e => exact keeps_fail e
  | panic => exact keeps_abort trivial

lemma leavesDisk_reply (bytes : Outcome ExecuteError (List (BitVec 8))) :
    LeavesDisk (reply bytes) :=
  (leavesDisk_ofOutcome bytes).bind fun _ => (keeps_writeAll _).mapErr

/-! ## READ -/

lemma untouched_transfer {io io' : Io Unit} {count off avail : Nat} (hio : Untouched io.calls)
    (h : Transfer io (fun call => call.changesDisk = false) count off avail io') :
    Untouched io'.calls := by
  obtain ⟨calls, hcl, ha, -⟩ := h.calls
  intro call hc
  rw [hcl, List.mem_append] at hc
  rcases hc with ho | hn
  · exact hio call ho
  · exact (ha call hn).1

lemma leavesDisk_readFromDisk (dev : LogicalUnit) (xferBlocks lba : Nat) :
    LeavesDisk (readFromDisk host dev xferBlocks lba) := by
  refine (keeps_checkLbaRange _ _ _).bind fun _ => ?_
  refine (keeps_mulU64 _ _).bind fun count => ?_
  refine (keeps_mulU64 _ _).bind fun offset => ?_
  intro io hio
  have hen := (writeAllFromAtFut_ends host count offset io).imp fun _ => untouched_transfer hio
  exact (withResid_ends hen).mono (fun _ _ h => h) fun _ _ h => ⟨fun _ => trivial, h⟩

/-! ## Commands -/

/-- The commands that use the disk look at the protection first, but for one. -/
lemma leavesDisk_execute (hro : dev.readOnly = true) (cmd : Command)
    (hc : ∀ same, cmd ≠ .writeSame16 same) : LeavesDisk (cmd.execute host dev) := by
  cases cmd with
  | read6 | read10 => exact leavesDisk_readFromDisk host dev _ _
  | readCapacity10 | readCapacity16 => exact (keeps_writeAll _).mapErr
  | write10 cmd =>
    change LeavesDisk (writeToDisk host dev _ _)
    unfold writeToDisk
    rw [if_pos hro]
    exact keeps_fail _
  | synchronizeCache10 =>
    change LeavesDisk (synchronizeCache10 host dev)
    unfold synchronizeCache10
    rw [if_pos hro]
    exact keeps_fail _
  | writeSame10 cmd =>
    change LeavesDisk (cmd.emulate host dev)
    unfold WriteSame10.emulate
    rw [if_pos hro]
    exact keeps_fail _
  | unmap cmd =>
    change LeavesDisk (cmd.emulate host dev)
    unfold Unmap.emulate
    rw [if_pos hro]
    exact keeps_ite (fun _ => keeps_fail _) fun _ => keeps_fail _
  | writeSame16 cmd => exact absurd rfl (hc cmd)

lemma leavesDisk_readPageHeader : LeavesDisk readPageHeader := by
  refine (keeps_peekObj PageFormat).mapErr.bind fun format => ?_
  refine keeps_ite (fun _ => ?_) fun _ => ?_
  · exact (keeps_readObj Page0Header).mapErr.bind fun header => keeps_pure _
  · exact (keeps_readObj SubpageHeader).mapErr.bind fun header => keeps_pure _

lemma leavesDisk_handleModePage : LeavesDisk handleModePage := by
  refine leavesDisk_readPageHeader.bind fun page => ?_
  refine (leavesDisk_ofOutcome _).bind fun filled => ?_
  refine (keeps_readExact _).mapErr.bind fun input => ?_
  exact keeps_ite (fun _ => keeps_pure _) fun _ => keeps_fail _

lemma leavesDisk_handleModePages (fuel : Nat) : LeavesDisk (handleModePages fuel) := by
  induction fuel with
  | zero =>
    refine keeps_get.bind fun io => ?_
    exact keeps_ite (fun _ => keeps_abort trivial) fun _ => keeps_pure _
  | succ fuel ih =>
    refine keeps_get.bind fun io => ?_
    refine keeps_ite (fun _ => ?_) fun _ => keeps_pure _
    exact leavesDisk_handleModePage.bind fun _ => ih

lemma leavesDisk_modeSelect6 (dev : LogicalUnit) (cmd : ModeSelect6) :
    LeavesDisk (cmd.emulate dev) := by
  refine keeps_ite (fun _ => ?_) fun _ => keeps_fail _
  refine (keeps_readObj ModeParameterHeader).mapErr.bind fun header => ?_
  refine keeps_ite (fun _ => ?_) fun _ => keeps_fail _
  refine Keeps.bind ?_ fun _ => keeps_get.bind fun io => leavesDisk_handleModePages _
  refine keeps_ite (fun _ => keeps_pure _) fun _ => ?_
  refine keeps_ite (fun _ => ?_) fun _ => keeps_fail _
  refine (keeps_readObj BlockDescriptor).mapErr.bind fun blockDesc => ?_
  exact keeps_ite (fun _ => keeps_pure _) fun _ => keeps_fail _

lemma leavesDisk_scsiExecute (hro : dev.readOnly = true) (cmd : ScsiCommand)
    (hc : ∀ same, cmd ≠ .disk (.writeSame16 same)) : LeavesDisk (cmd.execute host dev) := by
  cases cmd with
  | testUnitReady => exact keeps_pure _
  | requestSense | modeSense6 => exact leavesDisk_reply _
  | inquiry cmd => exact keeps_get.bind fun io => leavesDisk_reply _
  | modeSelect6 cmd => exact leavesDisk_modeSelect6 dev cmd
  | reportLuns cmd =>
    refine keeps_ite (fun _ => keeps_fail _) fun _ => ?_
    refine (keeps_writeAll _).mapErr.bind fun _ => ?_
    refine (keeps_writeAll _).mapErr.bind fun _ => ?_
    exact (keeps_writeAll _).mapErr
  | reportSupportedTMFs cmd =>
    refine keeps_ite (fun _ => keeps_fail _) fun _ => ?_
    refine (keeps_writeAll _).mapErr.bind fun _ => ?_
    exact (keeps_writeAll _).mapErr
  | disk cmd =>
    refine leavesDisk_execute host hro cmd ?_
    rintro same rfl
    exact hc same rfl

/-! ## Command blocks -/

lemma ite_ne {p : Prop} [Decidable p] {x y z : α} (hx : p → x ≠ z) (hy : ¬ p → y ≠ z) :
    (if p then x else y) ≠ z := by
  split
  all_goals rename_i hp
  · exact hx hp
  · exact hy hp

lemma map_ne_ok {ε β : Type} {f : α → β} {x : Except ε α} {b : β} (h : ∀ a, x = .ok a → f a ≠ b) :
    f <$> x ≠ .ok b := by
  cases x with
  | error e =>
    intro hx
    cases hx
  | ok a => exact fun hx => h a rfl (Except.ok.inj hx)

/-- Only blocks with its opcode are a WRITE SAME (16). -/
lemma new_ne_of_opcode (hop : cdb.getD 0 0 ≠ 0x93) (same : WriteSame16) :
    Command.new cdb ≠ .ok (some (.writeSame16 same)) := by
  -- a command with fields, and one without
  have hp {α : Type} [FromBytes α] {f : α → Command} (hf : ∀ a, f a ≠ .writeSame16 same) :
      (some ∘ f) <$> parseCommand α cdb ≠ .ok (some (.writeSame16 same)) :=
    map_ne_ok fun a _ h => hf a (Option.some.inj h)
  have hl {size : Nat} {cmd : Command} (hc : cmd ≠ .writeSame16 same) :
      some <$> parseLength size cdb cmd ≠ .ok (some (.writeSame16 same)) := by
    refine map_ne_ok fun a ha h => ?_
    unfold parseLength at ha
    split at ha
    all_goals cases ha
    · exact hc (Option.some.inj h)
  iterate 7
    refine ite_ne (fun _ => by first | exact hp (by simp) | exact hl (by simp)) fun _ => ?_
  refine ite_ne (fun h => absurd h hop) fun _ => ?_
  refine ite_ne (fun _ => ?_) fun _ => ?_
  · exact ite_ne (fun _ => hl (by simp)) fun _ => by simp
  · exact ite_ne (fun _ => by simp) fun _ => by simp

lemma newUnitCommand_ne_disk (cdb : List (BitVec 8)) (cmd : Command) :
    newUnitCommand cdb ≠ .ok (.disk cmd) := by
  refine ite_ne (fun _ => ?_) fun _ => ?_
  · exact ite_ne (fun _ => by simp) fun _ => by simp
  iterate 5 refine ite_ne (fun _ => map_ne_ok (by simp)) fun _ => ?_
  exact ite_ne (fun _ => map_ne_ok (by simp)) fun _ => by simp

lemma new_ne_writeSame16 {cmd : ScsiCommand} (hop : cdb.head? ≠ some 0x93)
    (h : ScsiCommand.new cdb = .ok cmd) (same : WriteSame16) : cmd ≠ .disk (.writeSame16 same) := by
  rintro rfl
  cases cdb with
  | nil => cases h
  | cons op rest =>
    have hg : (op :: rest).getD 0 0 ≠ 0x93 := fun h => hop (congrArg some h)
    have hd := new_ne_of_opcode hg same
    have hu := newUnitCommand_ne_disk (op :: rest) (.writeSame16 same)
    unfold ScsiCommand.new at h
    rw [if_neg (List.length_pos_of_mem List.mem_cons_self).ne'] at h
    split at h
    · cases h
    split at h
    · cases h
    · rename_i hc
      cases h
      exact hd hc
    · split at h
      · cases h
      rename_i hc
      cases h
      exact hu hc

lemma leavesDisk_serve (hro : dev.readOnly = true) (hop : cdb.head? ≠ some 0x93) :
    LeavesDisk (serve host dev cdb) := by
  unfold serve
  cases hn : ScsiCommand.new cdb with
  | ok cmd => exact leavesDisk_scsiExecute host hro cmd (new_ne_writeSame16 hop hn)
  | err e => exact keeps_fail e
  | panic => exact keeps_abort trivial

/-! ## Sequences of commands -/

/-- A command block, the data that the guest sends with it, the bytes in front of the data in the
same region, and the room for the reply. -/
structure Request where
  cdb : List (BitVec 8)
  data : List (BitVec 8)
  skipped : Nat
  room : Nat

/-- The calls that a unit has made after the requests, until the process aborts. -/
def serveAll (host : Host) (dev : LogicalUnit) : List HostCall → List Request → List HostCall
  | calls, [] => calls
  | calls, request :: rest =>
    match serve host dev request.cdb
      ⟨⟨request.data, 0, request.skipped⟩, ⟨request.room, []⟩, calls, ()⟩ with
    | .ok _ io => serveAll host dev io.calls rest
    | .error (.returned _) io => serveAll host dev io.calls rest
    | .error .abort io => io.calls

/-- **Run.** The disk is as it was after any number of requests. -/
lemma serveAll_untouched (hro : dev.readOnly = true) :
    ∀ (requests : List Request) (calls : List HostCall),
      (∀ request ∈ requests, request.cdb.head? ≠ some 0x93) → Untouched calls →
        Untouched (serveAll host dev calls requests) := by
  intro requests
  induction requests with
  | nil =>
    intro calls _ hc
    exact hc
  | cons request rest ih =>
    intro calls hop hc
    obtain ⟨hf, hr⟩ := List.forall_mem_cons.mp hop
    have hs := leavesDisk_serve host hro hf
      ⟨⟨request.data, 0, request.skipped⟩, ⟨request.room, []⟩, calls, ()⟩ hc
    unfold serveAll
    split
    all_goals rename_i io hio
    all_goals rw [hio] at hs
    · exact ih io.calls hr hs
    · exact ih io.calls hr hs.2
    · exact hs.2

/-- **Protection.** On a unit that is read-only, as every CD-ROM is, no sequence of commands without
WRITE SAME (16) writes, zeroes or discards a byte of the disk, whatever the command blocks and the
data. -/
theorem read_only_disk_untouched (host : Host) (len : BitVec 64) (blockSize : BitVec 32)
    (readOnly : Bool) (deviceType : ScsiDeviceType) (dev : LogicalUnit)
    (hnew : LogicalUnit.new len blockSize readOnly deviceType = some dev)
    (hro : readOnly = true ∨ deviceType = .cdrom) (requests : List Request)
    (hop : ∀ request ∈ requests, request.cdb.head? ≠ some 0x93) :
    ∀ call ∈ serveAll host dev [] requests, call.changesDisk = false := by
  have hd : dev.readOnly = true := by
    unfold LogicalUnit.new at hnew
    split at hnew
    · cases hnew
    cases hnew
    rcases hro with rfl | rfl
    · rfl
    · exact Bool.or_true _
  exact serveAll_untouched host hd requests [] hop (List.forall_mem_nil _)

def oneBlockDisc : LogicalUnit where
  maxLba := 1
  blockSize := 1
  readOnly := true
  deviceType := .cdrom

/-- A WRITE and a READ of the disc's block. -/
theorem read_only_disk_untouched_disc :
    LogicalUnit.new 1 1 false .cdrom = some oneBlockDisc ∧
      ∀ call ∈ serveAll obligingHost oneBlockDisc []
          [⟨[0x2a, 0, 0, 0, 0, 0, 0, 0, 1, 0], [7], 0, 0⟩,
            ⟨[0x28, 0, 0, 0, 0, 0, 0, 0, 1, 0], [], 0, 1⟩],
        call.changesDisk = false :=
  ⟨rfl, read_only_disk_untouched obligingHost 1 1 false .cdrom oneBlockDisc rfl (.inr rfl) _
    (by decide)⟩

/-- WRITE SAME (16) zeroes the disc's block, and discards it with the unmap bit. -/
theorem write_same_16_changes_disc :
    LogicalUnit.new 1 1 false .cdrom = some oneBlockDisc ∧
      serveAll obligingHost oneBlockDisc []
          [⟨[0x93, 0, 0, 0, 0, 0, 0, 0, 0, 0, 0, 0, 0, 1, 0, 0], [0], 0, 0⟩,
            ⟨[0x93, 8, 0, 0, 0, 0, 0, 0, 0, 0, 0, 0, 0, 1, 0, 0], [], 0, 0⟩] =
        [.writeZeroesAt 0 1, .punchHole 0 1] :=
  ⟨rfl, by decide⟩

end GunyahVmm.Virtio.Scsi
