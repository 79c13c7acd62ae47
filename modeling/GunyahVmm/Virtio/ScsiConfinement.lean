import GunyahVmm.Virtio.HandlerRules
import GunyahVmm.Virtio.ScsiCommands

/-! What SCSI commands touch. The check allows one block too many, which no disk has, and UNMAP
works on its first blocks before it looks at the others. Other commands keep to the announced
blocks. -/

namespace GunyahVmm.Virtio.Scsi
open Run Handler List Nat

/-! ## Addressed blocks -/

structure Blocks where
  lba : Nat
  count : Nat

def Blocks.range (blockSize : Nat) (blocks : Blocks) : DiskRange :=
  ⟨blocks.lba * blockSize, blocks.count * blockSize⟩

def Blocks.Within (n : Nat) (blocks : Blocks) : Prop := blocks.lba + blocks.count ≤ n

instance (n : Nat) (blocks : Blocks) : Decidable (blocks.Within n) :=
  inferInstanceAs (Decidable (_ ≤ _))

def firstDescriptor (bytes : List (BitVec 8)) : Blocks where
  lba := (be64 (fun i => bytes.getD i 0) 0).toNat
  count := (be32 (fun i => bytes.getD i 0) 8).toNat

/-- The first descriptors of an UNMAP command's data; one that is cut off addresses nothing. -/
def descriptorsOf : Nat → List (BitVec 8) → List Blocks
  | 0, _ => []
  | n + 1, bytes =>
    if bytes.length < 12 then []
    else firstDescriptor bytes :: descriptorsOf n (bytes.drop 16)

def Command.addressed (data : List (BitVec 8)) : Command → List Blocks
  | .read6 cmd => [⟨cmd.lba.toNat, cmd.xferLen⟩]
  | .read10 cmd => [⟨cmd.lba.toNat, cmd.xferLen.toNat⟩]
  | .write10 cmd => [⟨cmd.lba.toNat, cmd.xferLen.toNat⟩]
  | .writeSame10 cmd => [⟨cmd.lba.toNat, cmd.nblocks.toNat⟩]
  | .writeSame16 cmd => [⟨cmd.lba.toNat, cmd.nblocks.toNat⟩]
  | .unmap _ =>
    descriptorsOf ((be16 (fun i => data.getD i 0) 2).toNat / 16) (data.drop 8)
  | .readCapacity10 | .readCapacity16 | .synchronizeCache10 => []

/-- The command gets to the check of its blocks, or needs none: it is not refused before, and WRITE
SAME goes on behind the check. -/
def Command.Reaches (readOnly : Bool) (blockSize : BitVec 32) (reader : Reader) : Command → Prop
  | .write10 _ => readOnly = false
  | .writeSame10 cmd => readOnly = false ∧ cmd.nblocks.toNat ≠ 0 ∧
    anchorBit cmd.wrprotectAnchorUnmap = false ∧ (unmapBit cmd.wrprotectAnchorUnmap = true ∨
      (reader.splitAt blockSize.toNat).all (· == 0) = true)
  | .writeSame16 cmd => cmd.nblocks.toNat ≠ 0 ∧
    anchorBit cmd.wrprotectAnchorUnmap = false ∧ (unmapBit cmd.wrprotectAnchorUnmap = true ∨
      (reader.splitAt blockSize.toNat).all (· == 0) = true)
  | .unmap cmd => cmd.anchor = false ∧ readOnly = false ∧
    ¬ (0 < cmd.paramListLen.toNat ∧ cmd.paramListLen.toNat < 8) ∧ 4 ≤ reader.availableBytes
  | .read6 _ | .read10 _ | .readCapacity10 | .readCapacity16 | .synchronizeCache10 => True

def start (data : List (BitVec 8)) (skipped room : Nat) : Io Unit where
  reader := ⟨data, 0, skipped⟩
  writer := ⟨room, []⟩
  calls := []
  device := ()

def Command.room (io : Io Unit) : Command → Option Nat
  | .read6 _ | .read10 _ => some io.writer.availableBytes
  | .write10 _ => some io.reader.availableBytes
  | _ => none

/-- The addressed bytes: READ and WRITE as far as the chain has room, others whole ranges. -/
structure Touches (room : Option Nat) (addressed : List DiskRange) (calls : List HostCall) :
    Prop where
  inside : ∀ range ∈ ranges calls, ∃ r ∈ addressed,
    r.start ≤ range.start ∧ range.stop ≤ r.stop
  transfer : ∀ bytes ∈ room, (ranges calls).take 1 <+:
    addressed.map fun r => ⟨r.start, min r.length bytes⟩
  whole : room = none → ranges calls <+: addressed

section
variable {room : Option Nat} {addressed : List DiskRange} {calls : List HostCall}

lemma touches_silent (h : ranges calls = []) : Touches room addressed calls where
  inside := by
    rw [h]
    exact forall_mem_nil _
  transfer := by
    rw [h]
    exact fun _ _ => nil_prefix
  whole := by
    rw [h]
    exact fun _ => nil_prefix

lemma touches_transfer {io io' : Io Unit} {K : HostCall → Prop} {count off avail : Nat}
    (hcalls : io.calls = []) (h : Transfer io K count off avail io') :
    Touches (some avail) [⟨off, count⟩] io'.calls := by
  obtain ⟨-, hf, hr⟩ := h.ranges hcalls
  refine ⟨?_, ?_, fun h => by cases h⟩
  · intro range hm
    obtain ⟨hst, hs, -⟩ := hr range hm
    exact ⟨_, mem_singleton_self _, hst, hs⟩
  · intro bytes hby
    cases hby
    exact hf

lemma touches_whole (h : ranges calls <+: addressed) : Touches none addressed calls where
  inside range hr := ⟨range, h.subset hr, le_refl _, le_refl _⟩
  transfer _ h := by cases h
  whole _ := h

end

/-! ## Checks -/

/-- The unit was made for a disk of `len` bytes, and one more than its highest address fits. -/
structure Backed (len : BitVec 64) (dev : LogicalUnit) : Prop where
  maxLba : dev.maxLba = len.toNat / dev.blockSize.toNat
  fits : dev.maxLba + 1 < u64Size

/-- Up to the end of the unit a number of blocks in bytes does not overflow. -/
lemma Backed.mulU64_bind {len : BitVec 64} {dev : LogicalUnit} (hdev : Backed len dev) {n : Nat}
    (h : n ≤ dev.maxLba) (f : Nat → Call Unit) (io : Io Unit) :
    (mulU64 n dev.blockSize.toNat >>= f) io = f (n * dev.blockSize.toNat) io := by
  have hp : n * dev.blockSize.toNat < u64Size :=
    calc n * dev.blockSize.toNat ≤ len.toNat / dev.blockSize.toNat * dev.blockSize.toNat :=
          mul_le_mul_right _ (hdev.maxLba ▸ h)
      _ ≤ len.toNat := div_mul_le_self _ _
      _ < u64Size := len.isLt
  rw [mulU64, if_pos hp, pure_bind_apply]

lemma checkLbaRange_eq {maxLba lba count : Nat} (hf : maxLba + 1 < u64Size) :
    checkLbaRange maxLba lba count =
      if lba + count ≤ maxLba + 1 then pure () else fail (.lbaOutOfRange count lba maxLba) := by
  unfold checkLbaRange
  cases ha : checkedAdd lba count with
  | none =>
    have ho := checkedAdd_eq_none.mp ha
    rw [if_neg (by omega)]
  | some v =>
    obtain ⟨-, rfl⟩ := checkedAdd_eq_some.mp ha
    simp only
    rw [if_neg (by omega)]

/-! ## Accesses -/

def CommandEnds (n blockSize : Nat) (room : Option Nat) (addressed : List Blocks)
    (r : EStateM.Result (Stop ExecuteError) (Io Unit) Unit) : Prop :=
  Ends r
    (fun _ io' => (∀ b ∈ addressed, b.Within n) ∧
      Touches room (addressed.map (·.range blockSize)) io'.calls)
    (fun e io' => Touches room (addressed.map (·.range blockSize)) io'.calls ∧
      ((∃ b ∈ addressed, ¬ b.Within n) → e ≠ .abort ∧ io'.calls = []))

section
variable {host : Host} {len : BitVec 64} {dev : LogicalUnit} {io : Io Unit} {lba count n : Nat}
  {b : Blocks} {room : Option Nat} {addressed : List Blocks} (bytes : List (BitVec 8))

lemma command_fails {blockSize : Nat} {e : ExecuteError} (hcalls : io.calls = []) :
    CommandEnds n blockSize room addressed (.error (.returned e) io) := by
  refine ⟨touches_silent ?_, fun _ => ⟨Stop.returned_ne_abort, hcalls⟩⟩
  rw [hcalls]
  rfl

lemma access_ends {x : Call Unit} (hdev : Backed len dev) (hcalls : io.calls = [])
    (hend : lba + count ≠ dev.maxLba + 1)
    (hx : lba + count ≤ dev.maxLba → Leaves (x io)
      (Touches room [Blocks.range dev.blockSize.toNat ⟨lba, count⟩] ·.calls)) :
    CommandEnds dev.maxLba dev.blockSize.toNat room [⟨lba, count⟩]
      ((checkLbaRange dev.maxLba lba count >>= fun _ => x) io) := by
  rw [checkLbaRange_eq hdev.fits]
  split
  · rename_i hle
    have hw : lba + count ≤ dev.maxLba := by omega
    have ha : ∀ b ∈ [(⟨lba, count⟩ : Blocks)], b.Within dev.maxLba := forall_mem_singleton.mpr hw
    refine (hx hw).mono (fun _ _ h => ⟨ha, h⟩) fun _ _ h => ⟨h, ?_⟩
    rintro ⟨b, hb, ho⟩
    exact absurd (ha b hb) ho
  · exact command_fails hcalls

lemma withResid_ends {moved : Io Unit → Nat} {context : Nat → IoError → ExecuteError}
    {x : Handler Unit IoError Unit} {E : Io Unit → Prop}
    (h : Leaves (x io) E) : Leaves (withResid moved n context x io) E := by
  unfold withResid
  cases hx : x io with
  | ok a io' =>
    rw [hx] at h
    exact h
  | error e io' =>
    rw [hx] at h
    cases e with
    | returned e =>
      dsimp only
      split
      all_goals exact h
    | abort => exact h

lemma readFromDisk_ends (hdev : Backed len dev) (hcalls : io.calls = [])
    (hend : lba + count ≠ dev.maxLba + 1) :
    CommandEnds dev.maxLba dev.blockSize.toNat (some io.writer.availableBytes) [⟨lba, count⟩]
      (readFromDisk host dev count lba io) := by
  refine access_ends hdev hcalls hend fun hw => ?_
  rw [hdev.mulU64_bind (by omega), hdev.mulU64_bind (by omega)]
  refine withResid_ends ((writeAllFromAtFut_ends host _ _ io).imp ?_)
  exact fun _ h => touches_transfer hcalls h

lemma writeToDisk_ends (hdev : Backed len dev) (hcalls : io.calls = [])
    (hend : dev.readOnly = false → lba + count ≠ dev.maxLba + 1) :
    CommandEnds dev.maxLba dev.blockSize.toNat (some io.reader.availableBytes) [⟨lba, count⟩]
      (writeToDisk host dev count lba io) := by
  unfold writeToDisk
  split
  · exact command_fails hcalls
  rename_i hro
  refine access_ends hdev hcalls (hend (Bool.not_eq_true _ ▸ hro)) fun hw => ?_
  rw [hdev.mulU64_bind (by omega), hdev.mulU64_bind (by omega)]
  refine withResid_ends ((readExactToAtFut_ends host _ _ io).imp ?_)
  exact fun _ h => touches_transfer hcalls h

lemma ignore_perform_touches {call : HostCall} {range : DiskRange} (hcalls : io.calls = [])
    (hr : call.range = some range) :
    Leaves ((ignore (perform host call) : Call Unit) io) (Touches none [range] ·.calls) := by
  rw [ignore_perform]
  refine touches_whole ?_
  simp [hcalls, ranges, hr]

lemma emulateWriteSame_ends {flags : BitVec 8} (hdev : Backed len dev) (hcalls : io.calls = [])
    (hend : count ≠ 0 ∧ anchorBit flags = false ∧ (unmapBit flags = true ∨
      (io.reader.splitAt dev.blockSize.toNat).all (· == 0) = true) →
        lba + count ≠ dev.maxLba + 1) :
    CommandEnds dev.maxLba dev.blockSize.toNat none [⟨lba, count⟩]
      (emulateWriteSame host dev flags lba count io) := by
  unfold emulateWriteSame
  split
  · exact command_fails hcalls
  rename_i hn
  split
  · exact command_fails hcalls
  rename_i ha
  replace ha : anchorBit flags = false := Bool.not_eq_true _ ▸ ha
  split
  · rename_i hu
    refine access_ends hdev hcalls (hend ⟨hn, ha, .inl hu⟩) fun hw => ?_
    rw [hdev.mulU64_bind (by omega), hdev.mulU64_bind (by omega)]
    exact ignore_perform_touches hcalls rfl
  by_cases hz : (io.reader.splitAt dev.blockSize.toNat).all (· == 0) = true
  · refine access_ends hdev hcalls (hend ⟨hn, ha, .inr hz⟩) fun hw => ?_
    rw [get_bind_apply, if_pos hz, hdev.mulU64_bind (by omega), hdev.mulU64_bind (by omega)]
    exact ignore_perform_touches hcalls rfl
  · -- other data than zeroes is refused behind the check
    unfold writeSame
    rw [checkLbaRange_eq hdev.fits]
    split
    · rw [pure_bind_apply, get_bind_apply, if_neg hz]
      exact command_fails hcalls
    · exact command_fails hcalls

/-! ## Descriptors -/

def punch (dev : LogicalUnit) (blocks : Blocks) : HostCall :=
  .punchHole (blocks.lba * dev.blockSize.toNat) (blocks.count * dev.blockSize.toNat)

lemma unmapBlocks_of_within (hdev : Backed len dev) (h : b.Within dev.maxLba) :
    unmapBlocks host dev b.lba b.count io =
      .ok () { io with calls := io.calls ++ [punch dev b] } := by
  unfold Blocks.Within at h
  unfold unmapBlocks
  rw [checkLbaRange_eq hdev.fits, if_pos (by omega), pure_bind_apply,
    hdev.mulU64_bind (by omega), hdev.mulU64_bind (by omega), ignore_perform]
  rfl

lemma unmapBlocks_of_lt (hdev : Backed len dev) (h : dev.maxLba + 1 < b.lba + b.count) :
    unmapBlocks host dev b.lba b.count io =
      .error (.returned (.lbaOutOfRange b.count b.lba dev.maxLba)) io := by
  unfold unmapBlocks
  rw [checkLbaRange_eq hdev.fits, if_neg (not_le.mpr h)]
  rfl

lemma unmapDescriptor_of_lt (host : Host) (dev : LogicalUnit)
    (h : io.reader.availableBytes < 12) :
    ∃ e io', unmapDescriptor host dev io = .error (.returned e) io' ∧ io'.calls = io.calls := by
  unfold unmapDescriptor
  rcases lt_or_ge io.reader.availableBytes (FromBytes.size Be64) with hs | hl
  · rw [bind_of_error (mapErr_of_returned (readObj_of_lt hs))]
    exact ⟨_, _, rfl, rfl⟩
  · rw [bind_of_ok (mapErr_of_ok (readObj_of_le hl))]
    have hs : (io.reader.consume (FromBytes.size Be64)).availableBytes <
        FromBytes.size Be32 := by
      simp only [Reader.availableBytes, Reader.consume, length_drop, FromBytes.size] at h hl ⊢
      omega
    rw [bind_of_error (mapErr_of_returned (readObj_of_lt hs))]
    exact ⟨_, _, rfl, rfl⟩

lemma be16_drop (k : Nat) :
    be16 (fun i => (bytes.drop k).getD i 0) 0 = be16 (fun i => bytes.getD i 0) k := by
  simp [be16]

lemma be32_drop (k : Nat) :
    be32 (fun i => (bytes.drop k).getD i 0) 0 = be32 (fun i => bytes.getD i 0) k := by
  simp only [be32, be16, getD_eq_getElem?_getD, getElem?_drop, add_zero, zero_add, add_assoc]

lemma unmapDescriptor_of_le (host : Host) (dev : LogicalUnit)
    (h : 12 ≤ io.reader.availableBytes) :
    ∃ io', io'.calls = io.calls ∧ io'.reader.remaining = io.reader.remaining.drop 16 ∧
      unmapDescriptor host dev io =
        unmapBlocks host dev (firstDescriptor io.reader.remaining).lba
          (firstDescriptor io.reader.remaining).count io' := by
  have hl : FromBytes.size Be64 ≤ io.reader.availableBytes := le_trans (by decide) h
  have hl' : FromBytes.size Be32 ≤ (io.reader.consume (FromBytes.size Be64)).availableBytes := by
    simp only [Reader.availableBytes, Reader.consume, length_drop, FromBytes.size] at h ⊢
    omega
  have hd : ((io.reader.remaining.drop 8).drop 4).drop 4 = io.reader.remaining.drop 16 := by
    rw [drop_drop, drop_drop]
  refine ⟨{ io with reader := ((io.reader.consume 8).consume 4).consume 4 }, rfl, hd, ?_⟩
  unfold unmapDescriptor
  rw [bind_of_ok (mapErr_of_ok (readObj_of_le hl)),
    bind_of_ok (mapErr_of_ok (readObj_of_le hl')), firstDescriptor, ← be32_drop]
  rfl

/-- **Loop.** Descriptors inside the unit are all carried out, until one is cut off. -/
lemma unmapDescriptors_ends (host : Host) (hdev : Backed len dev) : ∀ (n : Nat) (io : Io Unit),
    (∀ b ∈ descriptorsOf n io.reader.remaining, b.Within dev.maxLba) →
    Leaves (unmapDescriptors host dev n io)
      (·.calls = io.calls ++ (descriptorsOf n io.reader.remaining).map (punch dev)) := by
  intro n
  induction n with
  | zero =>
    intro io _
    exact (append_nil _).symm
  | succ n ih =>
    intro io hw
    unfold unmapDescriptors
    rcases lt_or_ge io.reader.availableBytes 12 with hs | hl
    · obtain ⟨e, io', hf, hcalls⟩ := unmapDescriptor_of_lt host dev hs
      have hn : descriptorsOf (n + 1) io.reader.remaining = [] := if_pos hs
      rw [bind_of_error hf, hn, map_nil, append_nil]
      exact hcalls
    · obtain ⟨io', hcalls, hrem, hu⟩ := unmapDescriptor_of_le host dev hl
      have hc : descriptorsOf (n + 1) io.reader.remaining =
          firstDescriptor io.reader.remaining :: descriptorsOf n io'.reader.remaining := by
        rw [hrem]
        exact if_neg (not_lt.mpr hl)
      rw [hc] at hw ⊢
      obtain ⟨hfst, hr⟩ := forall_mem_cons.mp hw
      rw [unmapBlocks_of_within hdev hfst] at hu
      rw [bind_of_ok hu, map_cons, ← hcalls]
      refine (ih { io' with calls := io'.calls ++ [punch dev _] } hr).imp fun io'' h => ?_
      rw [h, append_assoc, singleton_append]

lemma unmapDescriptors_rejects (host : Host) (hdev : Backed len dev) {rest : List Blocks}
    (hf : descriptorsOf n io.reader.remaining = b :: rest)
    (ho : dev.maxLba + 1 < b.lba + b.count) :
    ∃ e io', unmapDescriptors host dev n io = .error (.returned e) io' ∧ io'.calls = io.calls := by
  cases n with
  | zero => cases hf
  | succ n =>
    unfold descriptorsOf at hf
    split at hf
    · cases hf
    rename_i hl
    obtain ⟨rfl, -⟩ := cons.inj hf
    obtain ⟨io', hcalls, -, hu⟩ := unmapDescriptor_of_le host dev (not_lt.mp hl)
    rw [unmapBlocks_of_lt hdev ho] at hu
    unfold unmapDescriptors
    rw [bind_of_error hu]
    exact ⟨_, _, rfl, hcalls⟩

/-- The blocks are all inside a unit of `n` blocks, or the first end more than one block behind
it. -/
def Settled (n : Nat) (addressed : List Blocks) : Prop :=
  (∀ b ∈ addressed, b.Within n) ∨ ∃ b rest, addressed = b :: rest ∧ n + 1 < b.lba + b.count

lemma settled_singleton {n : Nat} {b : Blocks} :
    Settled n [b] ↔ b.lba + b.count ≠ n + 1 := by
  unfold Settled Blocks.Within
  rw [forall_mem_singleton]
  constructor
  · rintro (h | ⟨b, rest, hb, h⟩)
    · omega
    · cases hb
      omega
  · intro h
    rcases lt_or_ge (n + 1) (b.lba + b.count) with hlt | hle
    · exact .inr ⟨b, [], rfl, hlt⟩
    · exact .inl (by omega)

lemma punch_touches {calls : List HostCall} (h : calls = addressed.map (punch dev)) :
    Touches none (addressed.map (·.range dev.blockSize.toNat)) calls := by
  refine touches_whole ?_
  have hr : ranges calls = addressed.map (·.range dev.blockSize.toNat) := by
    rw [h, ranges, filterMap_map]
    exact congrFun filterMap_eq_map addressed
  rw [hr]

lemma unmapDescriptors_commandEnds (hdev : Backed len dev) (hcalls : io.calls = [])
    (hs : Settled dev.maxLba (descriptorsOf n io.reader.remaining)) :
    CommandEnds dev.maxLba dev.blockSize.toNat none (descriptorsOf n io.reader.remaining)
      (unmapDescriptors host dev n io) := by
  rcases hs with hw | ⟨b, rest, hf, ho⟩
  · have hr := unmapDescriptors_ends host hdev n io hw
    rw [hcalls, nil_append] at hr
    refine hr.mono (fun _ _ h => ⟨hw, punch_touches h⟩) fun _ _ h => ⟨punch_touches h, ?_⟩
    rintro ⟨b, hb, ho⟩
    exact absurd (hw b hb) ho
  · obtain ⟨e, io', hr, hc'⟩ := unmapDescriptors_rejects host hdev hf ho
    rw [hr]
    exact command_fails (hc'.trans hcalls)

lemma addressed_unmap (cmd : Unmap) (data : List (BitVec 8)) :
    (Command.unmap cmd).addressed data =
      descriptorsOf ((be16 (fun i => (data.drop 2).getD i 0) 0).toNat / 16)
        (((data.drop 2).drop 2).drop 4) := by
  rw [be16_drop, drop_drop, drop_drop]
  rfl

lemma unmap_emulate_ends {cmd : Unmap} (io : Io Unit) (hdev : Backed len dev)
    (hcalls : io.calls = [])
    (hs : (Command.unmap cmd).Reaches dev.readOnly dev.blockSize io.reader →
      Settled dev.maxLba ((Command.unmap cmd).addressed io.reader.remaining)) :
    CommandEnds dev.maxLba dev.blockSize.toNat none
      ((Command.unmap cmd).addressed io.reader.remaining) (cmd.emulate host dev io) := by
  rw [addressed_unmap] at hs ⊢
  unfold Unmap.emulate
  split
  · exact command_fails hcalls
  rename_i ha
  split
  · exact command_fails hcalls
  rename_i hro
  split
  · exact command_fails hcalls
  rename_i hpl
  unfold consume
  rw [modify_bind_apply]
  rcases lt_or_ge (io.reader.consume 2).availableBytes (FromBytes.size Be16) with hsh | hl
  · rw [bind_of_error (mapErr_of_returned (readObj_of_lt hsh))]
    exact command_fails hcalls
  · rw [bind_of_ok (mapErr_of_ok (readObj_of_le hl)), modify_bind_apply]
    refine unmapDescriptors_commandEnds hdev hcalls (hs ⟨?_, ?_, hpl, ?_⟩)
    · exact Bool.not_eq_true _ ▸ ha
    · exact Bool.not_eq_true _ ▸ hro
    · simp only [Reader.availableBytes, Reader.consume, length_drop, FromBytes.size] at hl ⊢
      omega

/-! ## Commands that are not settled -/

/-- A command that addresses blocks outside and goes on is not as it should be. -/
lemma not_commandEnds {blockSize : Nat} {r : EStateM.Result (Stop ExecuteError) (Io Unit) Unit}
    (hout : ∃ b ∈ addressed, ¬ b.Within n)
    (h : Ends r (fun _ _ => True) fun e io' => e = .abort ∨ io'.calls ≠ []) :
    ¬ CommandEnds n blockSize room addressed r := by
  intro hr
  cases r with
  | ok a io' =>
    obtain ⟨b, hb, ho⟩ := hout
    exact ho (hr.1 b hb)
  | error e io' =>
    obtain ⟨he, hc⟩ := hr.2 hout
    exact h.elim he fun hn => hn hc

lemma mulU64_bind_ends {a c : Nat} {f : Nat → Call Unit} {E : Stop ExecuteError → Io Unit → Prop}
    (hE : E .abort io) (h : Ends (f (a * c) io) (fun _ _ => True) E) :
    Ends ((mulU64 a c >>= f) io) (fun _ _ => True) E := by
  unfold mulU64
  split
  · exact h
  · exact hE

lemma transfer_goes_on {x : Handler Unit IoError Unit} {context : Nat → IoError → ExecuteError}
    {moved : Io Unit → Nat} {K : HostCall → Prop} {off avail : Nat}
    (h : Leaves (x io) (Transfer io K count off avail)) (hz : count = 0 → x io = .ok () io) :
    Ends (withResid moved count context x io) (fun _ _ => True)
      fun e io' => e = .abort ∨ io'.calls ≠ [] := by
  by_cases hp : count = 0
  · unfold withResid
    rw [hz hp]
    trivial
  · refine (withResid_ends h).mono (fun _ _ _ => trivial) fun _ io' ht => .inr fun hn => ?_
    have hm := ht.first_mem hp
    rw [hn] at hm
    cases hm

section
variable (hdev : Backed len dev) (hend : lba + count = dev.maxLba + 1)
include hdev hend

lemma readFromDisk_goes_on : Ends (readFromDisk host dev count lba io) (fun _ _ => True)
    fun e io' => e = .abort ∨ io'.calls ≠ [] := by
  unfold readFromDisk
  rw [checkLbaRange_eq hdev.fits, if_pos hend.le, pure_bind_apply]
  refine mulU64_bind_ends (.inl rfl) (mulU64_bind_ends (.inl rfl) ?_)
  refine transfer_goes_on (writeAllFromAtFut_ends host _ _ io) fun hz => ?_
  rw [hz]
  rfl

lemma writeToDisk_goes_on (hro : dev.readOnly = false) :
    Ends (writeToDisk host dev count lba io) (fun _ _ => True)
      fun e io' => e = .abort ∨ io'.calls ≠ [] := by
  unfold writeToDisk
  rw [hro, if_neg Bool.false_ne_true, checkLbaRange_eq hdev.fits, if_pos hend.le, pure_bind_apply]
  refine mulU64_bind_ends (.inl rfl) (mulU64_bind_ends (.inl rfl) ?_)
  refine transfer_goes_on (readExactToAtFut_ends host _ _ io) fun hz => ?_
  rw [hz]
  rfl

lemma emulateWriteSame_goes_on {flags : BitVec 8} (hn : count ≠ 0) (ha : anchorBit flags = false)
    (hz : unmapBit flags = true ∨ (io.reader.splitAt dev.blockSize.toNat).all (· == 0) = true) :
    Ends (emulateWriteSame host dev flags lba count io) (fun _ _ => True)
      fun e io' => e = .abort ∨ io'.calls ≠ [] := by
  unfold emulateWriteSame
  rw [if_neg hn, ha, if_neg Bool.false_ne_true]
  split
  · unfold unmapBlocks
    rw [checkLbaRange_eq hdev.fits, if_pos hend.le, pure_bind_apply]
    refine mulU64_bind_ends (.inl rfl) (mulU64_bind_ends (.inl rfl) ?_)
    rw [ignore_perform]
    trivial
  · rename_i hu
    unfold writeSame
    rw [checkLbaRange_eq hdev.fits, if_pos hend.le, pure_bind_apply, get_bind_apply,
      if_pos (hz.resolve_left hu)]
    refine mulU64_bind_ends (.inl rfl) (mulU64_bind_ends (.inl rfl) ?_)
    rw [ignore_perform]
    trivial

end

section
variable {J : List HostCall → Prop}

lemma keeps_checkLbaRange (maxLba lba count : Nat) :
    Keeps True J (checkLbaRange maxLba lba count) := by
  unfold checkLbaRange
  cases checkedAdd lba count with
  | none => exact keeps_fail _
  | some v =>
    refine keeps_ite (fun _ => keeps_abort trivial) fun _ => ?_
    exact keeps_ite (fun _ => keeps_pure _) fun _ => keeps_fail _

lemma keeps_mulU64 (a b : Nat) : Keeps True J (mulU64 a b) :=
  keeps_ite (fun _ => keeps_pure _) fun _ => keeps_abort trivial

end

lemma keeps_unmapBlocks (lba nblocks : Nat) :
    Keeps True (· ≠ []) (unmapBlocks host dev lba nblocks) := by
  refine (keeps_checkLbaRange _ _ _).bind fun _ => ?_
  refine (keeps_mulU64 _ _).bind fun off => (keeps_mulU64 _ _).bind fun length => ?_
  intro io _
  rw [ignore_perform]
  simp

lemma keeps_unmapDescriptors (n : Nat) : Keeps True (· ≠ []) (unmapDescriptors host dev n) := by
  have hstep : Keeps True (· ≠ []) (unmapDescriptor host dev) :=
    (keeps_readObj Be64).mapErr.bind fun _ => (keeps_readObj Be32).mapErr.bind fun _ =>
      Keeps.bind (fun _ hio => hio) fun _ => keeps_unmapBlocks _ _
  induction n with
  | zero => exact keeps_pure _
  | succ n ih => exact hstep.bind fun _ => ih

/-- The first blocks are worked on before any others are looked at. -/
lemma unmapDescriptors_goes_on {rest : List Blocks} (hdev : Backed len dev)
    (hf : descriptorsOf n io.reader.remaining = b :: rest)
    (hle : b.lba + b.count ≤ dev.maxLba + 1) :
    Ends (unmapDescriptors host dev n io) (fun _ _ => True)
      fun e io' => e = .abort ∨ io'.calls ≠ [] := by
  cases n with
  | zero => cases hf
  | succ n =>
    unfold descriptorsOf at hf
    split at hf
    · cases hf
    rename_i hl
    obtain ⟨rfl, -⟩ := cons.inj hf
    obtain ⟨io', -, -, hu⟩ := unmapDescriptor_of_le host dev (not_lt.mp hl)
    unfold unmapDescriptors
    refine ends_bind (R := fun _ io' => io'.calls ≠ []) ?_ fun _ io'' hn => ?_
    · rw [hu]
      unfold unmapBlocks
      rw [checkLbaRange_eq hdev.fits, if_pos hle, pure_bind_apply]
      unfold mulU64
      split
      · rw [pure_bind_apply]
        split
        · rw [pure_bind_apply, ignore_perform]
          simp
        · exact .inl rfl
      · exact .inl rfl
    · exact (keeps_unmapDescriptors n io'' hn).mono (fun _ _ _ => trivial) fun _ _ h => .inr h.2

lemma unmap_emulate_goes_on {cmd : Unmap} (hdev : Backed len dev)
    (hreach : (Command.unmap cmd).Reaches dev.readOnly dev.blockSize io.reader)
    (hs : ¬ Settled dev.maxLba ((Command.unmap cmd).addressed io.reader.remaining)) :
    (∃ b ∈ (Command.unmap cmd).addressed io.reader.remaining, ¬ b.Within dev.maxLba) ∧
    Ends (cmd.emulate host dev io) (fun _ _ => True)
      fun e io' => e = .abort ∨ io'.calls ≠ [] := by
  obtain ⟨hw, hh⟩ := not_or.mp hs
  obtain ⟨b, hb, ho⟩ : ∃ b ∈ (Command.unmap cmd).addressed io.reader.remaining,
      ¬ b.Within dev.maxLba := by
    simpa using hw
  refine ⟨⟨b, hb, ho⟩, ?_⟩
  obtain ⟨ha, hro, hpl, hl⟩ := hreach
  have hl' : FromBytes.size Be16 ≤ (io.reader.consume 2).availableBytes := by
    simp only [Reader.availableBytes, Reader.consume, length_drop, FromBytes.size] at hl ⊢
    omega
  cases hd : (Command.unmap cmd).addressed io.reader.remaining with
  | nil =>
    rw [hd] at hb
    cases hb
  | cons c rest =>
    have hc : c.lba + c.count ≤ dev.maxLba + 1 := not_lt.mp fun h => hh ⟨c, rest, hd, h⟩
    rw [addressed_unmap] at hd
    unfold Unmap.emulate
    rw [ha, if_neg Bool.false_ne_true, hro, if_neg Bool.false_ne_true, if_neg hpl]
    unfold consume
    rw [modify_bind_apply, bind_of_ok (mapErr_of_ok (readObj_of_le hl')), modify_bind_apply]
    exact unmapDescriptors_goes_on hdev hd hc

end

/-! ## Announced blocks -/

lemma be32_beBytes32 (v : BitVec 32) (rest : List (BitVec 8)) :
    be32 (fun i => (beBytes32 v ++ rest).getD i 0) 0 = v := by
  simp only [be32, be16, beBytes32, beBytes16, cons_append, nil_append,
    getD_cons_zero, getD_cons_succ, zero_add, reduceAdd]
  rw [ofBe16_extract, ofBe16_extract, BitVec.extractLsb'_append_extractLsb'_eq_extractLsb' (by rfl)]
  exact BitVec.extractLsb'_eq_self

lemma be64_beBytes64 (v : BitVec 64) (rest : List (BitVec 8)) :
    be64 (fun i => (beBytes64 v ++ rest).getD i 0) 0 = v := by
  rw [be64, beBytes64, append_assoc, be32_beBytes32, ← be32_drop]
  change _ ++ be32 (fun i => (beBytes32 _ ++ rest).getD i 0) 0 = v
  rw [be32_beBytes32, BitVec.extractLsb'_append_extractLsb'_eq_extractLsb' (by rfl)]
  exact BitVec.extractLsb'_eq_self

/-- READ CAPACITY tells the number of blocks, where there is one and the field can hold it. -/
structure Announces (dev : LogicalUnit) (n : Nat) : Prop where
  readCapacity10 : 0 < n → n ≤ 2 ^ 32 →
    (be32 (fun i => (readCapacity10Bytes dev).getD i 0) 0).toNat + 1 = n
  readCapacity16 : 0 < n → (be64 (fun i => (readCapacity16Bytes dev).getD i 0) 0).toNat + 1 = n

lemma announces {len : BitVec 64} {dev : LogicalUnit} (hdev : Backed len dev) :
    Announces dev dev.maxLba where
  readCapacity10 hp hle := by
    rw [readCapacity10Bytes, be32_beBytes32, BitVec.toNat_ofNat]
    omega
  readCapacity16 hp := by
    have hf := hdev.fits
    rw [readCapacity16Bytes, append_assoc, append_assoc, be64_beBytes64, BitVec.toNat_ofNat]
    simp only [u64Size] at hf
    omega

/-! ## Commands -/

/-- An answer to the guest, without the disk. -/
lemma reply_ends {n blockSize : Nat} {room : Option Nat} {io : Io Unit}
    (bytes : List (BitVec 8)) (hcalls : io.calls = []) :
    CommandEnds n blockSize room [] ((mapErr .write (writeAll bytes) : Call Unit) io) := by
  refine (mapErr_returns (writeAll_ends bytes io)).mono ?_ ?_
  · intro _ io' h
    rw [hcalls] at h
    exact ⟨forall_mem_nil _, touches_silent (h ▸ rfl)⟩
  · rintro e io' ⟨he, h⟩
    rw [hcalls] at h
    exact ⟨touches_silent (h ▸ rfl), fun _ => ⟨he, h⟩⟩

/-- Every command that does not ask for a check that it fails is as it should be. -/
lemma execute_ends (host : Host) {len : BitVec 64} {dev : LogicalUnit} (hdev : Backed len dev)
    (cmd : Command) {io : Io Unit} (hcalls : io.calls = [])
    (hs : cmd.Reaches dev.readOnly dev.blockSize io.reader →
      Settled dev.maxLba (cmd.addressed io.reader.remaining)) :
    CommandEnds dev.maxLba dev.blockSize.toNat (cmd.room io) (cmd.addressed io.reader.remaining)
      (cmd.execute host dev io) := by
  cases cmd with
  | read6 | read10 => exact readFromDisk_ends hdev hcalls (settled_singleton.mp (hs trivial))
  | write10 cmd => exact writeToDisk_ends hdev hcalls fun h => settled_singleton.mp (hs h)
  | unmap cmd => exact unmap_emulate_ends io hdev hcalls hs
  | writeSame16 cmd => exact emulateWriteSame_ends hdev hcalls fun h => settled_singleton.mp (hs h)
  | writeSame10 cmd =>
    change CommandEnds _ _ _ _ (cmd.emulate host dev io)
    unfold WriteSame10.emulate
    split
    · exact command_fails hcalls
    rename_i hro
    refine emulateWriteSame_ends hdev hcalls fun h => settled_singleton.mp (hs ⟨?_, h⟩)
    exact Bool.not_eq_true _ ▸ hro
  | synchronizeCache10 =>
    change CommandEnds _ _ _ _ (synchronizeCache10 host dev io)
    unfold synchronizeCache10
    split
    · exact command_fails hcalls
    have hsil : ranges (io.calls ++ [HostCall.fdatasync]) = [] := by
      rw [hcalls]
      rfl
    refine ends_bind ((mapErr_returns (perform_ends host _ _)).mono (fun _ _ h => h) ?_) ?_
    · rintro e io' ⟨he, rfl⟩
      refine ⟨touches_silent hsil, ?_⟩
      rintro ⟨b, hb, _⟩
      cases hb
    · rintro _ io' rfl
      exact ⟨forall_mem_nil _, touches_silent hsil⟩
  | readCapacity10 | readCapacity16 => exact reply_ends _ hcalls

/-- One that does goes on, whatever the host answers. -/
lemma not_execute_ends (host : Host) {len : BitVec 64} {dev : LogicalUnit} (hdev : Backed len dev)
    (cmd : Command) {io : Io Unit} (hr : cmd.Reaches dev.readOnly dev.blockSize io.reader)
    (hs : ¬ Settled dev.maxLba (cmd.addressed io.reader.remaining)) :
    ¬ CommandEnds dev.maxLba dev.blockSize.toNat (cmd.room io) (cmd.addressed io.reader.remaining)
      (cmd.execute host dev io) := by
  -- one range: it ends one block behind the unit
  have hone {b : Blocks} (h : ¬ Settled dev.maxLba [b]) : b.lba + b.count = dev.maxLba + 1 ∧
      ∃ c ∈ [b], ¬ c.Within dev.maxLba := by
    have hend := not_not.mp (mt settled_singleton.mpr h)
    refine ⟨hend, b, mem_singleton_self _, ?_⟩
    unfold Blocks.Within
    omega
  cases cmd with
  | read6 | read10 =>
    obtain ⟨hend, hout⟩ := hone hs
    exact not_commandEnds hout (readFromDisk_goes_on hdev hend)
  | write10 cmd =>
    obtain ⟨hend, hout⟩ := hone hs
    exact not_commandEnds hout (writeToDisk_goes_on hdev hend hr)
  | unmap cmd =>
    obtain ⟨hout, h⟩ := unmap_emulate_goes_on hdev hr hs
    exact not_commandEnds hout h
  | writeSame16 cmd =>
    obtain ⟨hend, hout⟩ := hone hs
    obtain ⟨hn, ha, hz⟩ := hr
    exact not_commandEnds hout (emulateWriteSame_goes_on hdev hend hn ha hz)
  | writeSame10 cmd =>
    obtain ⟨hend, hout⟩ := hone hs
    obtain ⟨hro, hn, ha, hz⟩ := hr
    change ¬ CommandEnds _ _ _ _ (cmd.emulate host dev io)
    unfold WriteSame10.emulate
    rw [hro, if_neg Bool.false_ne_true]
    exact not_commandEnds hout (emulateWriteSame_goes_on hdev hend hn ha hz)
  | synchronizeCache10 | readCapacity10 | readCapacity16 =>
    exact absurd (.inl (forall_mem_nil _)) hs

/-- **Confinement.** On a unit of `n` blocks, `n` the disk's length divided by the block size, which
READ CAPACITY announces: whatever the host answers, a command touches only bytes of blocks that it
addresses and that are among those `n`, and one that addresses others is rejected before the disk is
touched, exactly if the blocks of a command that gets to their check are settled. -/
theorem command_confined_iff (host : Host) (len : BitVec 64) (blockSize : BitVec 32)
    (readOnly : Bool) (deviceType : ScsiDeviceType) (dev : LogicalUnit)
    (hnew : LogicalUnit.new len blockSize readOnly deviceType = some dev)
    (hlen : len.toNat + 1 < u64Size) (cmd : Command) (data : List (BitVec 8))
    (skipped room : Nat) :
    Announces dev (len.toNat / blockSize.toNat) ∧
      (CommandEnds (len.toNat / blockSize.toNat) blockSize.toNat
          (cmd.room (start data skipped room)) (cmd.addressed data)
          (cmd.execute host dev (start data skipped room)) ↔
        (cmd.Reaches (readOnly || deviceType == .cdrom) blockSize ⟨data, 0, skipped⟩ →
          Settled (len.toNat / blockSize.toNat) (cmd.addressed data))) := by
  unfold LogicalUnit.new at hnew
  split at hnew
  · cases hnew
  have hdev : Backed len dev := by
    cases hnew
    refine ⟨rfl, ?_⟩
    have hle := div_le_self len.toNat blockSize.toNat
    dsimp only
    omega
  obtain ⟨hblk, hro⟩ : dev.blockSize = blockSize ∧
      dev.readOnly = (readOnly || deviceType == .cdrom) := by
    cases hnew
    exact ⟨rfl, rfl⟩
  rw [← hblk, ← hro, ← hdev.maxLba]
  refine ⟨announces hdev, fun h hr => ?_, fun h => ?_⟩
  · by_contra hs
    exact @not_execute_ends host len dev hdev cmd (start data skipped room) hr hs h
  · exact @execute_ends host len dev hdev cmd (start data skipped room) rfl h

def fourBlocks : LogicalUnit where
  maxLba := 4
  blockSize := 1
  readOnly := false
  deviceType := .disk

/-- UNMAP with blocks behind the unit first, which keeps the ones inside. -/
theorem command_confined_iff_unmap :
    LogicalUnit.new 4 1 false .disk = some fourBlocks ∧
      CommandEnds 4 1 none [⟨9, 1⟩, ⟨0, 1⟩] ((Command.unmap ⟨0, 40⟩).execute obligingHost fourBlocks
        (start ([0, 38, 0, 32, 0, 0, 0, 0] ++ [0, 0, 0, 0, 0, 0, 0, 9, 0, 0, 0, 1, 0, 0, 0, 0] ++
          [0, 0, 0, 0, 0, 0, 0, 0, 0, 0, 0, 1, 0, 0, 0, 0]) 0 0)) := by
  have hiff := command_confined_iff obligingHost 4 1 false .disk fourBlocks rfl (by decide)
    (.unmap ⟨0, 40⟩) ([0, 38, 0, 32, 0, 0, 0, 0] ++
      [0, 0, 0, 0, 0, 0, 0, 9, 0, 0, 0, 1, 0, 0, 0, 0] ++
      [0, 0, 0, 0, 0, 0, 0, 0, 0, 0, 0, 1, 0, 0, 0, 0]) 0 0
  exact ⟨rfl, hiff.2.mpr fun _ => .inr ⟨⟨9, 1⟩, [⟨0, 1⟩], rfl, by decide⟩⟩

/-- The block behind the last one is read; and of two descriptors the first is carried out before
the second is found to be outside. -/
theorem block_past_the_end_is_read :
    LogicalUnit.new 4 1 false .disk = some fourBlocks ∧
      Command.new [0x28, 0, 0, 0, 0, 4, 0, 0, 1, 0] = .ok (some (.read10 ⟨4, 1⟩)) ∧
      (Command.read10 ⟨4, 1⟩).execute obligingHost fourBlocks (start [] 0 1) =
        .ok () ⟨⟨[], 0, 0⟩, ⟨0, [0]⟩, [.readToMem 4 1], ()⟩ ∧
      (Command.unmap ⟨0, 40⟩).execute obligingHost fourBlocks (start
          ([0, 38, 0, 32, 0, 0, 0, 0] ++ [0, 0, 0, 0, 0, 0, 0, 0, 0, 0, 0, 1, 0, 0, 0, 0] ++
            [0, 0, 0, 0, 0, 0, 0, 9, 0, 0, 0, 1, 0, 0, 0, 0]) 0 0) =
        .error (.returned (.lbaOutOfRange 1 9 4)) ⟨⟨[], 40, 0⟩, ⟨0, []⟩, [.punchHole 0 1], ()⟩ :=
  ⟨rfl, rfl, rfl, rfl⟩

end GunyahVmm.Virtio.Scsi
