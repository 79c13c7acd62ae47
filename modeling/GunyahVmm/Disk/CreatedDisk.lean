import GunyahVmm.Disk.CompositeLayout
import GunyahVmm.Disk.Gpt
import GunyahVmm.Lib.Align

/-! A created composite disk is accepted again, and its table says where the partitions are. -/

namespace GunyahVmm.Disk
open GunyahVmm.Run CompositeDiskFile Run.Outcome GptPartitionEntry List Align
variable {p : PartitionInfo} {ps : List PartitionInfo} {zeroFiller : HostPath}
  {freshGuid : Nat → Uuid} {guid : Uuid} {st st' : Progress} {start i : Nat}

/-! ## The places of the partitions -/

def PartitionInfo.room (p : PartitionInfo) : Nat := alignUp p.size partitionAlignment

lemma alignedSize_eq_ok {aligned : Nat} (h : p.alignedSize = .ok aligned) : aligned = p.room := by
  unfold PartitionInfo.alignedSize nextMultipleOf at h
  unfold PartitionInfo.room alignUp
  split at h
  · next hm =>
    cases h
    exact (if_pos hm).symm
  · next hm =>
    obtain ⟨-, rfl⟩ := addIn_eq_ok.mp h
    have := Nat.mod_lt p.size (show 0 < partitionAlignment by decide)
    rw [if_neg hm]
    omega

lemma size_le_room (p : PartitionInfo) : p.size ≤ p.room := le_alignUp (by decide) _

lemma room_mod (p : PartitionInfo) : p.room % 4096 = 0 :=
  Nat.mod_eq_zero_of_dvd (dvd_alignUp p.size)

def entryOf (p : PartitionInfo) (start : Nat) (guid : Uuid) : GptPartitionEntry where
  partitionTypeGuid := p.partitionType.guid
  uniquePartitionGuid := p.partGuid.getD guid
  firstLba := start / sectorSize
  lastLba := (start + p.room) / sectorSize - 1
  attributes := 0
  partitionName := partitionName p.label

def capability (p : PartitionInfo) : Int :=
  if p.writable then capabilityReadWrite else capabilityReadOnly

def piecesAt (zeroFiller : HostPath) (p : PartitionInfo) (path : HostPath) (start : Nat) :
    List ComponentDisk :=
  ⟨path, start, capability p⟩ ::
    if p.size = p.room then [] else [⟨zeroFiller, start + p.size, capabilityReadOnly⟩]

lemma createGptEntry_eq_ok {entry : GptPartitionEntry}
    (h : createGptEntry p start guid = .ok entry) :
    entry = entryOf p start guid ∧ start + p.room < u64Size := by
  obtain ⟨aligned, hal, h⟩ := bind_eq_ok.mp h
  obtain ⟨last, hl, h⟩ := bind_eq_ok.mp h
  obtain ⟨lba, hlba, h⟩ := bind_eq_ok.mp h
  obtain rfl := alignedSize_eq_ok hal
  obtain ⟨hlt, rfl⟩ := addIn_eq_ok.mp hl
  obtain ⟨-, rfl⟩ := subU64_eq_ok.mp hlba
  cases h
  exact ⟨rfl, hlt⟩

lemma createComponentDisks_eq_ok {disks : List ComponentDisk}
    (h : createComponentDisks p start zeroFiller = .ok disks) :
    ∃ path, p.path = some path ∧ disks = piecesAt zeroFiller p path start := by
  obtain ⟨aligned, hal, h⟩ := bind_eq_ok.mp h
  obtain rfl := alignedSize_eq_ok hal
  split at h
  · cases h
  rename_i path hp
  refine ⟨path, hp, ?_⟩
  unfold piecesAt
  dsimp only at h
  split at h
  · rename_i hs
    cases h
    rw [if_pos hs]
    rfl
  split at h
  · cases h
  rename_i hs hw
  obtain ⟨filler, hf, h⟩ := bind_eq_ok.mp h
  obtain ⟨-, rfl⟩ := addIn_eq_ok.mp hf
  cases h
  rw [if_neg hs, capability, if_neg hw]

lemma addPartition_eq_ok (h : addPartition zeroFiller st p guid = .ok st') :
    ∃ path, p.path = some path ∧
      st'.table = st.table ++ (entryOf p st.nextDiskOffset guid).writeBytes ∧
      st'.componentDisks = st.componentDisks ++ piecesAt zeroFiller p path st.nextDiskOffset ∧
      st'.nextDiskOffset = st.nextDiskOffset + p.room ∧
      st'.nextDiskOffset < u64Size ∧ st'.table.length ≤ gptTableSize := by
  obtain ⟨entry, hent, h⟩ := bind_eq_ok.mp h
  obtain ⟨rfl, hlt⟩ := createGptEntry_eq_ok hent
  split at h
  · cases h
  split at h
  · cases h
  rename_i hr
  obtain ⟨disks, hd, h⟩ := bind_eq_ok.mp h
  obtain ⟨aligned, hal, h⟩ := bind_eq_ok.mp h
  obtain ⟨next, hn, h⟩ := bind_eq_ok.mp h
  obtain ⟨path, hp, rfl⟩ := createComponentDisks_eq_ok hd
  obtain rfl := alignedSize_eq_ok hal
  obtain ⟨-, rfl⟩ := addIn_eq_ok.mp hn
  cases h
  refine ⟨path, hp, rfl, rfl, rfl, hlt, ?_⟩
  rw [length_append]
  exact Nat.le_of_not_lt hr

def entries (freshGuid : Nat → Uuid) : Nat → List PartitionInfo → List GptPartitionEntry
  | _, [] => []
  | start, p :: ps =>
    entryOf p start (freshGuid ps.length) :: entries freshGuid (start + p.room) ps

def allPieces (zeroFiller : HostPath) : Nat → List PartitionInfo → List ComponentDisk
  | _, [] => []
  | start, p :: ps =>
    (p.path.elim [] fun path => piecesAt zeroFiller p path start) ++
      allPieces zeroFiller (start + p.room) ps

def partitionsEnd : Nat → List PartitionInfo → Nat
  | start, [] => start
  | start, p :: ps => partitionsEnd (start + p.room) ps

lemma le_partitionsEnd (start : Nat) (ps : List PartitionInfo) :
    start ≤ partitionsEnd start ps := by
  induction ps generalizing start with
  | nil => exact Nat.le_refl _
  | cons p ps ih => exact Nat.le_trans (Nat.le_add_right _ _) (ih _)

lemma addPartitions_eq_ok (h : addPartitions zeroFiller freshGuid ps st = .ok st')
    (hr : st.table.length ≤ gptTableSize) (hlt : st.nextDiskOffset < u64Size) :
    (∀ p ∈ ps, p.path ≠ none) ∧
      st'.table = st.table ++
        (entries freshGuid st.nextDiskOffset ps).flatMap writeBytes ∧
      st'.componentDisks = st.componentDisks ++ allPieces zeroFiller st.nextDiskOffset ps ∧
      st'.nextDiskOffset = partitionsEnd st.nextDiskOffset ps ∧
      st'.nextDiskOffset < u64Size ∧ st'.table.length ≤ gptTableSize := by
  induction ps generalizing st with
  | nil =>
    cases h
    exact ⟨forall_mem_nil _, (append_nil _).symm, (append_nil _).symm, rfl, hlt, hr⟩
  | cons p ps ih =>
    obtain ⟨st₁, hst₁, h⟩ := bind_eq_ok.mp h
    obtain ⟨path, hp, ht, hd, hn, hlt₁, hr₁⟩ := addPartition_eq_ok hst₁
    obtain ⟨hpaths, ht', hd', hn', hlt', hr'⟩ := ih h hr₁ hlt₁
    refine ⟨forall_mem_cons.mpr ⟨by simp [hp], hpaths⟩, ?_, ?_, ?_, hlt', hr'⟩
    · rw [ht', ht, hn, entries, flatMap_cons, append_assoc]
    · rw [hd', hd, hn, allPieces, hp, append_assoc]
      rfl
    · rw [hn', hn, partitionsEnd]

/-! ## The order of the components -/

lemma headOffset_piecesAt (zeroFiller : HostPath) (p : PartitionInfo) (path : HostPath)
    (start total : Nat) (rest : List ComponentDisk) :
    headOffset total (piecesAt zeroFiller p path start ++ rest) = start := rfl

lemma ascends_piecesAt (zeroFiller path : HostPath) (start : Nat) (hs : 0 < p.size) :
    Ascends (start + p.room) (piecesAt zeroFiller p path start) := by
  have hle := size_le_room p
  unfold piecesAt
  split
  · exact ⟨by simp only [headOffset]; omega, trivial⟩
  · exact ⟨by simp only [headOffset]; omega, by simp only [headOffset]; omega, trivial⟩

section
variable (hpaths : ∀ p ∈ ps, p.path ≠ none)
include hpaths

lemma headOffset_allPieces :
    headOffset (partitionsEnd start ps) (allPieces zeroFiller start ps) = start := by
  cases ps with
  | nil => rfl
  | cons p ps =>
    obtain ⟨path, hp⟩ := Option.ne_none_iff_exists'.mp (hpaths p mem_cons_self)
    rw [allPieces, hp]
    exact headOffset_piecesAt ..

lemma ascends_allPieces (hsz : ∀ p ∈ ps, 0 < p.size) :
    Ascends (partitionsEnd start ps) (allPieces zeroFiller start ps) := by
  induction ps generalizing start with
  | nil => trivial
  | cons p ps ih =>
    obtain ⟨hp, hp'⟩ := forall_mem_cons.mp hpaths
    obtain ⟨hs, hs'⟩ := forall_mem_cons.mp hsz
    obtain ⟨path, hpt⟩ := Option.ne_none_iff_exists'.mp hp
    rw [allPieces, partitionsEnd, hpt]
    refine Ascends.append ?_ (ih hp' hs')
    rw [headOffset_allPieces hp']
    exact ascends_piecesAt _ _ _ hs

lemma allPieces_split (hi : ps[i]? = some p) (hs : start % 4096 = 0) :
    ∃ place path g b e, p.path = some path ∧ start ≤ place ∧ place % 4096 = 0 ∧
      place + p.room ≤ partitionsEnd start ps ∧
      (entries freshGuid start ps)[i]? = some (entryOf p place g) ∧
      allPieces zeroFiller start ps = b ++ (piecesAt zeroFiller p path place ++ e) ∧
      headOffset (partitionsEnd start ps) e = place + p.room := by
  induction ps generalizing start i with
  | nil => simp at hi
  | cons q ps ih =>
    obtain ⟨hq, hpt'⟩ := forall_mem_cons.mp hpaths
    obtain ⟨path, hp⟩ := Option.ne_none_iff_exists'.mp hq
    cases i with
    | zero =>
      obtain rfl : q = p := by simpa using hi
      refine ⟨start, path, freshGuid ps.length, [], allPieces zeroFiller (start + q.room) ps,
        hp, Nat.le_refl _, hs, le_partitionsEnd .., rfl, ?_, headOffset_allPieces hpt'⟩
      rw [allPieces, hp]
      rfl
    | succ i =>
      have ha := room_mod q
      obtain ⟨place, path', g, b, e, hp', hle, hm, hend, hent, hpc, hn⟩ :=
        ih hpt' (by simpa using hi) (by omega : (start + q.room) % 4096 = 0)
      refine ⟨place, path', g, piecesAt zeroFiller q path start ++ b, e, hp', by omega, hm,
        hend, hent, ?_, hn⟩
      rw [allPieces, hp, hpc, append_assoc]
      rfl

end

section
variable (file : ComponentDisk → FileId) (zeroFiller : HostPath) (p : PartitionInfo)
  (path : HostPath) (start : Nat)

def partitionParts : List ComponentDiskPart :=
  ⟨file ⟨path, start, capability p⟩, start, p.size⟩ ::
    if p.size = p.room then []
    else [⟨file ⟨zeroFiller, start + p.size, capabilityReadOnly⟩, start + p.size,
      p.room - p.size⟩]

lemma layOut_piecesAt :
    layOut file (start + p.room) (piecesAt zeroFiller p path start) =
      partitionParts file zeroFiller p path start := by
  have hf : start + p.size - start = p.size := by omega
  have hz : start + p.room - (start + p.size) = p.room - p.size := by omega
  unfold piecesAt partitionParts
  split
  · rename_i hs
    simp only [layOut, headOffset]
    rw [← hs, hf]
  · simp only [layOut, headOffset]
    rw [hf, hz]

end

/-! ## The bytes of the table -/

def readU64 (l : List (BitVec 8)) (k : Nat) : Nat := (le64 (fun i => l.getD i 0) k).toNat

lemma readU64_of_drop {l b : List (BitVec 8)} {n k : Nat} (h : l.drop k = u64Bytes n ++ b)
    (hn : n < u64Size) : readU64 l k = n := by
  have hg (m : Nat) : (u64Bytes n ++ b).getD m 0 = l.getD (k + m) 0 := by
    rw [← h, getD_eq_getElem?_getD, getD_eq_getElem?_getD, getElem?_drop]
  have hr : readU64 l k = readU64 (u64Bytes n ++ b) 0 := by
    simp only [readU64, le64, le32, le16, hg, Nat.add_zero]
  rw [hr, readU64, u64Bytes, le64_leBytes64]
  exact Nat.mod_eq_of_lt hn

lemma length_partitionName (label : String) : (partitionName label).length = 36 := by
  rw [partitionName, length_take, length_append, length_replicate]
  omega

lemma length_flatMap_leBytes16 (l : List (BitVec 16)) :
    (l.flatMap leBytes16).length = 2 * l.length := by
  induction l with
  | nil => rfl
  | cons v l ih =>
    rw [flatMap_cons, length_append, length_cons]
    rw [length_leBytes16]
    omega

lemma length_writeBytes (p : PartitionInfo) (start : Nat) (guid : Uuid) :
    (entryOf p start guid).writeBytes.length = 128 := by
  have hn : ((entryOf p start guid).partitionName.flatMap leBytes16).length = 72 := by
    rw [length_flatMap_leBytes16]
    exact congrArg (2 * ·) (length_partitionName p.label)
  unfold writeBytes
  rw [length_append, hn]
  rfl

lemma entries_split {place : Nat} {g : Uuid}
    (h : (entries freshGuid start ps)[i]? = some (entryOf p place g)) :
    ∃ before after, (entries freshGuid start ps).flatMap writeBytes =
        before ++ ((entryOf p place g).writeBytes ++ after) ∧ before.length = 128 * i := by
  induction ps generalizing start i with
  | nil => simp [entries] at h
  | cons q ps ih =>
    rw [entries, flatMap_cons]
    cases i with
    | zero =>
      have heq : entryOf q start (freshGuid ps.length) = entryOf p place g := by
        simpa [entries] using h
      exact ⟨[], _, by rw [heq, nil_append], rfl⟩
    | succ i =>
      obtain ⟨before, after, hs, hl⟩ := ih (by simpa [entries] using h)
      refine ⟨_, after, by rw [hs, ← append_assoc], ?_⟩
      rw [length_append, length_writeBytes]
      omega

/-! ## The disk -/

section Created
variable {creator : Creator} {headerPath footerPath : HostPath} {image : CompositeImage}
  {file : ComponentDisk → FileId} (n : Nat)

@[simp] lemma length_zeroBytes : (zeroBytes n).length = n := length_replicate

@[simp] lemma length_u64Bytes : (u64Bytes n).length = 8 := rfl

@[simp] lemma length_u32Bytes : (u32Bytes n).length = 4 := rfl

@[simp] lemma length_writeGuid (guid : Uuid) : (writeGuid guid).length = 16 := rfl

lemma length_writeProtectiveMbr {diskSize : Nat} {mbr : List (BitVec 8)}
    (h : writeProtectiveMbr diskSize = .ok mbr) : mbr.length = 512 := by
  unfold writeProtectiveMbr at h
  split at h
  · cases h
  cases h
  simp only [length_append, length_zeroBytes, length_leBytes32, length_cons,
    length_nil, mbrPartitionEntrySize]

lemma GptHeader.length_writeBytes (h : GptHeader) : h.writeBytes.length = 92 := by
  simp only [writeBytes, length_append, length_zeroBytes, length_u64Bytes, length_u32Bytes,
    length_leBytes32, length_writeGuid, length_cons, length_nil]

lemma writeGptHeader_eq_ok {crc32 : List (BitVec 8) → BitVec 32} {diskGuid : Uuid}
    {entriesCrc32 : BitVec 32} {tableOffset : Nat} {secondary : Bool} {header : List (BitVec 8)}
    (h : writeGptHeader crc32 diskGuid entriesCrc32 tableOffset secondary = .ok header) :
    ∃ gpt : GptHeader, header = gpt.writeBytes ∧
      gpt.currentLba = (if secondary then (tableOffset + gptEndSize) / sectorSize - 1 else 1) ∧
      gpt.backupLba = if secondary then 1 else (tableOffset + gptEndSize) / sectorSize - 1 := by
  obtain ⟨diskEnd, hend, h⟩ := bind_eq_ok.mp h
  obtain ⟨hed, hl, h⟩ := bind_eq_ok.mp h
  obtain ⟨lastLba, -, h⟩ := bind_eq_ok.mp h
  obtain ⟨-, rfl⟩ := addIn_eq_ok.mp hend
  obtain ⟨-, rfl⟩ := subU64_eq_ok.mp hl
  cases h
  exact ⟨_, rfl, rfl, rfl⟩

lemma finishDisk_files (h : finishDisk creator headerPath footerPath st = .ok image) :
    ∃ mbr primary backup : List (BitVec 8), mbr.length = 512 ∧
      writeGptHeader creator.crc32 creator.diskGuid (creator.crc32 (partitionsBuffer st))
        (st.nextDiskOffset + footerPadding) false = .ok primary ∧
      writeGptHeader creator.crc32 creator.diskGuid (creator.crc32 (partitionsBuffer st))
        (st.nextDiskOffset + footerPadding) true = .ok backup ∧
      image.header = mbr ++ (primary ++ (zeroBytes 420 ++
        (partitionsBuffer st ++ zeroBytes 3072))) ∧
      image.footer = zeroBytes footerPadding ++ (partitionsBuffer st ++ (backup ++ zeroBytes 420)) ∧
      image.spec = ⟨compositeDiskVersion, ⟨headerPath, 0, capabilityReadOnly⟩ ::
        (st.componentDisks ++ [⟨footerPath, st.nextDiskOffset, capabilityReadOnly⟩]),
        st.nextDiskOffset + footerPadding + gptEndSize⟩ := by
  obtain ⟨tableOffset, htab, h⟩ := bind_eq_ok.mp h
  obtain ⟨diskSize, hs, h⟩ := bind_eq_ok.mp h
  split at h
  · cases h
  obtain ⟨header, hh, h⟩ := bind_eq_ok.mp h
  split at h
  · cases h
  obtain ⟨tail, ht, h⟩ := bind_eq_ok.mp h
  split at h
  · cases h
  cases h
  obtain ⟨-, rfl⟩ := addIn_eq_ok.mp htab
  obtain ⟨-, rfl⟩ := addIn_eq_ok.mp hs
  obtain ⟨mbr, hm, hh⟩ := bind_eq_ok.mp hh
  obtain ⟨primary, hp, hh⟩ := bind_eq_ok.mp hh
  obtain ⟨backup, hb, ht⟩ := bind_eq_ok.mp ht
  cases hh
  cases ht
  refine ⟨mbr, primary, backup, length_writeProtectiveMbr hm, hp, hb, ?_, ?_, rfl⟩
  all_goals
    simp only [append_assoc]
    rfl

/-- The header and the specification of a created disk. -/
structure Created (freshGuid : Nat → Uuid) (ps : List PartitionInfo)
    (zeroFiller headerPath footerPath : HostPath) (image : CompositeImage) : Prop where
  paths : ∀ p ∈ ps, p.path ≠ none
  table : ∃ front back, image.header = front ++
      ((entries freshGuid gptBeginningSize ps).flatMap writeBytes ++ back) ∧
    front.length = 1024
  version : image.spec.version = compositeDiskVersion
  disks : image.spec.componentDisks = ⟨headerPath, 0, capabilityReadOnly⟩ ::
    (allPieces zeroFiller gptBeginningSize ps ++
      [⟨footerPath, partitionsEnd gptBeginningSize ps, capabilityReadOnly⟩])
  end_lt : partitionsEnd gptBeginningSize ps < u64Size
  length : partitionsEnd gptBeginningSize ps < image.spec.length

lemma createCompositeDisk_eq_ok {zeroFillerPath hed footerFile : Option HostPath}
    (h : createCompositeDisk creator ps zeroFillerPath hed footerFile = .ok image) :
    ∃ zeroFiller headerPath footerPath, zeroFillerPath = some zeroFiller ∧
      Created creator.freshGuid ps zeroFiller headerPath footerPath image := by
  unfold createCompositeDisk at h
  split at h
  · rename_i zeroFiller headerPath footerPath
    obtain ⟨st, hst, h⟩ := bind_eq_ok.mp h
    obtain ⟨hpaths, ht, hd, hn, hlt, -⟩ := addPartitions_eq_ok hst (Nat.zero_le _) (by decide)
    obtain ⟨mbr, primary, backup, hm, hp, -, hh, -, hs⟩ := finishDisk_files h
    obtain ⟨gpt, rfl, -⟩ := writeGptHeader_eq_ok hp
    simp only [nil_append] at ht hd
    have hpos : 0 < footerPadding := by decide
    refine ⟨zeroFiller, headerPath, footerPath, rfl, hpaths, ?_, ?_, ?_, hn ▸ hlt, ?_⟩
    · refine ⟨mbr ++ (gpt.writeBytes ++ zeroBytes 420),
        zeroBytes (gptTableSize - st.table.length) ++
        zeroBytes 3072, ?_, ?_⟩
      · rw [hh, partitionsBuffer, ht]
        simp
      · rw [length_append, length_append, hm, gpt.length_writeBytes, length_zeroBytes]
    · rw [hs]
    · rw [hs, hd, hn]
    · rw [hs, ← hn]
      dsimp only
      omega
  · cases h

lemma sectors_span {place aligned : Nat} (hp : place % 4096 = 0) (hal : aligned % 4096 = 0)
    (hle : 20480 ≤ place) :
    place / 512 * 512 = place ∧ ((place + aligned) / 512 - 1 + 1) * 512 = place + aligned := by
  omega

lemma readU64_entry {l front back : List (BitVec 8)} {place : Nat} {g : Uuid}
    (hl : l = front ++ ((entryOf p place g).writeBytes ++ back))
    (hlt : place + p.room < u64Size) :
    readU64 l (front.length + 32) = place / 512 ∧
      readU64 l (front.length + 40) = (place + p.room) / 512 - 1 := by
  have hd (k : Nat) : l.drop (front.length + k) =
      ((entryOf p place g).writeBytes ++ back).drop k := by rw [hl, drop_length_add_append]
  constructor
  · exact readU64_of_drop ((hd 32).trans rfl) (by omega)
  · exact readU64_of_drop ((hd 40).trans rfl) (by omega)

namespace Created
variable (h : Created freshGuid ps zeroFiller headerPath footerPath image)
include h

lemma ascends (hs : ∀ p ∈ ps, 0 < p.size) :
    Ascends image.spec.length image.spec.componentDisks := by
  rw [h.disks]
  refine ⟨?_, Ascends.append ?_ ⟨h.length, trivial⟩⟩
  · rw [headOffset_append, headOffset, headOffset_allPieces h.paths]
    exact (by decide : 0 < gptBeginningSize)
  · exact ascends_allPieces h.paths hs

lemma partition_placed (file : ComponentDisk → FileId) (hi : ps[i]? = some p) (hs : 0 < p.size) :
    ∃ path first last before after, p.path = some path ∧
      first = readU64 image.header (1024 + 128 * i + 32) ∧
      last = readU64 image.header (1024 + 128 * i + 40) ∧
      layOut file image.spec.length image.spec.componentDisks =
        before ++ (partitionParts file zeroFiller p path (first * 512) ++ after) ∧
      Covers (first * 512) (partitionParts file zeroFiller p path (first * 512))
        ((last + 1) * 512) := by
  obtain ⟨place, path, g, b, e, hp, hle, hm, hend, hent, hpc, hn⟩ :=
    allPieces_split h.paths hi (by decide : gptBeginningSize % 4096 = 0)
  obtain ⟨front, back, hh, hfr⟩ := h.table
  obtain ⟨before, after, hsp, hpre⟩ := entries_split hent
  obtain ⟨hfst, hl⟩ := sectors_span hm (room_mod p) hle
  have hby : image.header =
      (front ++ before) ++ ((entryOf p place g).writeBytes ++ (after ++ back)) := by
    rw [hh, hsp]
    simp
  have hf := readU64_entry hby (Nat.lt_of_le_of_lt hend h.end_lt)
  rw [length_append, hfr, hpre] at hf
  refine ⟨path, place / 512, (place + p.room) / 512 - 1,
    layOut file place (⟨headerPath, 0, capabilityReadOnly⟩ :: b),
    layOut file image.spec.length
      (e ++ [⟨footerPath, partitionsEnd gptBeginningSize ps, capabilityReadOnly⟩]),
    hp, hf.1.symm, hf.2.symm, ?_, ?_⟩
  · rw [hfst, ← layOut_piecesAt, h.disks, hpc, append_assoc, append_assoc,
      ← cons_append, layOut_append, layOut_append, headOffset_piecesAt, headOffset_append,
      headOffset, hn]
  · rw [hfst, hl, ← layOut_piecesAt]
    exact (ascends_piecesAt _ _ _ hs).covers

/-- An empty partition starts where the next component does. -/
lemma sizes_of_nodup (hn : (image.spec.componentDisks.map (·.offset)).Nodup) :
    ∀ p ∈ ps, 0 < p.size := by
  intro p hp
  by_contra hz
  obtain ⟨i, hi⟩ := mem_iff_getElem?.mp hp
  obtain ⟨place, path, g, b, e, -, -, -, -, -, hpc, hhd⟩ :=
    @allPieces_split p ps zeroFiller freshGuid
    _ _ h.paths hi (by decide : gptBeginningSize % 4096 = 0)
  have hsz : p.size = 0 := by omega
  have hrm : p.room = 0 := by rw [PartitionInfo.room, hsz]; rfl
  rw [hrm] at hhd
  rw [h.disks, hpc, piecesAt, hsz, hrm, if_pos rfl] at hn
  cases e with
  | nil =>
    have hpl : partitionsEnd gptBeginningSize ps = place := hhd
    rw [hpl] at hn
    simp [nodup_append] at hn
  | cons next e =>
    have hpl : next.offset = place := hhd
    simp [nodup_append, hpl] at hn

end Created

/-- **A created disk.** Exactly if no partition is empty, the written specification is accepted as
soon as its files open, the components reach without a gap from 0 to the declared length, and the
entry of each partition in the header's table spans the parts of its file and of the zeros behind
it. -/
theorem created_disk_accepted_iff {zeroFillerPath headerFile footerFile : Option HostPath}
    (h : createCompositeDisk creator ps zeroFillerPath headerFile footerFile = .ok image) :
    (∃ zeroFiller, zeroFillerPath = some zeroFiller ∧
      ∀ env params file encoded, env.parseFromReader encoded = some image.spec →
        Opens env params file image.spec.componentDisks →
        ∃ disk, fromFile env (cdiskMagic ++ encoded) params = .ok disk ∧
          Covers 0 disk.componentDisks image.spec.length ∧
          ∀ i p, ps[i]? = some p → ∃ path first last before after, p.path = some path ∧
            first = readU64 image.header (1024 + 128 * i + 32) ∧
            last = readU64 image.header (1024 + 128 * i + 40) ∧
            disk.componentDisks =
              before ++ (partitionParts file zeroFiller p path (first * 512) ++ after) ∧
            Covers (first * 512) (partitionParts file zeroFiller p path (first * 512))
              ((last + 1) * 512)) ↔ ∀ p ∈ ps, 0 < p.size := by
  obtain ⟨zeroFiller, headerPath, footerPath, hz, hmk⟩ := createCompositeDisk_eq_ok h
  refine ⟨fun ⟨_, _, hacc⟩ => ?_, fun hsizes =>
    ⟨zeroFiller, hz, fun env params file encoded hp ho => ?_⟩⟩
  · obtain ⟨disk, hd, -⟩ := hacc (openingEnvironment image.spec) plainParams
      (fun d => (HostPath.join ⟨true, ["d"]⟩ d.filePath).components.length) [] rfl
      ⟨by decide, ⟨true, ["d"]⟩, rfl, fun _ _ => rfl⟩
    obtain ⟨_, ⟨⟩, ha⟩ := fromFile_eq_ok hd
    exact hmk.sizes_of_nodup ha.nodup
  have ha := hmk.ascends hsizes
  have hne : image.spec.componentDisks ≠ [] := by simp [hmk.disks]
  refine ⟨⟨layOut file image.spec.length image.spec.componentDisks⟩, ?_, ?_, fun i p hi => ?_⟩
  · rw [fromFile, take_left, drop_left, if_neg (by simp), if_neg (by simp), hp]
    exact ha.fromProto hne ho hmk.version
  · have hc : Covers (headOffset image.spec.length image.spec.componentDisks)
      (layOut file image.spec.length image.spec.componentDisks) image.spec.length := ha.covers
    rwa [show headOffset image.spec.length image.spec.componentDisks = 0 by
      rw [hmk.disks]; rfl] at hc
  · exact hmk.partition_placed file hi (hsizes p (mem_of_getElem? hi))

def plainCreator : Creator := ⟨fun _ => 0, fun _ => ⟨0, 0, 0, 0⟩, ⟨0, 0, 0, 0⟩, true, true, true⟩

def plainPartition (name : String) (size : Nat) : PartitionInfo :=
  ⟨name, some ⟨false, [name]⟩, .linuxFilesystem, false, size, none⟩

def plainDisk (ps : List PartitionInfo) : Outcome CreateError CompositeImage :=
  createCompositeDisk plainCreator ps (some ⟨false, ["zero"]⟩) (some ⟨false, ["header"]⟩)
    (some ⟨false, ["footer"]⟩)

theorem created_disk_accepted_iff_two :
    ∃ image, plainDisk [plainPartition "a" 4000, plainPartition "b" 8192] = .ok image ∧
      ∃ disk, fromFile (openingEnvironment image.spec) cdiskMagic plainParams = .ok disk ∧
        Covers 0 disk.componentDisks image.spec.length := by
  obtain ⟨image, hi⟩ :=
    exists_eq_ok (x := plainDisk [plainPartition "a" 4000, plainPartition "b" 8192])
      (by decide +kernel)
  obtain ⟨zeroFiller, -, ha⟩ := (created_disk_accepted_iff hi).mpr (by decide)
  obtain ⟨disk, hd, hc, -⟩ := ha (openingEnvironment image.spec) plainParams
    (fun d => (HostPath.join ⟨true, ["d"]⟩ d.filePath).components.length) [] rfl
    ⟨by decide, ⟨true, ["d"]⟩, rfl, fun _ _ => rfl⟩
  exact ⟨image, hi, disk, hd, hc⟩

/-- A disk with an empty partition is created, but two of its components start at one offset. -/
theorem empty_partition_rejected :
    ∃ image, plainDisk [plainPartition "a" 0] = .ok image ∧
      fromFile (openingEnvironment image.spec) cdiskMagic plainParams = .err (.twoDisksAt 20480) :=
  exists_ok (by decide +kernel)

end Created

end GunyahVmm.Disk
