import GunyahVmm.Disk.Zstd

/-! Opening and reading zstd archives. The number of frames is multiplied in 32 bits, and an offset
in the kept frame is not compared with its length. -/

namespace GunyahVmm.Disk
open Run Run.Outcome List

/-! ## The seek table -/

namespace ZstdSeekTable

/-- The sums grow, and there are as many of one kind as of the other. -/
structure Sound (table : ZstdSeekTable) : Prop where
  length : table.cumulativeCompressedSizes.length = table.cumulativeDecompressedSizes.length
  compressed : table.cumulativeCompressedSizes.Pairwise (· ≤ ·)

variable {offset : Nat} {sizes : List Nat} (entries : List (BitVec 8))

lemma sums_yields (stride n offset decompressed compressed : Nat)
    (hd : decompressed + n * (u32Size - 1) < u64Size)
    (hc : compressed + n * (u32Size - 1) < u64Size) :
    (sums entries stride n offset decompressed compressed).Yields fun rest =>
      rest.2.length = rest.1.length ∧ (compressed :: rest.2).Pairwise (· ≤ ·) := by
  induction n generalizing offset decompressed compressed with
  | zero => simp [sums]
  | succ n ih =>
    rw [sums]
    split_ifs with hsh
    · trivial
    have hm : (n + 1) * (u32Size - 1) = n * (u32Size - 1) + (u32Size - 1) := Nat.succ_mul _ _
    have hb : ∀ v : BitVec 32, v.toNat ≤ u32Size - 1 := fun v => Nat.le_sub_one_of_lt v.isLt
    have hdec := hb (le32 (fun i => entries.getD (offset + i) 0) 4)
    have hcom := hb (le32 (fun i => entries.getD (offset + i) 0) 0)
    simp only [addU64_of_lt (show decompressed +
        (le32 (fun i => entries.getD (offset + i) 0) 4).toNat < u64Size by omega),
      addU64_of_lt (show compressed +
        (le32 (fun i => entries.getD (offset + i) 0) 0).toNat < u64Size by omega), ok_bind]
    refine (ih (offset + stride) _ _ (by omega) (by omega)).bind fun rest hr => ?_
    obtain ⟨hl, hsr⟩ := hr
    refine ⟨by simp [hl], pairwise_cons.mpr ⟨fun size hs => ?_, hsr⟩⟩
    rcases mem_cons.mp hs with rfl | hs
    · omega
    · have := (pairwise_cons.mp hsr).1 size hs
      omega

lemma fromFooter_yields (numFrames : BitVec 32) (checksumFlag : Bool) :
    (fromFooter entries numFrames checksumFlag).Yields Sound := by
  have hb : 0 + numFrames.toNat * (u32Size - 1) < u64Size := by
    have hlt : numFrames.toNat ≤ u32Size - 1 := Nat.le_sub_one_of_lt numFrames.isLt
    have hm := Nat.mul_le_mul_right (u32Size - 1) hlt
    have : (u32Size - 1) * (u32Size - 1) < u64Size := by decide
    omega
  refine (sums_yields entries _ numFrames.toNat 0 0 0 hb hb).bind fun rest hr => ?_
  exact ⟨by simp [hr.1], hr.2⟩

lemma partitionPoint_cons (size : Nat) (sizes : List Nat) (offset : Nat) :
    partitionPoint (size :: sizes) offset =
      if size ≤ offset then partitionPoint sizes offset + 1 else 0 := by
  rw [partitionPoint, takeWhile_cons]
  by_cases h : size ≤ offset <;> simp [h, partitionPoint]

lemma exists_of_lt_partitionPoint {i : Nat} (h : i < partitionPoint sizes offset) :
    ∃ size, sizes[i]? = some size ∧ size ≤ offset := by
  induction sizes generalizing i with
  | nil => simp [partitionPoint] at h
  | cons size sizes ih =>
    rw [partitionPoint_cons] at h
    split_ifs at h with hle
    · cases i with
      | zero => exact ⟨size, rfl, hle⟩
      | succ i => exact ih (by omega)
    · cases h

lemma exists_at_partitionPoint {total : Nat} (hl : sizes.getLast? = some total)
    (hlt : offset < total) :
    ∃ next, sizes[partitionPoint sizes offset]? = some next ∧ offset < next := by
  induction sizes with
  | nil => cases hl
  | cons size sizes ih =>
    rw [partitionPoint_cons]
    split_ifs with hle
    · cases sizes with
      | nil =>
        rw [getLast?_singleton, Option.some.injEq] at hl
        omega
      | cons second sizes => exact ih (by simpa using hl)
    · exact ⟨size, rfl, by omega⟩

lemma exists_of_findFrameIndex {table : ZstdSeekTable} {frameIndex : Nat}
    (h : table.findFrameIndex offset = some frameIndex) :
    ∃ start next, table.cumulativeDecompressedSizes[frameIndex]? = some start ∧
      table.cumulativeDecompressedSizes[frameIndex + 1]? = some next ∧
      start ≤ offset ∧ offset < next := by
  rw [findFrameIndex] at h
  split at h
  · cases h
  rename_i total hl
  split_ifs at h with htot
  rw [checkedSub] at h
  split_ifs at h with hp
  cases h
  obtain ⟨next, hn, hlt⟩ := exists_at_partitionPoint hl (Nat.lt_of_not_le htot)
  obtain ⟨start, hs, hle⟩ := exists_of_lt_partitionPoint (Nat.sub_one_lt_of_lt hp)
  refine ⟨start, next, hs, ?_, hle, hlt⟩
  rwa [Nat.sub_add_cancel hp]

end ZstdSeekTable

namespace ZstdDisk

/-! ## Opening -/

/-- The size of the seek table fits 32 bits, unless the footer is refused before. -/
def EntriesFit (file : ImageFile) : Prop :=
  17 ≤ file.content.length → le32 (seektableFooter file) 5 = zstdSeekTableMagic →
    seektableFooter file 4 &&& 0x7C = 0 → (numFrames file).toNat * entrySize file < u32Size

instance (file : ImageFile) : Decidable (EntriesFit file) := inferInstanceAs (Decidable (_ → _))

variable {frameIndex : Nat} {data : List (BitVec 8)} {file : ImageFile}

lemma fromFile_yields : YieldsIf (EntriesFit file) (fromFile file) fun disk =>
    disk.seekTable.Sound ∧ disk.cache = none := by
  dsimp only [fromFile]
  split
  · trivial
  rename_i hs
  split
  · trivial
  rename_i hm
  split
  · trivial
  rename_i hf
  rw [mulU32]
  split
  · rw [ok_bind]
    split
    · trivial
    refine (ZstdSeekTable.fromFooter_yields _ _ _).yieldsIf.bind fun table htab => ?_
    exact ⟨htab, rfl⟩
  · rename_i ho
    exact fun h => ho (h (not_lt.mp hs) (not_not.mp hm) (not_not.mp hf))

lemma fromFile_of_not_entriesFit (h : ¬ EntriesFit file) : fromFile file = .panic := by
  simp only [EntriesFit, not_forall, exists_prop] at h
  obtain ⟨hs, hm, hf, ho⟩ := h
  dsimp only [fromFile]
  rw [if_neg (not_lt.mpr hs), if_neg (not_not.mpr hm), if_neg (not_not.mpr hf), mulU32, if_neg ho,
    panic_bind]

/-! ## Reading -/

def Fills (table : ZstdSeekTable) (frameIndex : Nat) (data : List (BitVec 8)) : Prop :=
  ∀ start next, table.cumulativeDecompressedSizes[frameIndex]? = some start →
    table.cumulativeDecompressedSizes[frameIndex + 1]? = some next → next - start ≤ data.length

/-- Every frame that is decompressed has the bytes that the table gives it. -/
def Surroundings.Faithful (env : Surroundings) (table : ZstdSeekTable) : Prop :=
  ∀ frameIndex compressed data, env.decompress frameIndex compressed = some data →
    Fills table frameIndex data

/-- The state of a disk between reads: the table is sound, and the kept frame has its bytes. -/
structure Ready (table : ZstdSeekTable) (disk : ZstdDisk) : Prop where
  seekTable : disk.seekTable = table
  cache : ∀ c ∈ disk.cache, Fills table c.frameIndex c.data

/-- A call that does not abort and leaves the disk ready. -/
def Safe {α : Type} (table : ZstdSeekTable) (res : Outcome ReadError α × ZstdDisk) : Prop :=
  res.1 ≠ .panic ∧ Ready table res.2

variable {table : ZstdSeekTable} {disk : ZstdDisk} {env : Surroundings}

lemma Ready.andThen {α β : Type} (hd : Ready table disk) {x : Outcome ReadError α}
    {P : α → Prop} {next : α → Outcome ReadError β × ZstdDisk} (hx : x.Yields P)
    (hn : ∀ a, P a → Safe table (next a)) : Safe table (disk.andThen x next) := by
  cases x with
  | ok a => exact hn a hx
  | err e => exact ⟨by simp [ZstdDisk.andThen], hd⟩
  | panic => exact hx.elim

lemma readInstruction_yields (ht : table.Sound) (offset : Nat) :
    (compressedFrameReadInstruction table offset).Yields fun ins =>
      table.findFrameIndex offset = some ins.frameIndex := by
  rw [compressedFrameReadInstruction]
  cases hf : table.findFrameIndex offset with
  | none => trivial
  | some frameIndex =>
    obtain ⟨start, next, hs, hn, -, -⟩ := ZstdSeekTable.exists_of_findFrameIndex hf
    have hlt : frameIndex + 1 < table.cumulativeCompressedSizes.length := by
      rw [ht.length]
      exact (List.getElem?_eq_some_iff.mp hn).1
    have hlt' : frameIndex < table.cumulativeCompressedSizes.length := by omega
    have hle := pairwise_iff_getElem.mp ht.compressed frameIndex (frameIndex + 1) hlt' hlt
      (Nat.lt_succ_self _)
    simp only [index, getElem?_eq_getElem hlt, getElem?_eq_getElem hlt', Outcome.expect,
      ok_bind, subU64_of_le hle, yields_ok]

lemma offsetInFrame_yields {offset : Nat}
    (h : disk.seekTable.findFrameIndex offset = some frameIndex)
    (hdt : Fills disk.seekTable frameIndex data) :
    (disk.offsetInFrame offset frameIndex).Yields fun start => start < data.length := by
  obtain ⟨start, next, hs, hn, hle, hlt⟩ := ZstdSeekTable.exists_of_findFrameIndex h
  have hl := hdt start next hs hn
  simp only [offsetInFrame, index, hs, Outcome.expect, ok_bind, subU64_of_le hle, yields_ok]
  omega

lemma sliceFrom_yields {start : Nat} (h : start ≤ data.length) :
    (sliceFrom data start).Yields fun _ => True := by
  rw [sliceFrom, if_pos h]
  trivial

lemma copyToMem_yields (data : List (BitVec 8)) (regions : List MemRegion) (totalCopied : Nat)
    (mem : BackingMemory) (h : totalCopied ≤ data.length) :
    (copyToMem data regions totalCopied mem).Yields fun _ => True := by
  induction regions generalizing totalCopied mem with
  | nil => trivial
  | cons region regions ih =>
    simp only [copyToMem, sliceFrom, if_pos h, ok_bind]
    split_ifs
    · trivial
    · refine ih _ _ ?_
      rw [length_drop]
      omega
    · exact ih _ _ h
    · trivial

lemma copyFrom_yields {start : Nat} (h : start ≤ data.length) {regions : List MemRegion}
    (hr : ∀ r ∈ regions, r.offset < u64Size) (mem : BackingMemory) :
    (copyFrom data start (.new regions) mem).Yields fun _ => True := by
  have hc : ((MemRegionIter.new regions).collect : Outcome ReadError _) = _ :=
    MemRegionIter.collect_eq _ (MemRegionIter.enterable_zero hr)
  refine (sliceFrom_yields h).bind fun src _ => ?_
  rw [hc, ok_bind]
  exact copyToMem_yields src _ 0 mem (Nat.zero_le _)

lemma Ready.cached (hd : Ready table disk) (h : disk.cached env frameIndex = some data) :
    Fills table frameIndex data := by
  rw [ZstdDisk.cached] at h
  split_ifs at h
  split at h
  · rename_i cache hc
    split_ifs at h with heq
    cases h
    exact heq ▸ hd.cache cache hc
  · cases h

lemma Ready.keep (hd : Ready table disk) (h : Fills table frameIndex data) :
    Ready table (disk.keep env frameIndex data) := by
  rw [ZstdDisk.keep]
  split_ifs
  · refine ⟨hd.seekTable, ?_⟩
    rintro c ⟨⟩
    exact h
  · exact hd

section
variable (env : Surroundings) (ins : CompressedReadInstruction)

lemma frameBytes_yields : (frameBytes env ins).Yields fun _ => True := by
  rw [frameBytes]
  split <;> trivial

lemma frameBytesAsync_yields : (frameBytesAsync env ins).Yields fun _ => True := by
  rw [frameBytesAsync]
  split
  · trivial
  · split <;> trivial

end

lemma decoded_yields (henv : env.Faithful table) (ins : CompressedReadInstruction)
    (compressed : List (BitVec 8)) :
    (decoded env ins compressed).Yields (Fills table ins.frameIndex) := by
  rw [decoded]
  split
  · trivial
  · rename_i data hdt
    exact henv _ _ _ hdt

section
variable (hd : Ready table disk) (ht : table.Sound) (henv : env.Faithful table)
include hd ht henv

/-- The kept frame and one that is decompressed both have the byte at the offset. -/
lemma Ready.readAtVolatile
    (size offset : Nat) : Safe table (disk.readAtVolatile env size offset) := by
  obtain rfl := hd.seekTable
  refine hd.andThen (readInstruction_yields ht offset) fun ins hi => ?_
  cases hc : disk.cached env ins.frameIndex with
  | some data =>
    refine hd.andThen (offsetInFrame_yields hi (hd.cached hc)) fun start hs => ?_
    exact hd.andThen (sliceFrom_yields hs.le) fun src _ => ⟨by simp, hd⟩
  | none =>
    refine hd.andThen (frameBytes_yields env ins) fun compressed _ => ?_
    refine hd.andThen (decoded_yields henv ins compressed) fun data hdt => ?_
    refine hd.andThen (offsetInFrame_yields hi hdt) fun start hs => ?_
    split_ifs
    · exact ⟨by simp, hd⟩
    · exact hd.andThen (sliceFrom_yields hs.le) fun src _ => ⟨by simp, hd.keep hdt⟩

lemma Ready.readToMem (fileOffset : Nat) (mem : BackingMemory) {regions : List MemRegion}
    (hr : ∀ r ∈ regions, r.offset < u64Size) :
    Safe table (disk.readToMem env fileOffset mem (.new regions)) := by
  obtain rfl := hd.seekTable
  refine hd.andThen (readInstruction_yields ht fileOffset) fun ins hi => ?_
  cases hc : disk.cached env ins.frameIndex with
  | some data =>
    refine hd.andThen (offsetInFrame_yields hi (hd.cached hc)) fun start hs => ?_
    exact ⟨(yields_iff.mp (copyFrom_yields hs.le hr mem)).1, hd⟩
  | none =>
    refine hd.andThen (frameBytesAsync_yields env ins) fun compressed _ => ?_
    refine hd.andThen (decoded_yields henv ins compressed) fun data hdt => ?_
    refine hd.andThen (offsetInFrame_yields hi hdt) fun start hs => ?_
    split_ifs
    · exact ⟨by simp, hd⟩
    · exact ⟨(yields_iff.mp (copyFrom_yields hs.le hr mem)).1, hd.keep hdt⟩

end

/-! ## Sequences of reads -/

inductive Read where
  | sync (env : Surroundings) (size offset : Nat)
  | async (env : Surroundings) (fileOffset : Nat) (mem : BackingMemory) (regions : List MemRegion)

/-- Every frame decodes to the length in the table, and the regions are places in memory. -/
def Read.Regular (table : ZstdSeekTable) : Read → Prop
  | .sync env _ _ => env.Faithful table
  | .async env _ _ regions => env.Faithful table ∧ ∀ r ∈ regions, r.offset < u64Size

/-- What a call leaves; `none` when the process was aborted. -/
def left {α : Type} (res : Outcome ReadError α × ZstdDisk) : Option ZstdDisk :=
  match res with
  | (.panic, _) => none
  | (_, disk) => some disk

def read (disk : ZstdDisk) : Read → Option ZstdDisk
  | .sync env size offset => left (disk.readAtVolatile env size offset)
  | .async env fileOffset mem regions => left (disk.readToMem env fileOffset mem (.new regions))

lemma Safe.left {α : Type} {res : Outcome ReadError α × ZstdDisk} (h : Safe table res) :
    ∃ disk', ZstdDisk.left res = some disk' ∧ Ready table disk' := by
  obtain ⟨_ | _ | _, disk'⟩ := res
  · exact ⟨disk', rfl, h.2⟩
  · exact ⟨disk', rfl, h.2⟩
  · exact absurd rfl h.1

/-- **Safety.** Exactly a file whose seek table has a size of 32 bits is opened or refused. No
sequence of reads of an opened disk aborts if the frames have the bytes that the table gives
them. -/
theorem zstd_disk_safe (file : ImageFile) :
    (fromFile file ≠ .panic ↔ EntriesFit file) ∧
      ∀ disk, fromFile file = .ok disk → ∀ reads : List Read,
        (∀ r ∈ reads, r.Regular disk.seekTable) → ∃ disk', run read reads disk = some disk' := by
  have hf := yieldsIf_iff.mp (@fromFile_yields file)
  refine ⟨⟨fun h => by_contra fun hn => h (fromFile_of_not_entriesFit hn), hf.1⟩,
    fun disk hds reads hrd => ?_⟩
  obtain ⟨hs, hc⟩ := hf.2 disk hds
  have hre : Ready disk.seekTable disk := ⟨rfl, by simp [hc]⟩
  obtain ⟨disk', hrun, -⟩ := run_completes read
    (fun _ d => Ready disk.seekTable d) reads (fun _ d r hr hd => by
      have hrg := hrd r hr
      cases r with
      | sync env size offset => exact (hd.readAtVolatile hs hrg size offset).left
      | async env fileOffset mem regions =>
        exact (hd.readToMem hs hrg.1 fileOffset mem hrg.2).left) [] disk hre
  exact ⟨disk', hrun⟩

/-- One frame: four bytes that stand for sixteen. -/
def oneFrame : ImageFile where
  content := [
    1, 2, 3, 4, 0, 0, 0, 0,
    4, 0, 0, 0, 16, 0, 0, 0,
    1, 0, 0, 0, 0, 0xb1, 0xea, 0x92, 0x8f]
  length_le := by decide

def zerosOf (n : Nat) : Surroundings where
  cacheReadable := true
  cacheWritable := true
  readFile offset size := some ((oneFrame.content.drop offset).take size)
  decompress _ _ := some (List.replicate n 0)

theorem zstd_disk_safe_one_frame : fromFile oneFrame ≠ .panic ∧
    ∃ disk, fromFile oneFrame = .ok disk ∧
      ∃ disk', run read [.sync (zerosOf 16) 1 0, .sync (zerosOf 16) 1 5] disk = some disk' := by
  have hs := zstd_disk_safe oneFrame
  obtain ⟨disk, hds, hsz⟩ : ∃ disk, fromFile oneFrame = .ok disk ∧
      disk.seekTable.cumulativeDecompressedSizes = [0, 16, 16] := exists_ok (by decide +kernel)
  refine ⟨hs.1.mpr (by decide +kernel), disk, hds, hs.2 disk hds _ ?_⟩
  have hf : (zerosOf 16).Faithful disk.seekTable := by
    rintro frameIndex compressed data ⟨⟩ start next hst hn
    rw [hsz] at hn
    have hle : next ≤ 16 := by
      have hm := mem_of_getElem? hn
      simp only [mem_cons, not_mem_nil, or_false] at hm
      omega
    simp only [length_replicate]
    omega
  simp [Read.Regular, hf]

def manyFrames : ImageFile where
  content := [0, 0, 0, 0, 0, 0, 0, 0, 0, 0, 0, 0x20, 0, 0xb1, 0xea, 0x92, 0x8f]
  length_le := by decide

/-- The size of a table of 2^29 entries does not fit 32 bits. And a frame that decodes to fewer
bytes than the table says is kept by the first read, and a later read slices it behind its end. -/
theorem zstd_disk_aborts : fromFile manyFrames = .panic ∧
    ∃ disk, fromFile oneFrame = .ok disk ∧
      run read [.sync (zerosOf 1) 1 0, .sync (zerosOf 1) 1 5] disk = none := by
  constructor
  · exact isPanic_iff.mp (by decide +kernel)
  · exact exists_ok (by decide +kernel)

end ZstdDisk

end GunyahVmm.Disk
