import GunyahVmm.Disk.AndroidSparse

/-! Seekable zstd archives as read-only disks (`disk/src/zstd.rs`). A read decompresses and keeps
the frame of its offset, which may disagree with the table. -/

namespace GunyahVmm.Disk
open Run

inductive ZstdError where
  | tooSmall
  | badMagic (magic : BitVec 32)
  | reservedFlags (flags : BitVec 8)
  | seek
  | seekTableEntry

def zstdSeekTableMagic : BitVec 32 := 0x8F92EAB1

/-- The sizes of all frames before a frame, and the whole size at the end. -/
structure ZstdSeekTable where
  cumulativeDecompressedSizes : List Nat
  cumulativeCompressedSizes : List Nat

structure ZstdFrameCache where
  frameIndex : Nat
  data : List (BitVec 8)

structure ZstdDisk where
  file : ImageFile
  seekTable : ZstdSeekTable
  cache : Option ZstdFrameCache

/-! ## Opening -/

def mulU32 {ε : Type} (a b : Nat) : Outcome ε Nat := if a * b < u32Size then .ok (a * b) else .panic

namespace ZstdSeekTable

/-- The sums after each of the next `n` frames, whose entries are `stride` bytes apart, and the last
ones once more. -/
def sums (entries : List (BitVec 8)) (stride : Nat) :
    Nat → (offset decompressed compressed : Nat) → Outcome ZstdError (List Nat × List Nat)
  | 0, _, decompressed, compressed => .ok ([decompressed], [compressed])
  | n + 1, offset, decompressed, compressed =>
    if entries.length < offset + 8 then .err .seekTableEntry
    else do
      let entry := fun i => entries.getD (offset + i) 0
      let decompressed ← addU64 decompressed (le32 entry 4).toNat
      let compressed ← addU64 compressed (le32 entry 0).toNat
      let rest ← sums entries stride n (offset + stride) decompressed compressed
      .ok (decompressed :: rest.1, compressed :: rest.2)

def fromFooter (seekTableEntries : List (BitVec 8)) (numFrames : BitVec 32) (checksumFlag : Bool) :
    Outcome ZstdError ZstdSeekTable := do
  let rest ← sums seekTableEntries (8 + checksumFlag.toNat * 4) numFrames.toNat 0 0 0
  .ok ⟨0 :: rest.1, 0 :: rest.2⟩

/-- The number of sizes up to the first that exceeds the offset. -/
def partitionPoint (sizes : List Nat) (decompressedOffset : Nat) : Nat :=
  (sizes.takeWhile (· ≤ decompressedOffset)).length

def findFrameIndex (table : ZstdSeekTable) (decompressedOffset : Nat) : Option Nat :=
  match table.cumulativeDecompressedSizes.getLast? with
  | none => none
  | some total =>
    if decompressedOffset ≥ total then none
    else checkedSub (partitionPoint table.cumulativeDecompressedSizes decompressedOffset) 1

end ZstdSeekTable

namespace ZstdDisk
section
variable (file : ImageFile)

def seektableFooter (i : Nat) : BitVec 8 := file.content.getD (file.content.length - 9 + i) 0

def numFrames : BitVec 32 := le32 (seektableFooter file) 0

def checksumFlag : Bool := seektableFooter file 4 >>> 7 &&& 1 ≠ 0

def entrySize : Nat := 8 + (checksumFlag file).toNat * 4

def fromFile : Outcome ZstdError ZstdDisk :=
  let size := file.content.length
  if size < 17 then .err .tooSmall
  else
    let magic := le32 (seektableFooter file) 5
    let flags := seektableFooter file 4
    if magic ≠ zstdSeekTableMagic then .err (.badMagic magic)
    else if flags &&& 0x7C ≠ 0 then .err (.reservedFlags flags)
    else do
      let entriesSize ← mulU32 (numFrames file).toNat (entrySize file)
      -- a seek to a place before the start of the file fails
      if size < 9 + entriesSize then .err .seek
      else do
        let entries := (file.content.drop (size - (9 + entriesSize))).take entriesSize
        let seekTable ← ZstdSeekTable.fromFooter entries (numFrames file) (checksumFlag file)
        .ok ⟨file, seekTable, none⟩

end

/-! ## Reading -/

inductive ReadError where
  | noFrame (offset : Nat)
  | outOfRange
  | file
  | unexpectedEof
  | decompress
  | frameOffset
  | guestMemory (region : MemRegion)

structure CompressedReadInstruction where
  frameIndex : Nat
  readOffset : Nat
  readSize : Nat

/-- An index into a list; one out of range aborts. -/
def index {α : Type} (l : List α) (i : Nat) : Outcome ReadError α := Outcome.expect l[i]?

/-- The rest of a slice from an index on; a start behind its end aborts. -/
def sliceFrom (data : List (BitVec 8)) (start : Nat) : Outcome ReadError (List (BitVec 8)) :=
  if start ≤ data.length then .ok (data.drop start) else .panic

def compressedFrameReadInstruction (table : ZstdSeekTable) (offset : Nat) :
    Outcome ReadError CompressedReadInstruction :=
  match table.findFrameIndex offset with
  | none => .err (.noFrame offset)
  | some frameIndex => do
    let compressedOffset ← index table.cumulativeCompressedSizes frameIndex
    match table.cumulativeCompressedSizes[frameIndex + 1]? with
    | none => .err .outOfRange
    | some nextCompressedOffset => do
      let compressedSize ← subU64 nextCompressedOffset compressedOffset
      .ok ⟨frameIndex, compressedOffset, compressedSize⟩

/-- What one read meets: the locks of the cache, the file and the decompressor. -/
structure Surroundings where
  cacheReadable : Bool
  cacheWritable : Bool
  readFile : Nat → Nat → Option (List (BitVec 8))
  decompress : Nat → List (BitVec 8) → Option (List (BitVec 8))

section
variable (disk : ZstdDisk) (env : Surroundings) (frameIndex : Nat)

def cached : Option (List (BitVec 8)) :=
  if env.cacheReadable then
    match disk.cache with
    | some cache => if cache.frameIndex = frameIndex then some cache.data else none
    | none => none
  else none

def keep (data : List (BitVec 8)) : ZstdDisk :=
  if env.cacheWritable then { disk with cache := some ⟨frameIndex, data⟩ } else disk

end

def offsetInFrame (disk : ZstdDisk) (offset frameIndex : Nat) : Outcome ReadError Nat := do
  let start ← index disk.seekTable.cumulativeDecompressedSizes frameIndex
  subU64 offset start

/-- Go on with a value; an error or an abort leaves the disk as it is. -/
def andThen {α β : Type} (disk : ZstdDisk) (x : Outcome ReadError α)
    (next : α → Outcome ReadError β × ZstdDisk) : Outcome ReadError β × ZstdDisk :=
  match x with
  | .ok a => next a
  | .err e => (.err e, disk)
  | .panic => (.panic, disk)

section
variable (env : Surroundings) (ins : CompressedReadInstruction)

/-- The compressed bytes of a frame; what the file does not give stays zero. -/
def frameBytes : Outcome ReadError (List (BitVec 8)) :=
  match env.readFile ins.readOffset ins.readSize with
  | none => .err .file
  | some got => .ok (got ++ List.replicate (ins.readSize - got.length) 0)

def frameBytesAsync : Outcome ReadError (List (BitVec 8)) :=
  match env.readFile ins.readOffset ins.readSize with
  | none => .err .file
  | some got => if got.length ≠ ins.readSize then .err .unexpectedEof else .ok got

def decoded (compressed : List (BitVec 8)) : Outcome ReadError (List (BitVec 8)) :=
  match env.decompress ins.frameIndex compressed with
  | none => .err .decompress
  | some data => .ok data

end

def readAtVolatile (disk : ZstdDisk) (env : Surroundings) (size offset : Nat) :
    Outcome ReadError (List (BitVec 8)) × ZstdDisk :=
  disk.andThen (compressedFrameReadInstruction disk.seekTable offset) fun ins =>
    match disk.cached env ins.frameIndex with
    | some data =>
      disk.andThen (disk.offsetInFrame offset ins.frameIndex) fun start =>
        disk.andThen (sliceFrom data start) fun src => (.ok (src.take size), disk)
    | none =>
      disk.andThen (frameBytes env ins) fun compressed =>
        disk.andThen (decoded env ins compressed) fun data =>
          disk.andThen (disk.offsetInFrame offset ins.frameIndex) fun start =>
            if start ≥ data.length then (.err .frameOffset, disk)
            else disk.andThen (sliceFrom data start) fun src =>
              (.ok (src.take size), disk.keep env ins.frameIndex data)

/-- Copy data to the regions, until the bytes copied are as many as the current region has. -/
def copyToMem (data : List (BitVec 8)) :
    List MemRegion → Nat → BackingMemory → Outcome ReadError (Nat × BackingMemory)
  | [], totalCopied, mem => .ok (totalCopied, mem)
  | region :: regions, totalCopied, mem => do
    let src ← sliceFrom data totalCopied
    if mem.holds region then
      let toCopy := min src.length region.len
      if toCopy > 0 then
        let mem := mem.write region.offset (src.take toCopy)
        let totalCopied := totalCopied + toCopy
        if totalCopied = region.len then .ok (totalCopied, mem)
        else copyToMem data regions totalCopied mem
      else copyToMem data regions totalCopied mem
    else .err (.guestMemory region)

def copyFrom (data : List (BitVec 8)) (start : Nat) (memOffsets : MemRegionIter)
    (mem : BackingMemory) : Outcome ReadError (Nat × BackingMemory) := do
  let src ← sliceFrom data start
  let regions ← memOffsets.collect
  copyToMem src regions 0 mem

/-- An asynchronous read: the count and the memory. The frame is kept even if the copy fails. -/
def readToMem (disk : ZstdDisk) (env : Surroundings) (fileOffset : Nat) (mem : BackingMemory)
    (memOffsets : MemRegionIter) : Outcome ReadError (Nat × BackingMemory) × ZstdDisk :=
  disk.andThen (compressedFrameReadInstruction disk.seekTable fileOffset) fun ins =>
    match disk.cached env ins.frameIndex with
    | some data =>
      disk.andThen (disk.offsetInFrame fileOffset ins.frameIndex) fun start =>
        (copyFrom data start memOffsets mem, disk)
    | none =>
      disk.andThen (frameBytesAsync env ins) fun compressed =>
        disk.andThen (decoded env ins compressed) fun data =>
          disk.andThen (disk.offsetInFrame fileOffset ins.frameIndex) fun start =>
            if start > data.length then (.err .frameOffset, disk)
            else (copyFrom data start memOffsets mem, disk.keep env ins.frameIndex data)

end ZstdDisk

end GunyahVmm.Disk
