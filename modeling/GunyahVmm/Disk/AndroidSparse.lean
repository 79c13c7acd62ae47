import GunyahVmm.Disk.MemRegion
import GunyahVmm.Lib.BTreeMap
import GunyahVmm.Lib.Bytes
import GunyahVmm.Lib.Segments

/-! Android sparse images: a map of chunks by their start. A read stops at the end of its chunk. -/

namespace GunyahVmm.Disk
open Run

inductive SparseError where
  | badMagic (magic : BitVec 32)
  | badMajorVersion (version : BitVec 16)
  | badChunkHeaderSize (size : BitVec 16)
  | chunkSmallerThanHeader (totalSz : BitVec 32)
  | badFillSize (bodySize : Nat)
  | badChunkType (chunkType : BitVec 16)
  | twoChunksAt (location : Nat)
  | badTotalSize (promised calculated : Nat)
  | readSpecification

def sparseHeaderMagic : BitVec 32 := 0xed26ff3a
def majorVersion : BitVec 16 := 1
def sparseHeaderSize : Nat := 28
def chunkHeaderSize : Nat := 12

def chunkTypeRaw : BitVec 16 := 0xCAC1
def chunkTypeFill : BitVec 16 := 0xCAC2
def chunkTypeDontCare : BitVec 16 := 0xCAC3
def chunkTypeCrc32 : BitVec 16 := 0xCAC4

/-- The largest size of a buffer and the largest position in a file. -/
def i64Max : Nat := 0x7fffffffffffffff

structure ImageFile where
  content : List (BitVec 8)
  length_le : content.length ≤ i64Max

inductive Chunk where
  | raw (offset : Nat)
  | fill (b0 b1 b2 b3 : BitVec 8)
  | dontCare

structure ChunkWithSize where
  chunk : Chunk
  expandedSize : Nat

/-! ## Parsing -/

/-- A file that is read from its current position. -/
structure SparseReader where
  file : ImageFile
  position : Nat

namespace SparseReader

def readExact (r : SparseReader) (n : Nat) :
    Outcome SparseError ((Nat → BitVec 8) × SparseReader) :=
  if r.position + n ≤ r.file.content.length then
    .ok (fun i => r.file.content.getD (r.position + i) 0, { r with position := r.position + n })
  else .err .readSpecification

/-- Seek forward; a position past the largest one is an error. -/
def seekCurrent (r : SparseReader) (n : Nat) : Outcome SparseError SparseReader :=
  if r.position + n ≤ i64Max then .ok { r with position := r.position + n }
  else .err .readSpecification

end SparseReader

/-- The body of a chunk behind the header at `start`; a checksum yields no chunk. -/
def parseBody (r : SparseReader) (start : Nat) (chunkType : BitVec 16) (bodySize : Nat) :
    Outcome SparseError (Option Chunk × SparseReader) :=
  if chunkType = chunkTypeRaw then do
    let r ← r.seekCurrent bodySize
    let offset ← addU64 start chunkHeaderSize
    .ok (some (.raw offset), r)
  else if chunkType = chunkTypeFill then
    if bodySize ≠ 4 then .err (.badFillSize bodySize)
    else do
      let got ← r.readExact 4
      .ok (some (.fill (got.1 0) (got.1 1) (got.1 2) (got.1 3)), got.2)
  else if chunkType = chunkTypeDontCare then .ok (some .dontCare, r)
  else if chunkType = chunkTypeCrc32 then .ok (none, r)
  else .err (.badChunkType chunkType)

/-- One chunk. The product of two 32-bit numbers fits 64 bits. -/
def parseChunk (r : SparseReader) (blkSz : BitVec 32) :
    Outcome SparseError (Option ChunkWithSize × SparseReader) := do
  let start := r.position
  let header ← r.readExact chunkHeaderSize
  let chunkSz := le32 header.1 4
  let totalSz := le32 header.1 8
  if totalSz.toNat < chunkHeaderSize then .err (.chunkSmallerThanHeader totalSz)
  else do
    let body ← parseBody header.2 start (le16 header.1 0) (totalSz.toNat - chunkHeaderSize)
    .ok (body.1.map fun chunk => ⟨chunk, chunkSz.toNat * blkSz.toNat⟩, body.2)

def parseChunks (blkSz : BitVec 32) : Nat → SparseReader → Outcome SparseError (List ChunkWithSize)
  | 0, _ => .ok []
  | n + 1, r => do
    let parsed ← parseChunk r blkSz
    let rest ← parseChunks blkSz n parsed.2
    .ok (parsed.1.toList ++ rest)

/-- The image: its file, its size and its chunks by their place. -/
structure AndroidSparse where
  file : ImageFile
  totalSize : Nat
  chunks : BTreeMap Nat ChunkWithSize

namespace AndroidSparse

def insertChunks : List ChunkWithSize → Nat → BTreeMap Nat ChunkWithSize →
    Outcome SparseError (BTreeMap Nat ChunkWithSize)
  | [], _, chunks => .ok chunks
  | c :: rest, location, chunks =>
    if chunks.contains location then .err (.twoChunksAt location)
    else do
      let next ← addU64 location c.expandedSize
      insertChunks rest next (chunks.insert location c)

def fromParts (file : ImageFile) (size : Nat) (chunks : List ChunkWithSize) :
    Outcome SparseError AndroidSparse := do
  let chunks ← insertChunks chunks 0 .empty
  let calculated ← sumU64 (chunks.entries.map (·.2.expandedSize))
  if calculated ≠ size then .err (.badTotalSize size calculated)
  else .ok ⟨file, size, chunks⟩

def parse (file : ImageFile) : Outcome SparseError (Nat × List ChunkWithSize) := do
  let header ← SparseReader.readExact ⟨file, 0⟩ sparseHeaderSize
  let magic := le32 header.1 0
  let version := le16 header.1 4
  let chunkHdrSize := le16 header.1 10
  let blkSz := le32 header.1 12
  if magic ≠ sparseHeaderMagic then .err (.badMagic magic)
  else if version ≠ majorVersion then .err (.badMajorVersion version)
  else if chunkHdrSize.toNat ≠ chunkHeaderSize then .err (.badChunkHeaderSize chunkHdrSize)
  else do
    let chunks ← parseChunks blkSz (le32 header.1 20).toNat header.2
    .ok ((le32 header.1 16).toNat * blkSz.toNat, chunks)

def fromFile (file : ImageFile) : Outcome SparseError AndroidSparse := do
  let parsed ← parse file
  fromParts file parsed.1 parsed.2

/-! ## Reading -/

inductive ReadError where
  | noChunk (offset : Nat)
  | guestMemory (region : MemRegion)
  | file

end AndroidSparse

open AndroidSparse (ReadError)

/-- Read from a regular file: as many bytes as there are, up to `n`. -/
def ImageFile.readAt (file : ImageFile) (position n : Nat) : Outcome ReadError (List (BitVec 8)) :=
  if i64Max < position then .err .file else .ok ((file.content.drop position).take n)

namespace AndroidSparse

/-- The chunk that serves a read: the last one that starts at or before the offset. -/
def findChunk (image : AndroidSparse) (offset : Nat) : Option (Nat × ChunkWithSize) :=
  Segments.locate Prod.fst image.chunks.entries offset

/-- The pattern of a fill chunk from `phase` on. No vector has more than `i64Max` bytes. -/
def filledMemory (b0 b1 b2 b3 : BitVec 8) (phase n : Nat) : Outcome ReadError (List (BitVec 8)) :=
  if i64Max < n then .panic
  else .ok ((List.range n).map fun i => [b0, b1, b2, b3].getD ((phase + i) % 4) 0)

/-- How much of a buffer is filled: up to the end of the chunk. -/
def subSlice (chunkOffset size chunkSize : Nat) : Outcome ReadError Nat := do
  let last ← addU64 chunkOffset size
  if chunkSize < last then subU64 chunkSize chunkOffset else .ok size

/-- The bytes that a synchronous read puts into a buffer of `size` bytes. -/
def readAtVolatile (image : AndroidSparse) (size offset : Nat) :
    Outcome ReadError (List (BitVec 8)) :=
  match image.findChunk offset with
  | none => .err (.noChunk offset)
  | some (chunkStart, c) => do
    let chunkOffset ← subU64 offset chunkStart
    let n ← subSlice chunkOffset size c.expandedSize
    match c.chunk with
    | .dontCare => .ok (List.replicate n 0)
    | .raw fileOffset => do
      let position ← addU64 fileOffset chunkOffset
      image.file.readAt position n
    | .fill b0 b1 b2 b3 => filledMemory b0 b1 b2 b3 (chunkOffset % 4) n

/-- Copy the bytes to the regions; a region outside the memory is an error. -/
def copyToRegions (fail : MemRegion → ReadError) (mem : BackingMemory) (regions : List MemRegion)
    (data : List (BitVec 8)) : Outcome ReadError (Nat × BackingMemory) :=
  match mem.scatter regions data with
  | .ok mem => .ok (data.length, mem)
  | .error region => .err (fail region)

def readToMem (image : AndroidSparse) (fileOffset : Nat) (mem : BackingMemory)
    (memOffsets : MemRegionIter) : Outcome ReadError (Nat × BackingMemory) :=
  match image.findChunk fileOffset with
  | none => .err (.noChunk fileOffset)
  | some (chunkStart, c) => do
    let chunkOffset ← subU64 fileOffset chunkStart
    let left ← subU64 c.expandedSize chunkOffset
    let regions ← (memOffsets.takeBytes left).collect
    let memSize ← sumU64 (regions.map (·.len))
    match c.chunk with
    | .dontCare => copyToRegions .guestMemory mem regions (List.replicate memSize 0)
    | .raw offset => do
      let position ← addU64 offset chunkOffset
      let data ← image.file.readAt position memSize
      copyToRegions (fun _ => .file) mem regions data
    | .fill b0 b1 b2 b3 => do
      let data ← filledMemory b0 b1 b2 b3 (chunkOffset % 4) memSize
      copyToRegions .guestMemory mem regions data

end AndroidSparse

end GunyahVmm.Disk
