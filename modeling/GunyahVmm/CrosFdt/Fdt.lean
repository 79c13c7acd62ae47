import GunyahVmm.CrosFdt.FdtNode

/-! A device tree: its header, the reserved memory, and how it is loaded, changed and written. -/

namespace GunyahVmm.CrosFdt
open Run

/-! ## Header -/

structure FdtHeader where
  magic : BitVec 32
  totalSize : BitVec 32
  offDtStruct : BitVec 32
  offDtStrings : BitVec 32
  offMemRsvmap : BitVec 32
  version : BitVec 32
  lastCompVersion : BitVec 32
  bootCpuidPhys : BitVec 32
  sizeDtStrings : BitVec 32
  sizeDtStruct : BitVec 32

namespace FdtHeader

def MAGIC : BitVec 32 := 0xd00dfeed

def VERSION : BitVec 32 := 17

def LAST_COMP_VERSION : BitVec 32 := 16

def SIZE : Nat := 40

def new (totalSize offDtStruct offDtStrings offMemRsvmap bootCpuidPhys sizeDtStrings
    sizeDtStruct : BitVec 32) : FdtHeader :=
  { magic := MAGIC, totalSize, offDtStruct, offDtStrings, offMemRsvmap, version := VERSION,
    lastCompVersion := LAST_COMP_VERSION, bootCpuidPhys, sizeDtStrings, sizeDtStruct }

def writeBlob (h : FdtHeader) : Blob :=
  beBytes32 h.magic ++ beBytes32 h.totalSize ++ beBytes32 h.offDtStruct ++
    beBytes32 h.offDtStrings ++ beBytes32 h.offMemRsvmap ++ beBytes32 h.version ++
    beBytes32 h.lastCompVersion ++ beBytes32 h.bootCpuidPhys ++ beBytes32 h.sizeDtStrings ++
    beBytes32 h.sizeDtStruct

def readFields (input : Blob) : Outcome Error FdtHeader := do
  let (magic, input) ← rdu32 input
  let (totalSize, input) ← rdu32 input
  let (offDtStruct, input) ← rdu32 input
  let (offDtStrings, input) ← rdu32 input
  let (offMemRsvmap, input) ← rdu32 input
  let (version, input) ← rdu32 input
  let (lastCompVersion, input) ← rdu32 input
  let (bootCpuidPhys, input) ← rdu32 input
  let (sizeDtStrings, input) ← rdu32 input
  let (sizeDtStruct, _) ← rdu32 input
  .ok { magic, totalSize, offDtStruct, offDtStrings, offMemRsvmap, version, lastCompVersion,
        bootCpuidPhys, sizeDtStrings, sizeDtStruct }

/-- The checks of the fields, in the order of the source. -/
def check (h : FdtHeader) : Outcome Error FdtHeader :=
  if h.magic ≠ MAGIC then parseError .invalidHeaderMagic
  else if h.version.toNat < VERSION.toNat then parseError .unsupportedFdtVersion
  else if h.offMemRsvmap.toNat ≥ h.offDtStrings.toNat ∨ h.offMemRsvmap.toNat < SIZE then
    parseError .invalidReservedMemoryOffset
  else if h.offDtStruct.toNat + h.sizeDtStruct.toNat ≥ u32Size then
    parseError .structEndOffsetMustFit
  else if h.offDtStruct.toNat + h.sizeDtStruct.toNat > h.offDtStrings.toNat then
    parseError .structAndStringsOverlap
  else if h.offDtStrings.toNat + h.sizeDtStrings.toNat ≥ u32Size then
    parseError .stringsEndOffsetMustFit
  else if h.offDtStrings.toNat + h.sizeDtStrings.toNat > h.totalSize.toNat then
    parseError .stringsDataPastTotalSize
  else .ok h

def fromBlob (input : Blob) : Outcome Error FdtHeader :=
  if input.length < SIZE then parseError .invalidBinarySize
  else do
    let h ← readFields input
    check h

end FdtHeader

/-! ## Reserved memory -/

structure FdtReserveEntry where
  address : BitVec 64
  size : BitVec 64
  deriving DecidableEq

namespace FdtReserveEntry

def terminator : FdtReserveEntry := ⟨0, 0⟩

def fromBlob (input : Blob) : Outcome Error (FdtReserveEntry × Blob) := do
  let (address, input) ← rdu64 input
  let (size, input) ← rdu64 input
  .ok (⟨address, size⟩, input)

def writeBlob (e : FdtReserveEntry) : Blob := beBytes64 e.address ++ beBytes64 e.size

end FdtReserveEntry

/-! ## Device trees -/

structure Fdt where
  reservedMemory : List FdtReserveEntry
  root : FdtNode
  strings : FdtStrings
  bootCpuidPhys : BitVec 32

namespace Fdt

def new (memReservations : List FdtReserveEntry) : Fdt :=
  ⟨memReservations, ⟨[], .empty, []⟩, .default, 0⟩

def setBootCpuidPhys (fdt : Fdt) (id : BitVec 32) : Fdt := { fdt with bootCpuidPhys := id }

/-- Every entry takes sixteen bytes, so fuel for the length of the input is enough. -/
def parseReservedMemory : Nat → Blob → Outcome Error (List FdtReserveEntry)
  | 0, _ => .panic
  | fuel + 1, input => do
    let (entry, input) ← FdtReserveEntry.fromBlob input
    if entry = .terminator then .ok []
    else do
      let entries ← parseReservedMemory fuel input
      .ok (entry :: entries)

def writeReservedMemory (fdt : Fdt) : Blob :=
  fdt.reservedMemory.flatMap FdtReserveEntry.writeBlob ++ FdtReserveEntry.terminator.writeBlob

def fromBlob (input : Blob) : Outcome Error Fdt := do
  let header ← okOr (if FdtHeader.SIZE ≤ input.length then some (input.take FdtHeader.SIZE)
    else none) (.fdtParseError .cannotExtractHeader)
  let header ← FdtHeader.fromBlob header
  if header.totalSize.toNat ≠ input.length then parseError .inputSizeDoesntMatch
  else do
    let reservedMemBlob ← slice input header.offMemRsvmap.toNat input.length
    let structEnd ← addU32 header.offDtStruct.toNat header.sizeDtStruct.toNat
    let nodesBlob ← slice input header.offDtStruct.toNat structEnd
    let stringsEnd ← addU32 header.offDtStrings.toNat header.sizeDtStrings.toNat
    let stringsBlob ← slice input header.offDtStrings.toNat stringsEnd
    let reservedMemory ← parseReservedMemory (reservedMemBlob.length + 1) reservedMemBlob
    let strings ← FdtStrings.fromBlob stringsBlob
    let root ← FdtNode.fromBlob nodesBlob strings
    .ok ⟨reservedMemory, root, strings, header.bootCpuidPhys⟩

/-- The structure block, and the strings it needs. -/
def writeStruct (fdt : Fdt) : Blob × FdtStrings :=
  let (bytes, strings) := fdt.root.writeBlob fdt.strings
  (bytes ++ beBytes32 fdtEnd, strings)

/-- The blob behind the header, with the offsets of the structure block and of the strings. -/
structure Layout where
  blob : Blob
  offDtStruct : Nat
  offDtStrings : Nat
  strings : FdtStrings

def layout (fdt : Fdt) : Layout :=
  let result := alignData (List.replicate FdtHeader.SIZE 0) 8
  let result := alignData (result ++ fdt.writeReservedMemory) 8
  let offDtStruct := result.length
  let (bytes, strings) := fdt.writeStruct
  let result := alignData (result ++ bytes) 4
  let offDtStrings := result.length
  ⟨result ++ strings.strings, offDtStruct, offDtStrings, strings⟩

def finish (fdt : Fdt) : Outcome Error (Blob × Fdt) := do
  let offMemRsvmap := (alignData (List.replicate FdtHeader.SIZE 0) 8).length
  let out := fdt.layout
  if out.blob.length < u32Size then do
    let header := FdtHeader.new (BitVec.ofNat 32 out.blob.length)
      (BitVec.ofNat 32 out.offDtStruct) (BitVec.ofNat 32 out.offDtStrings)
      (BitVec.ofNat 32 offMemRsvmap) fdt.bootCpuidPhys
      (BitVec.ofNat 32 (out.blob.length - out.offDtStrings))
      (BitVec.ofNat 32 (out.offDtStrings - out.offDtStruct))
    .ok (header.writeBlob ++ out.blob.drop FdtHeader.SIZE, { fdt with strings := out.strings })
  else .err .totalSizeTooLarge

end Fdt

end GunyahVmm.CrosFdt
