import GunyahVmm.Disk.Composite
import GunyahVmm.Lib.Bytes

/-! GUID partition tables, and the creation of a composite disk: a header file with a protective MBR
and the primary table, partitions at multiples of 4096 bytes, and a footer file. -/

namespace GunyahVmm.Disk
open Run

def sectorSize : Nat := 512
def mbrPartitionEntrySize : Nat := 16
def gptHeaderSize : Nat := 92
def gptNumPartitions : Nat := 128
def gptPartitionEntrySize : Nat := 128
def gptBeginningSize : Nat := sectorSize * 40
def gptEndSize : Nat := sectorSize * 33

/-- The fields of a UUID; the last eight bytes are in their order. -/
structure Uuid where
  d1 : BitVec 32
  d2 : BitVec 16
  d3 : BitVec 16
  d4 : BitVec 64

def writeGuid (guid : Uuid) : List (BitVec 8) :=
  leBytes32 guid.d1 ++ leBytes16 guid.d2 ++ leBytes16 guid.d3 ++ beBytes64 guid.d4

inductive CreateError where
  | invalidPath
  | duplicatePartitionLabel (label : String)
  | invalidDiskSize
  | writingData
  | unalignedReadWrite (label : String)
  | writeHeader
  | writeProto

def zeroBytes (n : Nat) : List (BitVec 8) := List.replicate n 0

/-- The protective MBR. Its number of sectors has 32 bits. -/
def writeProtectiveMbr (diskSize : Nat) : Outcome CreateError (List (BitVec 8)) :=
  if u32Size ≤ diskSize / sectorSize then .err .invalidDiskSize
  else .ok (zeroBytes 446 ++ [0x00] ++ zeroBytes 3 ++ [0xEE] ++ zeroBytes 3 ++ leBytes32 1 ++
    leBytes32 (BitVec.ofNat 32 (diskSize / sectorSize)) ++ zeroBytes (mbrPartitionEntrySize * 3) ++
    [0x55, 0xAA])

structure GptHeader where
  headerCrc32 : BitVec 32
  currentLba : Nat
  backupLba : Nat
  lastUsableLba : Nat
  diskGuid : Uuid
  partitionEntriesCrc32 : BitVec 32

def u64Bytes (n : Nat) : List (BitVec 8) := leBytes64 (BitVec.ofNat 64 n)

def u32Bytes (n : Nat) : List (BitVec 8) := leBytes32 (BitVec.ofNat 32 n)

/-- The bytes of a header, from the signature `EFI PART` on. -/
def GptHeader.writeBytes (h : GptHeader) : List (BitVec 8) :=
  [0x45, 0x46, 0x49, 0x20, 0x50, 0x41, 0x52, 0x54] ++ [0, 0, 1, 0] ++ u32Bytes gptHeaderSize ++
    leBytes32 h.headerCrc32 ++ zeroBytes 4 ++ u64Bytes h.currentLba ++ u64Bytes h.backupLba ++
    u64Bytes (gptBeginningSize / sectorSize) ++ u64Bytes h.lastUsableLba ++ writeGuid h.diskGuid ++
    u64Bytes 2 ++ u32Bytes gptNumPartitions ++ u32Bytes gptPartitionEntrySize ++
    leBytes32 h.partitionEntriesCrc32

def writeGptHeader (crc32 : List (BitVec 8) → BitVec 32) (diskGuid : Uuid)
    (partitionEntriesCrc32 : BitVec 32) (secondaryTableOffset : Nat) (secondary : Bool) :
    Outcome CreateError (List (BitVec 8)) := do
  let diskEnd ← addU64 secondaryTableOffset gptEndSize
  let secondaryHeaderLba ← subU64 (diskEnd / sectorSize) 1
  let lastUsableLba ← subU64 (secondaryTableOffset / sectorSize) 1
  let header : GptHeader :=
    { headerCrc32 := 0
      currentLba := if secondary then secondaryHeaderLba else 1
      backupLba := if secondary then 1 else secondaryHeaderLba
      lastUsableLba, diskGuid, partitionEntriesCrc32 }
  .ok { header with headerCrc32 := crc32 header.writeBytes }.writeBytes

structure GptPartitionEntry where
  partitionTypeGuid : Uuid
  uniquePartitionGuid : Uuid
  firstLba : Nat
  lastLba : Nat
  attributes : Nat
  partitionName : List (BitVec 16)

def GptPartitionEntry.writeBytes (e : GptPartitionEntry) : List (BitVec 8) :=
  writeGuid e.partitionTypeGuid ++ writeGuid e.uniquePartitionGuid ++ u64Bytes e.firstLba ++
    u64Bytes e.lastLba ++ u64Bytes e.attributes ++ e.partitionName.flatMap leBytes16

/-! ## Partitions -/

def partitionAlignment : Nat := 4096

inductive ImagePartitionType where
  | linuxFilesystem
  | efiSystemPartition
  deriving DecidableEq

def ImagePartitionType.guid : ImagePartitionType → Uuid
  | linuxFilesystem => ⟨0x0FC63DAF, 0x8483, 0x4772, 0x8E793D69D8477DE4⟩
  | efiSystemPartition => ⟨0xC12A7328, 0xF81F, 0x11D2, 0xBA4B00A0C93EC93B⟩

/-- A partition to create. A path that is not UTF-8 is `none`. -/
structure PartitionInfo where
  label : String
  path : Option HostPath
  partitionType : ImagePartitionType
  writable : Bool
  size : Nat
  partGuid : Option Uuid

def nextMultipleOf (n unit : Nat) : Outcome CreateError Nat :=
  if n % unit = 0 then .ok n else addU64 n (unit - n % unit)

def PartitionInfo.alignedSize (p : PartitionInfo) : Outcome CreateError Nat :=
  nextMultipleOf p.size partitionAlignment

def utf16Units (c : Char) : List (BitVec 16) :=
  if c.toNat < 0x10000 then [BitVec.ofNat 16 c.toNat]
  else [BitVec.ofNat 16 (0xD800 + (c.toNat - 0x10000) / 0x400),
    BitVec.ofNat 16 (0xDC00 + (c.toNat - 0x10000) % 0x400)]

/-- The label in 36 code units, cut off or filled up. -/
def partitionName (label : String) : List (BitVec 16) :=
  (label.toList.flatMap utf16Units ++ List.replicate 36 0).take 36

def createGptEntry (p : PartitionInfo) (offset : Nat) (freshGuid : Uuid) :
    Outcome CreateError GptPartitionEntry := do
  let alignedSize ← p.alignedSize
  let last ← addU64 offset alignedSize
  let lastLba ← subU64 (last / sectorSize) 1
  .ok
    { partitionTypeGuid := p.partitionType.guid
      uniquePartitionGuid := p.partGuid.getD freshGuid
      firstLba := offset / sectorSize
      lastLba
      attributes := 0
      partitionName := partitionName p.label }

/-- The component of the partition's file, and one of zeros if it does not fill its place. -/
def createComponentDisks (p : PartitionInfo) (offset : Nat) (zeroFillerPath : HostPath) :
    Outcome CreateError (List ComponentDisk) := do
  let alignedSize ← p.alignedSize
  match p.path with
  | none => .err .invalidPath
  | some path =>
    let disk : ComponentDisk :=
      ⟨path, offset, if p.writable then capabilityReadWrite else capabilityReadOnly⟩
    if p.size = alignedSize then .ok [disk]
    else if p.writable then .err (.unalignedReadWrite p.label)
    else do
      let fillerOffset ← addU64 offset p.size
      .ok [disk, ⟨zeroFillerPath, fillerOffset, capabilityReadOnly⟩]

/-! ## The whole disk -/

/-- What the loop has made so far: the table, labels, components and the next offset. -/
structure Progress where
  table : List (BitVec 8)
  labels : List (List (BitVec 16))
  componentDisks : List ComponentDisk
  nextDiskOffset : Nat

def gptTableSize : Nat := gptNumPartitions * gptPartitionEntrySize

/-- One round of the loop. The table has room for 128 entries. -/
def addPartition (zeroFillerPath : HostPath) (st : Progress) (p : PartitionInfo)
    (freshGuid : Uuid) : Outcome CreateError Progress := do
  let entry ← createGptEntry p st.nextDiskOffset freshGuid
  if entry.partitionName ∈ st.labels then .err (.duplicatePartitionLabel p.label)
  else if gptTableSize < st.table.length + entry.writeBytes.length then .err .writingData
  else do
    let disks ← createComponentDisks p st.nextDiskOffset zeroFillerPath
    let alignedSize ← p.alignedSize
    let next ← addU64 st.nextDiskOffset alignedSize
    .ok
      { table := st.table ++ entry.writeBytes
        labels := entry.partitionName :: st.labels
        componentDisks := st.componentDisks ++ disks
        nextDiskOffset := next }

def addPartitions (zeroFillerPath : HostPath) (freshGuid : Nat → Uuid) :
    List PartitionInfo → Progress → Outcome CreateError Progress
  | [], st => .ok st
  | p :: rest, st => do
    let st ← addPartition zeroFillerPath st p (freshGuid rest.length)
    addPartitions zeroFillerPath freshGuid rest st

/-- The footer is a multiple of the unit, too; zeros stand before the secondary table. -/
def footerPadding : Nat := partitionAlignment - gptEndSize % partitionAlignment

/-- The checksum function, the random GUIDs, and whether the writes to the files succeed. -/
structure Creator where
  crc32 : List (BitVec 8) → BitVec 32
  freshGuid : Nat → Uuid
  diskGuid : Uuid
  headerWrites : Bool
  footerWrites : Bool
  outputWrites : Bool

/-- The contents of the header and footer files, and the specification. -/
structure CompositeImage where
  header : List (BitVec 8)
  footer : List (BitVec 8)
  spec : CompositeDisk

def partitionsBuffer (st : Progress) : List (BitVec 8) :=
  st.table ++ zeroBytes (gptTableSize - st.table.length)

section
variable (creator : Creator)

def writeBeginning (partitions : List (BitVec 8))
    (secondaryTableOffset diskSize : Nat) : Outcome CreateError (List (BitVec 8)) := do
  let mbr ← writeProtectiveMbr diskSize
  let header ← writeGptHeader creator.crc32 creator.diskGuid (creator.crc32 partitions)
    secondaryTableOffset false
  .ok (mbr ++ header ++ zeroBytes (sectorSize - gptHeaderSize) ++ partitions ++
    zeroBytes (gptBeginningSize - 2 * sectorSize - gptTableSize))

def writeEnd (partitions : List (BitVec 8)) (secondaryTableOffset : Nat) :
    Outcome CreateError (List (BitVec 8)) := do
  let header ← writeGptHeader creator.crc32 creator.diskGuid (creator.crc32 partitions)
    secondaryTableOffset true
  .ok (partitions ++ header ++ zeroBytes (sectorSize - gptHeaderSize))

def finishDisk (headerPath footerPath : HostPath) (st : Progress) :
    Outcome CreateError CompositeImage := do
  let secondaryTableOffset ← addU64 st.nextDiskOffset footerPadding
  let diskSize ← addU64 secondaryTableOffset gptEndSize
  if !creator.headerWrites then .err .writingData
  else do
    let header ← writeBeginning creator (partitionsBuffer st) secondaryTableOffset diskSize
    if !creator.footerWrites then .err .writeHeader
    else do
      let tail ← writeEnd creator (partitionsBuffer st) secondaryTableOffset
      if !creator.outputWrites then .err .writeProto
      else
        let componentDisks : List ComponentDisk := ⟨headerPath, 0, capabilityReadOnly⟩ ::
          (st.componentDisks ++ [⟨footerPath, st.nextDiskOffset, capabilityReadOnly⟩])
        .ok ⟨header, zeroBytes footerPadding ++ tail,
          ⟨compositeDiskVersion, componentDisks, diskSize⟩⟩

/-- Create a composite disk. A path that is not UTF-8 is `none`. -/
def createCompositeDisk (partitions : List PartitionInfo)
    (zeroFillerPath headerPath footerPath : Option HostPath) : Outcome CreateError CompositeImage :=
  match zeroFillerPath, headerPath, footerPath with
  | some zeroFillerPath, some headerPath, some footerPath => do
    let st ← addPartitions zeroFillerPath creator.freshGuid partitions
      ⟨[], [], [], gptBeginningSize⟩
    finishDisk creator headerPath footerPath st
  | _, _, _ => .err .invalidPath

end

end GunyahVmm.Disk
