import GunyahVmm.Disk.MemRegion
import GunyahVmm.Lib.Patch
import Mathlib.Data.List.Sort

/-! Composite disks, made of component files at given offsets. Reads and writes stop at the end of a
component; operations on ranges go to every component they meet. -/

namespace GunyahVmm.Disk
open Run

/-! ## The specification -/

structure HostPath where
  absolute : Bool
  components : List String
  deriving DecidableEq

namespace HostPath

/-- The root and the empty path have no parent. -/
def parent (p : HostPath) : Option HostPath :=
  if p.components = [] then none else some { p with components := p.components.dropLast }

def join (p q : HostPath) : HostPath :=
  if q.absolute then q else { p with components := p.components ++ q.components }

end HostPath

/-- The values of the enumeration of the specification; a reader accepts others. -/
def capabilityReadOnly : Int := 0
def capabilityReadWrite : Int := 1

structure ComponentDisk where
  filePath : HostPath
  offset : Nat
  readWriteCapability : Int

structure CompositeDisk where
  version : Nat
  componentDisks : List ComponentDisk
  length : Nat

def compositeDiskVersion : Nat := 2

/-- The bytes of `composite_disk\x1d`. -/
def cdiskMagic : List (BitVec 8) :=
  [0x63, 0x6f, 0x6d, 0x70, 0x6f, 0x73, 0x69, 0x74, 0x65, 0x5f, 0x64, 0x69, 0x73, 0x6b, 0x1d]

structure DiskFileParams where
  path : HostPath
  isReadOnly : Bool
  isSparseFile : Bool
  isOverlapped : Bool
  isDirect : Bool
  lock : Bool
  depth : Nat

inductive CompositeError where
  | readSpecification
  | invalidMagicHeader
  | invalidProto
  | unknownVersion (version : Nat)
  | diskError (path : HostPath)
  | twoDisksAt (offset : Nat)
  | lengthNotPastLastOffset (length offset : Nat)
  | noLastDisk (length : Nat)
  deriving DecidableEq

abbrev FileId := Nat

structure ComponentDiskPart where
  file : FileId
  offset : Nat
  length : Nat
  deriving DecidableEq

structure CompositeDiskFile where
  componentDisks : List ComponentDiskPart
  deriving DecidableEq

/-- The parser of specifications, and how the files of components are opened. -/
structure Environment where
  parseFromReader : List (BitVec 8) → Option CompositeDisk
  openDiskFile : DiskFileParams → Outcome Unit FileId

def sortByOffset (disks : List ComponentDiskPart) : List ComponentDiskPart :=
  disks.insertionSort fun d1 d2 => d1.offset ≤ d2.offset

namespace CompositeDiskFile

def checkOffsets : List ComponentDiskPart → Outcome CompositeError Unit
  | d1 :: d2 :: rest =>
    if d1.offset = d2.offset then .err (.twoDisksAt d1.offset) else checkOffsets (d2 :: rest)
  | _ => .ok ()

def new (disks : List ComponentDiskPart) : Outcome CompositeError CompositeDiskFile := do
  let disks := sortByOffset disks
  checkOffsets disks
  .ok ⟨disks⟩

def componentPath (params : DiskFileParams) (version : Nat) (filePath : HostPath) :
    Outcome CompositeError HostPath :=
  if !filePath.absolute || 1 < version then do
    let parent ← Outcome.expect params.path.parent
    .ok (parent.join filePath)
  else .ok filePath

def componentParams (params : DiskFileParams) (disk : ComponentDisk) (path : HostPath)
    (depth : Nat) : DiskFileParams :=
  let writable := !params.isReadOnly && disk.readWriteCapability == capabilityReadWrite
  { path, isReadOnly := !writable, isSparseFile := params.isSparseFile && writable,
    isOverlapped := false, isDirect := params.isDirect, lock := params.lock, depth }

/-- Open one component. Its length is not known yet. -/
def openComponent (env : Environment) (params : DiskFileParams) (version : Nat)
    (disk : ComponentDisk) : Outcome CompositeError ComponentDiskPart := do
  let path ← componentPath params version disk.filePath
  let depth ← addU32 params.depth 1
  match env.openDiskFile (componentParams params disk path depth) with
  | .panic => .panic
  | .err _ => .err (.diskError path)
  | .ok file => .ok ⟨file, disk.offset, 0⟩

def openComponents (env : Environment) (params : DiskFileParams) (version : Nat) :
    List ComponentDisk → Outcome CompositeError (List ComponentDiskPart)
  | [] => .ok []
  | disk :: disks => do
    let part ← openComponent env params version disk
    let parts ← openComponents env params version disks
    .ok (part :: parts)

def assignLengths (total : Nat) :
    List ComponentDiskPart → Outcome CompositeError (List ComponentDiskPart)
  | [] => .err (.noLastDisk total)
  | [last] =>
    if total ≤ last.offset then .err (.lengthNotPastLastOffset total last.offset)
    else do
      let length ← subU64 total last.offset
      .ok [{ last with length }]
  | d :: next :: rest => do
    let length ← subU64 next.offset d.offset
    if length = 0 then .err (.twoDisksAt d.offset)
    else do
      let parts ← assignLengths total (next :: rest)
      .ok ({ d with length } :: parts)

/-- The disk of a parsed specification. The loop over neighbours runs up to their number less one.
-/
def fromProto (env : Environment) (params : DiskFileParams) (proto : CompositeDisk) :
    Outcome CompositeError CompositeDiskFile :=
  if compositeDiskVersion < proto.version then .err (.unknownVersion proto.version)
  else do
    let disks ← openComponents env params proto.version proto.componentDisks
    let disks := sortByOffset disks
    let _ ← subU64 disks.length 1
    let disks ← assignLengths proto.length disks
    new disks

def fromFile (env : Environment) (content : List (BitVec 8)) (params : DiskFileParams) :
    Outcome CompositeError CompositeDiskFile :=
  if content.length < cdiskMagic.length then .err .readSpecification
  else if content.take cdiskMagic.length ≠ cdiskMagic then .err .invalidMagicHeader
  else match env.parseFromReader (content.drop cdiskMagic.length) with
    | none => .err .invalidProto
    | some proto => fromProto env params proto

end CompositeDiskFile

def maxNestingDepth : Nat := 10

/-- The files of the host. Images of other formats are opened in their own ways. -/
structure HostFiles where
  parseFromReader : List (BitVec 8) → Option CompositeDisk
  openRawDiskImage : DiskFileParams → Option (FileId × List (BitVec 8))
  openOther : DiskFileParams → Outcome Unit FileId

/-- `open_disk_file`, for a number of levels that may still be below. -/
def HostFiles.openDiskFile (host : HostFiles) : Nat → DiskFileParams → Outcome Unit FileId
  | 0, _ => .err ()
  | levels + 1, params =>
    if maxNestingDepth < params.depth then .err ()
    else match host.openRawDiskImage params with
      | none => .err ()
      | some (file, content) =>
        if content.take cdiskMagic.length = cdiskMagic then
          match CompositeDiskFile.fromFile ⟨host.parseFromReader, host.openDiskFile levels⟩ content
              params with
          | .panic => .panic
          | .err _ => .err ()
          | .ok _ => .ok file
        else host.openOther params

/-- Every level has one more for its depth, so none ends before the deepest may be. -/
def HostFiles.environment (host : HostFiles) : Environment where
  parseFromReader := host.parseFromReader
  openDiskFile := fun params => host.openDiskFile (maxNestingDepth + 1 - params.depth) params

/-! ## The component files -/

structure FileAccess where
  file : FileId
  position : Nat
  count : Nat

/-- The component files, and the accesses made to them so far. -/
structure ComponentFiles where
  content : FileId → List (BitVec 8)
  accesses : List FileAccess

/-- What the host does with each access: fail, or move at most that many bytes, but one at
least. -/
abbrev Host := Nat → Option Nat

inductive IoError where
  | noDiskAt (offset : Nat)
  | component
  | guestMemory (region : MemRegion)
  | unexpectedEof
  | writeZero
  deriving DecidableEq

def overwrite (content : List (BitVec 8)) (position : Nat) (data : List (BitVec 8)) :
    List (BitVec 8) :=
  content.take position ++ List.replicate (position - content.length) 0 ++ data ++
    content.drop (position + data.length)

namespace ComponentFiles
variable (host : Host) (s : ComponentFiles)

/-- The result of an access that the host lets through. -/
def access (file : FileId) (position count : Nat) (content : List (BitVec 8)) : ComponentFiles where
  content := fun f => if f = file then content else s.content f
  accesses := s.accesses ++ [⟨file, position, count⟩]

def readAt (file : FileId) (position n : Nat) :
    Outcome IoError (List (BitVec 8) × ComponentFiles) :=
  match host s.accesses.length with
  | none => .err .component
  | some most =>
    let data := ((s.content file).drop position).take (min n (max 1 most))
    .ok (data, s.access file position data.length (s.content file))

def writeAt (file : FileId) (position : Nat) (data : List (BitVec 8)) :
    Outcome IoError (Nat × ComponentFiles) :=
  match host s.accesses.length with
  | none => .err .component
  | some most =>
    let data := data.take (max 1 most)
    .ok (data.length,
      s.access file position data.length (overwrite (s.content file) position data))

def onRange (change : List (BitVec 8) → Nat → Nat → List (BitVec 8)) (file : FileId)
    (position count : Nat) : Outcome IoError ComponentFiles :=
  match host s.accesses.length with
  | none => .err .component
  | some _ => .ok (s.access file position count (change (s.content file) position count))

end ComponentFiles

section
variable (content : List (BitVec 8)) (position count : Nat)

/-- Space is allocated up to the end of the range; the file grows if need be. -/
def allocated : List (BitVec 8) := content ++ List.replicate (position + count - content.length) 0

/-- A hole reads as zeros; the file keeps its size. -/
def holed : List (BitVec 8) := patch content position (List.replicate count 0)

def zeroed : List (BitVec 8) := overwrite content position (List.replicate count 0)

end

/-! ## The disk -/

def rangeIntersection (aStart aEnd bStart bEnd : Nat) : Option (Nat × Nat) :=
  if min aEnd bEnd ≤ max aStart bStart then none else some (max aStart bStart, min aEnd bEnd)

namespace CompositeDiskFile
variable (host : Host) (disk : CompositeDiskFile)

def length : Outcome IoError Nat :=
  match disk.componentDisks.getLast? with
  | some last => addU64 last.offset last.length
  | none => .ok 0

def findDisk (offset : Nat) : List ComponentDiskPart → Outcome IoError ComponentDiskPart
  | [] => .err (.noDiskAt offset)
  | d :: rest => do
    let diskEnd ← addU64 d.offset d.length
    if d.offset ≤ offset ∧ offset < diskEnd then .ok d else findDisk offset rest

def diskAtOffset (offset : Nat) : Outcome IoError ComponentDiskPart :=
  findDisk offset disk.componentDisks

/-- How much of a buffer of `size` bytes lies in the component. -/
def subSlice (d : ComponentDiskPart) (offset size : Nat) : Outcome IoError Nat := do
  let last ← addU64 offset size
  let diskEnd ← addU64 d.offset d.length
  if diskEnd < last then subU64 diskEnd offset else .ok size

def readAtVolatile (size offset : Nat) (s : ComponentFiles) :
    Outcome IoError (List (BitVec 8) × ComponentFiles) := do
  let d ← disk.diskAtOffset offset
  let n ← subSlice d offset size
  let position ← subU64 offset d.offset
  s.readAt host d.file position n

def writeAtVolatile (data : List (BitVec 8)) (offset : Nat) (s : ComponentFiles) :
    Outcome IoError (Nat × ComponentFiles) := do
  let d ← disk.diskAtOffset offset
  let n ← subSlice d offset data.length
  let position ← subU64 offset d.offset
  s.writeAt host d.file position (data.take n)

def remainingDisk (d : ComponentDiskPart) (fileOffset : Nat) : Outcome IoError Nat := do
  let diskEnd ← addU64 d.offset d.length
  subU64 diskEnd fileOffset

section
variable (fileOffset : Nat) (mem : BackingMemory) (memOffsets : MemRegionIter) (s : ComponentFiles)

def readToMem : Outcome IoError (Nat × BackingMemory × ComponentFiles) := do
  let d ← disk.diskAtOffset fileOffset
  let remaining ← remainingDisk d fileOffset
  let position ← subU64 fileOffset d.offset
  let regions ← (memOffsets.takeBytes remaining).collect
  let got ← s.readAt host d.file position (totalLen regions)
  match mem.scatter regions got.1 with
  | .ok mem => .ok (got.1.length, mem, got.2)
  | .error region => .err (.guestMemory region)

def writeFromMem : Outcome IoError (Nat × ComponentFiles) := do
  let d ← disk.diskAtOffset fileOffset
  let remaining ← remainingDisk d fileOffset
  let position ← subU64 fileOffset d.offset
  let regions ← (memOffsets.takeBytes remaining).collect
  match regions.find? fun r => !mem.holds r with
  | some region => .err (.guestMemory region)
  | none => s.writeAt host d.file position (mem.gather regions)

end

def forEachInRange (change : List (BitVec 8) → Nat → Nat → List (BitVec 8))
    (rangeStart rangeEnd : Nat) :
    List ComponentDiskPart → ComponentFiles → Outcome IoError ComponentFiles
  | [], s => .ok s
  | d :: rest, s => do
    let diskEnd ← addU64 d.offset d.length
    match rangeIntersection rangeStart rangeEnd d.offset diskEnd with
    | none => forEachInRange change rangeStart rangeEnd rest s
    | some (first, last) => do
      let position ← subU64 first d.offset
      let count ← subU64 last first
      let s ← s.onRange host change d.file position count
      forEachInRange change rangeStart rangeEnd rest s

def inRange (change : List (BitVec 8) → Nat → Nat → List (BitVec 8)) (offset count : Nat)
    (s : ComponentFiles) : Outcome IoError ComponentFiles := do
  let rangeEnd ← addU64 offset count
  forEachInRange host change offset rangeEnd disk.componentDisks s

def allocate (offset count : Nat) (s : ComponentFiles) : Outcome IoError ComponentFiles :=
  disk.inRange host allocated offset count s

def punchHole (fileOffset count : Nat) (s : ComponentFiles) : Outcome IoError ComponentFiles :=
  disk.inRange host holed fileOffset count s

def writeZeroesAt (fileOffset count : Nat) (s : ComponentFiles) : Outcome IoError ComponentFiles :=
  disk.inRange host zeroed fileOffset count s

/-! ## Repeating partial operations

The loops run at most as often as there are bytes to move; a run that is not done by
then would not end. -/

def readExactAtVolatile : Nat → Nat → Nat → ComponentFiles →
    Outcome IoError (List (BitVec 8) × ComponentFiles)
  | _, 0, _, s => .ok ([], s)
  | 0, _, _, _ => .panic
  | fuel + 1, size, offset, s => do
    let got ← disk.readAtVolatile host size offset s
    if got.1 = [] then .err .unexpectedEof
    else do
      let next ← addU64 offset got.1.length
      let rest ← readExactAtVolatile fuel (size - got.1.length) next got.2
      .ok (got.1 ++ rest.1, rest.2)

def writeAllAtVolatile : Nat → List (BitVec 8) → Nat → ComponentFiles →
    Outcome IoError ComponentFiles
  | _, [], _, s => .ok s
  | 0, _, _, _ => .panic
  | fuel + 1, data, offset, s => do
    let got ← disk.writeAtVolatile host data offset s
    if got.1 = 0 then .err .writeZero
    else do
      let next ← addU64 offset got.1
      writeAllAtVolatile fuel (data.drop got.1) next got.2

/-- Asynchronous reads until `count` bytes have come; the iterator skips what is there. -/
def readAllToMem : Nat → Nat → Nat → BackingMemory → MemRegionIter → ComponentFiles →
    Outcome IoError (BackingMemory × ComponentFiles)
  | _, 0, _, mem, _, s => .ok (mem, s)
  | 0, _, _, _, _, _ => .panic
  | fuel + 1, count, offset, mem, memOffsets, s => do
    let got ← disk.readToMem host offset mem memOffsets s
    if got.1 = 0 then .err .unexpectedEof
    else do
      let next ← addU64 offset got.1
      readAllToMem fuel (count - got.1) next got.2.1 (memOffsets.skip got.1) got.2.2

def writeAllFromMem : Nat → Nat → Nat → BackingMemory → MemRegionIter → ComponentFiles →
    Outcome IoError ComponentFiles
  | _, 0, _, _, _, s => .ok s
  | 0, _, _, _, _, _ => .panic
  | fuel + 1, count, offset, mem, memOffsets, s => do
    let got ← disk.writeFromMem host offset mem memOffsets s
    if got.1 = 0 then .err .writeZero
    else do
      let next ← addU64 offset got.1
      writeAllFromMem fuel (count - got.1) next mem (memOffsets.skip got.1) got.2

end CompositeDiskFile

end GunyahVmm.Disk
