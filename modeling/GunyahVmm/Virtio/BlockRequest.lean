import GunyahVmm.Virtio.DiskTransfer

/-! Requests of the block device: `devices/src/virtio/block/asynchronous.rs`. -/

namespace GunyahVmm.Virtio.Block
open Run Handler

def sectorShift : Nat := 9

def statusOk : BitVec 8 := 0

def statusIoErr : BitVec 8 := 1

def statusUnsupp : BitVec 8 := 2

inductive RequestType where
  | read
  | write
  | flush
  | getId
  | discard
  | writeZeroes
  | unknown
  deriving DecidableEq

def RequestType.ofCode (code : BitVec 32) : RequestType :=
  if code = 0 then .read
  else if code = 1 then .write
  else if code = 4 then .flush
  else if code = 8 then .getId
  else if code = 11 then .discard
  else if code = 13 then .writeZeroes
  else .unknown

structure ReqHeader where
  reqType : BitVec 32
  sector : BitVec 64

/-- Four reserved bytes stand between the type and the sector. -/
instance : FromBytes ReqHeader where
  size := 16
  fromBytes b := ⟨le32 b 0, le64 b 8⟩

structure Segment where
  sector : BitVec 64
  numSectors : BitVec 32
  flags : BitVec 32

def sizeOfSegment : Nat := 16

instance : FromBytes Segment where
  size := sizeOfSegment
  fromBytes b := ⟨le64 b 0, le32 b 8, le32 b 12⟩

/-- The flag by which a guest allows to unmap what is zeroed. -/
def flagUnmap : BitVec 32 := 1

inductive ExecuteError where
  | copyId (e : IoError)
  | discardWriteZeroes (ioerr : Option IoError) (seg : Segment)
  | flush (e : IoError)
  | missingStatus
  | outOfRange
  | read (e : IoError)
  | readIo (length : Nat) (sector : BitVec 64) (e : IoError)
  | readOnly (requestType : BitVec 32)
  | timerReset (e : IoError)
  | unsupported (requestType : BitVec 32)
  | writeIo (length : Nat) (sector : BitVec 64) (e : IoError)

def ExecuteError.status : ExecuteError → BitVec 8
  | .unsupported _ => statusUnsupp
  | _ => statusIoErr

structure DiskState where
  diskSize : BitVec 64
  readOnly : Bool
  sparse : Bool
  id : Option (List (BitVec 8))

/-- Handlers of the device; its state is whether the flush timer is armed. -/
abbrev Call (α : Type) := Handler Bool ExecuteError α

/-- `checked_shl` fails only for a shift as wide as the type: bits that are shifted out are lost. -/
def checkedShl (v : BitVec 64) (bits : Nat) : Option (BitVec 64) :=
  if bits < 64 then some (v <<< bits) else none

def offsetOf (sector : BitVec 64) : Call Nat :=
  match checkedShl sector sectorShift with
  | some offset => pure offset.toNat
  | none => fail .outOfRange

/-- Check that a request accesses only data within the disk's current size. -/
def checkRange (ioStart ioLength diskSize : Nat) : Call Unit :=
  match checkedAdd ioStart ioLength with
  | none => fail .outOfRange
  | some ioEnd => if diskSize < ioEnd then fail .outOfRange else pure ()

def executeRead (host : Host) (disk : DiskState) (sector : BitVec 64) : Call Unit := do
  let io ← get
  let dataLen := io.writer.availableBytes
  if dataLen = 0 then pure ()
  else
    let offset ← offsetOf sector
    checkRange offset dataLen disk.diskSize.toNat
    mapErr (.readIo dataLen sector) (writeAllFromAtFut host dataLen offset)

/-- After the first write the flush timer is armed, before the host is asked to. -/
def armFlushTimer (host : Host) : Call Unit := do
  let io ← get
  if io.device then pure ()
  else
    set { io with device := true }
    let _ ← mapErr .timerReset (perform host .resetOneshot)
    pure ()

def executeWrite (host : Host) (disk : DiskState) (sector : BitVec 64) : Call Unit := do
  let io ← get
  let dataLen := io.reader.availableBytes
  if dataLen = 0 then pure ()
  else
    let offset ← offsetOf sector
    checkRange offset dataLen disk.diskSize.toNat
    mapErr (.writeIo dataLen sector) (readExactToAtFut host dataLen offset)
    armFlushTimer host

/-- The host call for a segment. Discarding is a hint: the host's errors are ignored. -/
def discardOrZero (host : Host) (zeroes : Bool) (seg : Segment) (offset length : Nat) : Call Unit :=
  if zeroes then do
    let _ ← mapErr (fun e => .discardWriteZeroes (some e) seg)
      (perform host (.writeZeroesAt offset length))
    pure ()
  else ignore (perform host (.punchHole offset length))

def validFlags (zeroes : Bool) : BitVec 32 := if zeroes then flagUnmap else 0

def executeSegment (host : Host) (disk : DiskState) (zeroes : Bool) : Call Unit := do
  let seg ← mapErr .read (readObj Segment)
  if seg.flags &&& ~~~validFlags zeroes ≠ 0 then fail (.discardWriteZeroes none seg)
  else
    let offset ← offsetOf seg.sector
    let length ← offsetOf (seg.numSectors.setWidth 64)
    checkRange offset length disk.diskSize.toNat
    discardOrZero host zeroes seg offset length

/-- The loop over the segments, which takes at most as many rounds as there are whole segments. -/
def executeSegments (host : Host) (disk : DiskState) (zeroes : Bool) : Nat → Call Unit
  | 0 => pure ()
  | rounds + 1 => do
    let io ← get
    if sizeOfSegment ≤ io.reader.availableBytes then
      executeSegment host disk zeroes
      executeSegments host disk zeroes rounds
    else pure ()

def executeDiscardWriteZeroes (host : Host) (disk : DiskState) (zeroes : Bool) : Call Unit := do
  if !zeroes && !disk.sparse then pure ()
  else
    let io ← get
    executeSegments host disk zeroes (io.reader.availableBytes / sizeOfSegment)

def executeFlush (host : Host) : Call Unit := do
  let _ ← mapErr .flush (perform host .fdatasync)
  let io ← get
  if io.device then
    let _ ← mapErr .timerReset (perform host .clearTimer)
    modify fun io => { io with device := false }
  else pure ()

def executeGetId (disk : DiskState) (reqType : BitVec 32) : Call Unit :=
  match disk.id with
  | some id => mapErr .copyId (writeAll id)
  | none => fail (.unsupported reqType)

def executeType (host : Host) (disk : DiskState) (reqHeader : ReqHeader) : Call Unit :=
  match RequestType.ofCode reqHeader.reqType with
  | .read => executeRead host disk reqHeader.sector
  | .write => executeWrite host disk reqHeader.sector
  | .discard => executeDiscardWriteZeroes host disk false
  | .writeZeroes => executeDiscardWriteZeroes host disk true
  | .flush => executeFlush host
  | .getId => executeGetId disk reqHeader.reqType
  | .unknown => fail (.unsupported reqHeader.reqType)

/-- Whether a read-only disk refuses requests of a type. -/
def RequestType.needsWrite (reqType : RequestType) : Bool := reqType != .read && reqType != .getId

def executeRequest (host : Host) (disk : DiskState) : Call Unit := do
  let reqHeader ← mapErr .read (readObj ReqHeader)
  if disk.readOnly && (RequestType.ofCode reqHeader.reqType).needsWrite then
    fail (.readOnly reqHeader.reqType)
  else executeType host disk reqHeader

/-- The status byte of a request, for which the last writable byte is kept, and the bytes used. -/
def processOneRequest (host : Host) (disk : DiskState) : Call (BitVec 8 × Nat) := fun io =>
  let availableBytes := io.writer.availableBytes
  match checkedSub availableBytes 1 with
  | none => .error (.returned .missingStatus) io
  | some statusOffset =>
    match executeRequest host disk
      { io with writer := { io.writer with availableBytes := statusOffset } } with
    | .ok _ io => .ok (statusOk, availableBytes) io
    | .error (.returned e) io => .ok (e.status, availableBytes) io
    | .error .abort io => .error .abort io

end GunyahVmm.Virtio.Block
