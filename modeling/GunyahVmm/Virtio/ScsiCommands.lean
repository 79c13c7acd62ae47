import GunyahVmm.Virtio.DiskTransfer

/-! SCSI commands that use the disk (`devices/src/virtio/scsi/commands.rs`), and the logical units
of `device.rs`. Others get no further than `Command.new`. -/

namespace GunyahVmm.Virtio.Scsi
open Run Handler

inductive ExecuteError where
  | invalidField
  | invalidParamLen
  | lbaOutOfRange (length sector maxLba : Nat)
  | read (e : IoError)
  | readCommand
  | readIo (resid : Nat) (e : IoError)
  | readOnly
  | savingParamNotSupported
  | synchronizationError
  | unsupported (opcode : BitVec 8)
  | write (e : IoError)
  | writeIo (resid : Nat) (e : IoError)

inductive ScsiDeviceType where
  | disk
  | cdrom
  deriving DecidableEq

structure LogicalUnit where
  maxLba : Nat
  blockSize : BitVec 32
  readOnly : Bool
  deviceType : ScsiDeviceType

/-- The logical unit of a disk; `none` if the division by the block size aborts. -/
def LogicalUnit.new (len : BitVec 64) (blockSize : BitVec 32) (readOnly : Bool)
    (deviceType : ScsiDeviceType) : Option LogicalUnit :=
  if blockSize = 0 then none
  else some {
    maxLba := len.toNat / blockSize.toNat
    blockSize := blockSize
    readOnly := readOnly || deviceType == .cdrom
    deviceType := deviceType }

/-- Handlers of the device, which has no state of its own. -/
abbrev Call (α : Type) := Handler Unit ExecuteError α

def mulU64 (a b : Nat) : Call Nat := if a * b < u64Size then pure (a * b) else throw .abort

/-! ## Command blocks -/

section
variable (b : Nat → BitVec 8) (k : Nat)

def be16 : BitVec 16 := ofBe16 (b k) (b (k + 1))

def be32 : BitVec 32 := be16 b k ++ be16 b (k + 2)

def be64 : BitVec 64 := be32 b k ++ be32 b (k + 4)

end

structure Be16 where
  toNative : BitVec 16

structure Be32 where
  toNative : BitVec 32

structure Be64 where
  toNative : BitVec 64

instance : FromBytes Be16 := ⟨2, fun b => ⟨be16 b 0⟩⟩

instance : FromBytes Be32 := ⟨4, fun b => ⟨be32 b 0⟩⟩

instance : FromBytes Be64 := ⟨8, fun b => ⟨be64 b 0⟩⟩

structure Read6 where
  lbaByte0 : BitVec 8
  lbaByte1 : BitVec 8
  lbaByte2 : BitVec 8
  xferLenByte : BitVec 8

instance : FromBytes Read6 := ⟨6, fun b => ⟨b 1, b 2, b 3, b 4⟩⟩

/-- The top three bits are reserved. -/
def Read6.lba (cmd : Read6) : BitVec 32 :=
  ofBe32 0 (cmd.lbaByte0 &&& 0x1f) cmd.lbaByte1 cmd.lbaByte2

/-- The transfer length set to 0 means 256 blocks should be read. -/
def Read6.xferLen (cmd : Read6) : Nat := if cmd.xferLenByte = 0 then 256 else cmd.xferLenByte.toNat

structure Read10 where
  lba : BitVec 32
  xferLen : BitVec 16

instance : FromBytes Read10 := ⟨10, fun b => ⟨be32 b 2, be16 b 7⟩⟩

structure Write10 where
  lba : BitVec 32
  xferLen : BitVec 16

instance : FromBytes Write10 := ⟨10, fun b => ⟨be32 b 2, be16 b 7⟩⟩

structure WriteSame10 where
  wrprotectAnchorUnmap : BitVec 8
  lba : BitVec 32
  nblocks : BitVec 16

instance : FromBytes WriteSame10 := ⟨10, fun b => ⟨b 1, be32 b 2, be16 b 7⟩⟩

structure WriteSame16 where
  wrprotectAnchorUnmap : BitVec 8
  lba : BitVec 64
  nblocks : BitVec 32

instance : FromBytes WriteSame16 := ⟨16, fun b => ⟨b 1, be64 b 2, be32 b 10⟩⟩

def unmapBit (wrprotectAnchorUnmap : BitVec 8) : Bool := wrprotectAnchorUnmap &&& 0x8 != 0

def anchorBit (wrprotectAnchorUnmap : BitVec 8) : Bool := wrprotectAnchorUnmap &&& 0x10 != 0

structure Unmap where
  anchorField : BitVec 8
  paramListLen : BitVec 16

instance : FromBytes Unmap := ⟨10, fun b => ⟨b 1, be16 b 7⟩⟩

def Unmap.anchor (cmd : Unmap) : Bool := cmd.anchorField &&& 0x01 != 0

/-- The commands that use the disk or tell its size. -/
inductive Command where
  | read6 (cmd : Read6)
  | readCapacity10
  | readCapacity16
  | read10 (cmd : Read10)
  | write10 (cmd : Write10)
  | synchronizeCache10
  | writeSame10 (cmd : WriteSame10)
  | unmap (cmd : Unmap)
  | writeSame16 (cmd : WriteSame16)

def parseCommand (α : Type) [FromBytes α] (cdb : List (BitVec 8)) : Except ExecuteError α :=
  if cdb.length < FromBytes.size α then .error .readCommand
  else .ok (FromBytes.fromBytes fun i => cdb.getD i 0)

/-- Whether the block is long enough for a command of which no field is used. -/
def parseLength (size : Nat) (cdb : List (BitVec 8))
    (cmd : Command) : Except ExecuteError Command :=
  if cdb.length < size then .error .readCommand else .ok cmd

/-- The command of a command block; `none` for the opcodes that only describe the unit. -/
def Command.new (cdb : List (BitVec 8)) : Except ExecuteError (Option Command) :=
  let opcode := cdb.getD 0 0
  if opcode = 0x08 then (some ∘ .read6) <$> parseCommand Read6 cdb
  else if opcode = 0x25 then some <$> parseLength 10 cdb .readCapacity10
  else if opcode = 0x28 then (some ∘ .read10) <$> parseCommand Read10 cdb
  else if opcode = 0x2a then (some ∘ .write10) <$> parseCommand Write10 cdb
  else if opcode = 0x35 then some <$> parseLength 10 cdb .synchronizeCache10
  else if opcode = 0x41 then (some ∘ .writeSame10) <$> parseCommand WriteSame10 cdb
  else if opcode = 0x42 then (some ∘ .unmap) <$> parseCommand Unmap cdb
  else if opcode = 0x93 then (some ∘ .writeSame16) <$> parseCommand WriteSame16 cdb
  else if opcode = 0x9e then
    -- the top three bits of the service action are reserved
    if cdb.getD 1 0 &&& 0x1f = 0x10 then some <$> parseLength 16 cdb .readCapacity16
    else .error (.unsupported opcode)
  else if opcode ∈ ([0x00, 0x03, 0x12, 0x15, 0x1a, 0xa0, 0xa3] : List (BitVec 8)) then .ok none
  else .error (.unsupported opcode)

/-! ## Disk access -/

/-- The check against the highest block address, which allows one more than `maxLba` blocks. -/
def checkLbaRange (maxLba sectorNum sectorLen : Nat) : Call Unit :=
  match checkedAdd sectorNum sectorLen with
  | some v =>
    if u64Size ≤ maxLba + 1 then throw .abort
    else if v ≤ maxLba + 1 then pure ()
    else fail (.lbaOutOfRange sectorLen sectorNum maxLba)
  | none => fail (.lbaOutOfRange sectorLen sectorNum maxLba)

/-- An error with the bytes left to move; more moved than asked for are an underflow. -/
def withResid (moved : Io Unit → Nat) (count : Nat) (context : Nat → IoError → ExecuteError)
    (x : Handler Unit IoError Unit) : Call Unit := fun io =>
  match x io with
  | .ok _ io' => .ok () io'
  | .error (.returned e) io' =>
    if count < moved io' - moved io then .error .abort io'
    else .error (.returned (context (count - (moved io' - moved io)) e)) io'
  | .error .abort io' => .error .abort io'

def readFromDisk (host : Host) (dev : LogicalUnit) (xferBlocks lba : Nat) : Call Unit := do
  checkLbaRange dev.maxLba lba xferBlocks
  let count ← mulU64 xferBlocks dev.blockSize.toNat
  let offset ← mulU64 lba dev.blockSize.toNat
  withResid (·.writer.bytesWritten) count .readIo (writeAllFromAtFut host count offset)

def writeToDisk (host : Host) (dev : LogicalUnit) (xferBlocks lba : Nat) : Call Unit := do
  if dev.readOnly then fail .readOnly
  else
    checkLbaRange dev.maxLba lba xferBlocks
    let count ← mulU64 xferBlocks dev.blockSize.toNat
    let offset ← mulU64 lba dev.blockSize.toNat
    withResid (·.reader.bytesRead) count .writeIo (readExactToAtFut host count offset)

/-- The host's errors are ignored: the device is not required to unmap. -/
def unmapBlocks (host : Host) (dev : LogicalUnit) (lba nblocks : Nat) : Call Unit := do
  checkLbaRange dev.maxLba lba nblocks
  let offset ← mulU64 lba dev.blockSize.toNat
  let length ← mulU64 nblocks dev.blockSize.toNat
  ignore (perform host (.punchHole offset length))

/-- Only a block of zeroes can be repeated. -/
def writeSame (host : Host) (dev : LogicalUnit) (lba nblocks : Nat) : Call Unit := do
  checkLbaRange dev.maxLba lba nblocks
  let io ← get
  if (io.reader.splitAt dev.blockSize.toNat).all (· == 0) then
    let offset ← mulU64 lba dev.blockSize.toNat
    let length ← mulU64 nblocks dev.blockSize.toNat
    ignore (perform host (.writeZeroesAt offset length))
  else fail .invalidField

/-! ## Commands -/

def Read6.emulate (host : Host) (dev : LogicalUnit) (cmd : Read6) : Call Unit :=
  readFromDisk host dev cmd.xferLen cmd.lba.toNat

def Read10.emulate (host : Host) (dev : LogicalUnit) (cmd : Read10) : Call Unit :=
  readFromDisk host dev cmd.xferLen.toNat cmd.lba.toNat

def Write10.emulate (host : Host) (dev : LogicalUnit) (cmd : Write10) : Call Unit :=
  writeToDisk host dev cmd.xferLen.toNat cmd.lba.toNat

/-- The block address of the last sector, or the highest address if it exceeds that. -/
def readCapacity10Bytes (dev : LogicalUnit) : List (BitVec 8) :=
  beBytes32 (BitVec.ofNat 32 (min (dev.maxLba - 1) 0xffffffff)) ++ beBytes32 dev.blockSize

def readCapacity16Bytes (dev : LogicalUnit) : List (BitVec 8) :=
  beBytes64 (BitVec.ofNat 64 (dev.maxLba - 1)) ++ beBytes32 dev.blockSize ++
    [0, 0, 0x80, 0] ++ List.replicate 16 0

section
variable (host : Host) (dev : LogicalUnit)

def synchronizeCache10 : Call Unit := do
  if dev.readOnly then fail .readOnly
  else
    let _ ← mapErr (fun _ => ExecuteError.synchronizationError) (perform host .fdatasync)
    pure ()

/-- The part that both forms of WRITE SAME share. -/
def emulateWriteSame (flags : BitVec 8) (lba nblocks : Nat) : Call Unit :=
  if nblocks = 0 then fail .invalidField
  else if anchorBit flags then fail .invalidField
  else if unmapBit flags then unmapBlocks host dev lba nblocks
  else writeSame host dev lba nblocks

def WriteSame10.emulate (cmd : WriteSame10) : Call Unit :=
  if dev.readOnly then fail .readOnly
  else emulateWriteSame host dev cmd.wrprotectAnchorUnmap cmd.lba.toNat cmd.nblocks.toNat

/-- A read-only unit is not refused here. -/
def WriteSame16.emulate (cmd : WriteSame16) : Call Unit :=
  emulateWriteSame host dev cmd.wrprotectAnchorUnmap cmd.lba.toNat cmd.nblocks.toNat

end

def consume (amt : Nat) : Call Unit := modify fun io => { io with reader := io.reader.consume amt }

def unmapDescriptor (host : Host) (dev : LogicalUnit) : Call Unit := do
  let lba ← mapErr .read (readObj Be64)
  let nblocks ← mapErr .read (readObj Be32)
  consume 4
  unmapBlocks host dev lba.toNative.toNat nblocks.toNative.toNat

def unmapDescriptors (host : Host) (dev : LogicalUnit) : Nat → Call Unit
  | 0 => pure ()
  | count + 1 => do
    unmapDescriptor host dev
    unmapDescriptors host dev count

def Unmap.emulate (host : Host) (dev : LogicalUnit) (cmd : Unmap) : Call Unit := do
  if cmd.anchor then fail .invalidField
  else if dev.readOnly then fail .readOnly
  else if 0 < cmd.paramListLen.toNat ∧ cmd.paramListLen.toNat < 8 then fail .invalidParamLen
  else
    consume 2
    let blockDataLen ← mapErr .read (readObj Be16)
    consume 4
    unmapDescriptors host dev (blockDataLen.toNative.toNat / 16)

def Command.execute (host : Host) (dev : LogicalUnit) : Command → Call Unit
  | .read6 cmd => cmd.emulate host dev
  | .readCapacity10 => mapErr .write (writeAll (readCapacity10Bytes dev))
  | .readCapacity16 => mapErr .write (writeAll (readCapacity16Bytes dev))
  | .read10 cmd => cmd.emulate host dev
  | .write10 cmd => cmd.emulate host dev
  | .synchronizeCache10 => Scsi.synchronizeCache10 host dev
  | .writeSame10 cmd => cmd.emulate host dev
  | .unmap cmd => cmd.emulate host dev
  | .writeSame16 cmd => cmd.emulate host dev

end GunyahVmm.Virtio.Scsi
