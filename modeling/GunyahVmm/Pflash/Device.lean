import GunyahVmm.Lib.Bytes
import GunyahVmm.Lib.Run
import GunyahVmm.Lib.U64

/-! The flash device (`devices/src/pflash.rs`). The host may fail a write to the image part-way. -/

namespace GunyahVmm.Pflash

def commandWriteByte : BitVec 8 := 0x10

def commandBlockErase : BitVec 8 := 0x20

def commandClearStatus : BitVec 8 := 0x50

def commandReadStatus : BitVec 8 := 0x70

def commandBlockEraseConfirm : BitVec 8 := 0xd0

def commandReadArray : BitVec 8 := 0xff

def commandCfiQuery : BitVec 8 := 0x98

def cfiHeaderOffset : Nat := 0x10

def statusReady : BitVec 8 := 0x80

inductive State where
  | readArray
  | readStatus
  | readCfi
  | blockErase (offset : BitVec 64)
  | write (offset : BitVec 64)

/-- The device. A call that aborts has no state after it. -/
structure Device where
  image : List (BitVec 8)
  imageSize : Nat
  blockSize : BitVec 32
  state : State
  status : BitVec 8

inductive NewError where
  | notPowerOfTwo (blockSize : BitVec 32)
  | notMultiple (imageSize : Nat) (blockSize : BitVec 32)

def isPowerOfTwo (v : BitVec 32) : Bool := v != 0 && v &&& (v - 1) == 0

def Device.new (image : List (BitVec 8)) (blockSize : BitVec 32) : Except NewError Device :=
  if !isPowerOfTwo blockSize then .error (.notPowerOfTwo blockSize)
  else if image.length % blockSize.toNat ≠ 0 then .error (.notMultiple image.length blockSize)
  else .ok {
    image := image
    imageSize := image.length
    blockSize := blockSize
    state := .readArray
    status := statusReady }

/-! ## The image -/

/-- The file with `data` written at an offset, longer if the data reaches beyond its end. -/
def writeFile (image : List (BitVec 8)) (offset : Nat) (data : List (BitVec 8)) : List (BitVec 8) :=
  image.take offset ++ List.replicate (offset - image.length) 0 ++ data ++
    image.drop (offset + data.length)

/-- The image after a write of which the host stores everything, or fails after the first bytes. -/
def writeAllAt (image : List (BitVec 8)) (offset : Nat) (data : List (BitVec 8)) :
    Option Nat → List (BitVec 8)
  | none => writeFile image offset data
  | some stored => writeFile image offset (data.take stored)

/-- The buffer after a read that the host completes, or fails after the first bytes. -/
def readExactAt (image : List (BitVec 8)) (offset : Nat) (data : List (BitVec 8)) :
    Option Nat → List (BitVec 8)
  | none => (image.drop offset).take data.length
  | some filled => (image.drop offset).take filled ++ data.drop filled

/-! ## The query table -/

def trailingZeros (v : BitVec 64) : Nat := ((List.range 64).find? v.getLsbD).getD 64

/-- The entries of the query table that do not depend on the geometry. -/
def cfiConstants : List (Nat × BitVec 8) :=
  [(0x00, 0x51), (0x01, 0x52), (0x02, 0x59), (0x03, 0x01), (0x05, 0x35), (0x13, 0x33), (0x14, 0x33),
    (0x15, 0x19), (0x16, 0x19), (0x17, 0x06), (0x18, 0x06), (0x19, 0x07), (0x1a, 0x08),
    (0x1b, 0x08),
    (0x1c, 0x0a), (0x28, 0x01), (0x2a, 0x01)]

/-- The geometry in the query table; `none` if a difference underflows. -/
def cfiRegion (blockSize : BitVec 32) (imageSize : Nat) : Option (BitVec 32) :=
  let numBlocks := BitVec.ofNat 32 (imageSize / blockSize.toNat)
  if blockSize.toNat < 256 ∨ numBlocks = 0 then none
  else some ((numBlocks - 1) <<< 16 ||| BitVec.ofNat 32 (blockSize.toNat / 256 - 1))

def buildCfiTable (blockSize : BitVec 32) (imageSize : Nat) : Option (List (BitVec 8)) := do
  let region ← cfiRegion blockSize imageSize
  let constants := cfiConstants.foldl (fun cfi entry => cfi.set entry.1 entry.2)
    (List.replicate 0x40 (0 : BitVec 8))
  let cfi := constants.set 0x27 (BitVec.ofNat 8 (trailingZeros (BitVec.ofNat 64 imageSize)))
  pure (cfi.take 0x2c ++ leBytes32 region ++ cfi.drop 0x30)

/-- The byte of the table for an address; below the header an arbitrary one. -/
def cfiByte (cfi : List (BitVec 8)) (addr : Nat) : BitVec 8 :=
  if addr < cfiHeaderOffset then 0x20 else cfi.getD (addr - cfiHeaderOffset) 0

/-- Fill the buffer from the table; `none` if an address overflows. -/
def readCfiInto (offset : Nat) (data cfi : List (BitVec 8)) : Option (List (BitVec 8)) :=
  if u64Size < offset + data.length then none
  else some ((List.range data.length).map fun i => cfiByte cfi (offset + i))

/-! ## Bus accesses -/

namespace Device
section
variable (dev : Device)

def read (offset : BitVec 64) (data : List (BitVec 8)) (fails : Option Nat) :
    Option (Device × List (BitVec 8)) :=
  match dev.state with
  | .readArray =>
    if u64Size ≤ offset.toNat + data.length then none
    else if dev.imageSize ≤ offset.toNat + data.length then some (dev, data)
    else some (dev, readExactAt dev.image offset.toNat data fails)
  | .readStatus =>
    some ({ dev with state := .readArray }, List.replicate data.length dev.status)
  | .readCfi => do
    let cfi ← buildCfiTable dev.blockSize dev.imageSize
    let data ← readCfiInto offset.toNat data cfi
    pure (dev, data)
  | .blockErase _ | .write _ => some ({ dev with state := .readArray }, data)

def programByte (expected offset : BitVec 64) (data : BitVec 8) (fails : Option Nat) : Device :=
  let dev := { dev with state := .readArray, status := statusReady }
  if offset ≠ expected then dev
  else if dev.imageSize ≤ offset.toNat then dev
  else { dev with image := writeAllAt dev.image offset.toNat [data] fails }

def eraseBlock (expected offset : BitVec 64) (data : BitVec 8) (fails : Option Nat) : Device :=
  let dev := { dev with state := .readArray, status := statusReady }
  if data ≠ commandBlockEraseConfirm then dev
  else if offset ≠ expected then dev
  else if dev.imageSize ≤ offset.toNat then dev
  else if offset.toNat % dev.blockSize.toNat ≠ 0 then dev
  else { dev with
    image := writeAllAt dev.image offset.toNat (List.replicate dev.blockSize.toNat 0xff) fails }

def command (offset : BitVec 64) (command : BitVec 8) : Device :=
  if command = commandReadArray then { dev with state := .readArray, status := statusReady }
  else if command = commandReadStatus then { dev with state := .readStatus }
  else if command = commandCfiQuery then { dev with state := .readCfi }
  else if command = commandClearStatus then { dev with state := .readArray, status := 0 }
  else if command = commandWriteByte then { dev with state := .write offset }
  else if command = commandBlockErase then { dev with state := .blockErase offset }
  else { dev with state := .readArray }

/-- A write; `none` if there is no byte to look at. -/
def write (offset : BitVec 64) (data : List (BitVec 8)) (fails : Option Nat) : Option Device :=
  match data with
  | [] => none
  | [data] =>
    match dev.state with
    | .write expected => some (dev.programByte expected offset data fails)
    | .blockErase expected => some (dev.eraseBlock expected offset data fails)
    | .readArray | .readStatus | .readCfi => some (dev.command offset data)
  | _ :: _ :: _ => some dev

end

end Device

/-- An access on the bus, with the number of bytes after which the host fails it, if it does. -/
inductive Access where
  | read (offset : BitVec 64) (data : List (BitVec 8)) (fails : Option Nat)
  | write (offset : BitVec 64) (data : List (BitVec 8)) (fails : Option Nat)

/-- The device after an access; `none` if it aborts. -/
def step (dev : Device) : Access → Option Device
  | .read offset data fails => (dev.read offset data fails).map Prod.fst
  | .write offset data fails => dev.write offset data fails

end GunyahVmm.Pflash
