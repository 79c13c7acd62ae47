import GunyahVmm.Lib.Ends
import GunyahVmm.VmMemory.HostAccess
import GunyahVmm.Xhci.Trb

/-! The event ring of the primary interrupter, in segments listed in guest memory. A failed
operation leaves what it has done; sums that leave their type abort. -/

namespace GunyahVmm.Xhci
open Run VmMemory

structure EventRing where
  mem : GuestMemory
  segmentTableSize : BitVec 16
  segmentTableBaseAddress : BitVec 64
  currentSegmentIndex : BitVec 16
  trbCount : BitVec 16
  enqueuePointer : BitVec 64
  dequeuePointer : BitVec 64
  producerCycleState : Bool

namespace EventRing

inductive Error where
  | badEnqueuePointer (addr : BitVec 64)
  | badSegTableAddress (addr : BitVec 64)
  | badSegTableIndex (index : BitVec 16)
  | eventRingFull
  | memoryRead (e : VmMemory.Error)
  | memoryWrite (e : VmMemory.Error)
  | uninitialized

/-- How an operation ends early: with an error, or with the process. -/
inductive Stop where
  | returned (e : Error)
  | abort

abbrev Call (α : Type) := EStateM Stop EventRing α

def fail {α : Type} (e : Error) : Call α := throw (.returned e)

/-- An arithmetic result of a type with `2 ^ w` values; too large a one is an abort. -/
def checked {w : Nat} (n : Nat) : Call (BitVec w) :=
  if n < 2 ^ w then pure (BitVec.ofNat w n) else throw .abort

def access {α : Type} (context : VmMemory.Error → Error) (x : Outcome VmMemory.Error α) : Call α :=
  match x with
  | .ok a => pure a
  | .err e => fail (context e)
  | .panic => throw .abort

def new (mem : GuestMemory) : EventRing where
  mem := mem
  segmentTableSize := 0
  segmentTableBaseAddress := 0
  currentSegmentIndex := 0
  trbCount := 0
  enqueuePointer := 0
  dequeuePointer := 0
  -- as specified in xHCI spec 4.9.4, cycle state should be initialized to 1
  producerCycleState := true

/-- The address of the entry at an index: the product is taken in 16 bits. -/
def getSegTableAddr (index : BitVec 16) : Call Nat := do
  let ring ← get
  if ring.segmentTableSize < index then fail (.badSegTableIndex index)
  else
    let offset : BitVec 16 ← checked (sizeOfEventRingSegmentTableEntry * index.toNat)
    match checkedAdd ring.segmentTableBaseAddress.toNat offset.toNat with
    | none => fail (.badSegTableAddress ring.segmentTableBaseAddress)
    | some addr => pure addr

def readSegTableEntry (index : BitVec 16) : Call EventRingSegmentTableEntry := do
  let addr ← getSegTableAddr index
  let ring ← get
  access .memoryRead (ring.mem.readObjFromAddr EventRingSegmentTableEntry addr).value

def loadCurrentSegTableEntry : Call Unit := do
  let ring ← get
  let entry ← readSegTableEntry ring.currentSegmentIndex
  modify fun ring => { ring with
    enqueuePointer := entry.ringSegmentBaseAddress
    trbCount := entry.ringSegmentSize }

def checkInited : Call Unit := do
  let ring ← get
  if ring.segmentTableSize = 0 ∨ ring.segmentTableBaseAddress = 0 ∨ ring.enqueuePointer = 0 then
    fail .uninitialized
  else pure ()

def tryReconfigureEventRing : Call Unit := do
  let ring ← get
  if ring.segmentTableSize = 0 ∨ ring.segmentTableBaseAddress = 0 then pure ()
  else loadCurrentSegTableEntry

def setSegTableSize (size : BitVec 16) : Call Unit := do
  modify fun ring => { ring with segmentTableSize := size }
  tryReconfigureEventRing

def setSegTableBaseAddr (addr : BitVec 64) : Call Unit := do
  modify fun ring => { ring with segmentTableBaseAddress := addr }
  tryReconfigureEventRing

def setDequeuePointer (addr : BitVec 64) : Call Unit :=
  modify fun ring => { ring with dequeuePointer := addr }

/-- The ring counts as full when there is only space for one last TRB. -/
def isFull : Call Bool := do
  let ring ← get
  if ring.trbCount = 1 then
    let next : BitVec 16 ← checked (ring.currentSegmentIndex.toNat + 1)
    if ring.segmentTableSize = 0 then throw .abort
    else
      let entry ← readSegTableEntry (next % ring.segmentTableSize)
      pure (ring.dequeuePointer == entry.ringSegmentBaseAddress)
  else
    let next : BitVec 64 ← checked (ring.enqueuePointer.toNat + sizeOfTrb)
    pure (ring.dequeuePointer == next)

/-- The two writes of an event: the whole TRB with the inverted cycle bit, then the dword with the
cycle bit. -/
def writeEvent (trb : Trb) : Call Unit := do
  let ring ← get
  let mem ← access .memoryWrite (ring.mem.writeObjAtAddr
    (trb.setCycle (!ring.producerCycleState)) ring.enqueuePointer.toNat).value
  set { ring with mem }
  let cycleBitDword := (IntoBytes.asBytes (trb.setCycle ring.producerCycleState)).drop 12
  match checkedAdd ring.enqueuePointer.toNat 12 with
  | none => fail (.badEnqueuePointer ring.enqueuePointer)
  | some addr => do
    let (completed, mem) ← access .memoryWrite (mem.writeAtAddr cycleBitDword addr)
    set { ring with mem }
    if completed = cycleBitDword.length then pure ()
    else fail (.memoryWrite (.shortWrite cycleBitDword.length completed))

/-- The next segment becomes the current one; behind the last one the cycle state changes. -/
def enterNextSegment : Call Unit := do
  let ring ← get
  let index : BitVec 16 ← checked (ring.currentSegmentIndex.toNat + 1)
  set (if index = ring.segmentTableSize then
      { ring with producerCycleState := !ring.producerCycleState, currentSegmentIndex := 0 }
    else { ring with currentSegmentIndex := index })
  loadCurrentSegTableEntry

def advanceEnqueue : Call Unit := do
  let ring ← get
  match checkedAdd ring.enqueuePointer.toNat sizeOfTrb with
  | none => fail (.badEnqueuePointer ring.enqueuePointer)
  | some addr => do
    set { ring with enqueuePointer := BitVec.ofNat 64 addr }
    if ring.trbCount = 0 then throw .abort
    else
      set { ring with
        enqueuePointer := BitVec.ofNat 64 addr
        trbCount := ring.trbCount - 1 }
      if ring.trbCount - 1 = 0 then enterNextSegment else pure ()

def addEvent (trb : Trb) : Call Unit := do
  checkInited
  if ← isFull then fail .eventRingFull
  else
    writeEvent trb
    advanceEnqueue

/-! ## Runs -/

/-- Events of the device, register writes of the guest, and any bytes in its memory. -/
inductive Op where
  | addEvent (trb : Trb)
  | setSegTableSize (size : BitVec 16)
  | setSegTableBaseAddr (addr : BitVec 64)
  | setDequeuePointer (addr : BitVec 64)
  | guestWrites (bytes : Memory)

def perform : Op → Call Unit
  | .addEvent trb => EventRing.addEvent trb
  | .setSegTableSize size => EventRing.setSegTableSize size
  | .setSegTableBaseAddr addr => EventRing.setSegTableBaseAddr addr
  | .setDequeuePointer addr => EventRing.setDequeuePointer addr
  | .guestWrites bytes => modify fun ring => { ring with mem := { ring.mem with bytes } }

/-- The ring after an operation, whether it succeeded or failed; `none` if it aborted. -/
def step (ring : EventRing) (op : Op) : Option EventRing :=
  match perform op ring with
  | .ok _ ring => some ring
  | .error (.returned _) ring => some ring
  | .error .abort _ => none

end EventRing

end GunyahVmm.Xhci
