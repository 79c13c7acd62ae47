import GunyahVmm.Lib.Bytes

/-! Transfer request blocks and segment table entries of an xHCI controller in guest memory. -/

namespace GunyahVmm.Xhci

inductive TrbType where
  | reserved
  | normal
  | setupStage
  | dataStage
  | statusStage
  | isoch
  | link
  | eventData
  | noop
  | enableSlotCommand
  | disableSlotCommand
  | addressDeviceCommand
  | configureEndpointCommand
  | evaluateContextCommand
  | resetEndpointCommand
  | stopEndpointCommand
  | setTRDequeuePointerCommand
  | resetDeviceCommand
  | noopCommand
  | transferEvent
  | commandCompletionEvent
  | portStatusChangeEvent
  deriving DecidableEq

/-- The type of a value of the six-bit field; the other values are unknown types. -/
def TrbType.ofBits (bits : BitVec 6) : Option TrbType :=
  match bits.toNat with
  | 0 => some .reserved
  | 1 => some .normal
  | 2 => some .setupStage
  | 3 => some .dataStage
  | 4 => some .statusStage
  | 5 => some .isoch
  | 6 => some .link
  | 7 => some .eventData
  | 8 => some .noop
  | 9 => some .enableSlotCommand
  | 10 => some .disableSlotCommand
  | 11 => some .addressDeviceCommand
  | 12 => some .configureEndpointCommand
  | 13 => some .evaluateContextCommand
  | 14 => some .resetEndpointCommand
  | 15 => some .stopEndpointCommand
  | 16 => some .setTRDequeuePointerCommand
  | 17 => some .resetDeviceCommand
  | 23 => some .noopCommand
  | 32 => some .transferEvent
  | 33 => some .commandCompletionEvent
  | 34 => some .portStatusChangeEvent
  | _ => none

/-- The parameter and status fields, and the dword with cycle bit, flags, type and control. -/
structure Trb where
  parameter : BitVec 64
  status : BitVec 32
  dword : BitVec 32

def sizeOfTrb : Nat := 16

namespace Trb
section
variable (trb : Trb)

def getCycle : Bool := trb.dword.getLsbD 0

def setCycle (cycle : Bool) : Trb :=
  { trb with dword := trb.dword &&& ~~~1 ||| if cycle then 1 else 0 }

def getTrbType : Option TrbType := TrbType.ofBits (trb.dword.extractLsb' 10 6)

/-- The chain bit of the types that have one: it has the same place in all of them. -/
def getChainBit : Bool :=
  match trb.getTrbType with
  | some .normal | some .dataStage | some .statusStage | some .isoch | some .noop | some .link
  | some .eventData => trb.dword.getLsbD 4
  | _ => false

def getRingSegmentPointer : BitVec 64 := trb.parameter

def getToggleCycle : Bool := trb.dword.getLsbD 1

end

end Trb

instance : FromBytes Trb where
  size := sizeOfTrb
  fromBytes b := ⟨le64 b 0, le32 b 8, le32 b 12⟩

instance : IntoBytes Trb where
  asBytes trb := leBytes64 trb.parameter ++ leBytes32 trb.status ++ leBytes32 trb.dword

structure EventRingSegmentTableEntry where
  ringSegmentBaseAddress : BitVec 64
  ringSegmentSize : BitVec 16

def sizeOfEventRingSegmentTableEntry : Nat := 16

instance : FromBytes EventRingSegmentTableEntry where
  size := sizeOfEventRingSegmentTableEntry
  fromBytes b := ⟨le64 b 0, le16 b 8⟩

end GunyahVmm.Xhci
