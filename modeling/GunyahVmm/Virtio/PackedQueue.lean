import GunyahVmm.Virtio.PackedDescriptorChain
import GunyahVmm.Virtio.SplitQueue

/-! Packed virtqueues: one ring of descriptors that driver and device both write, and two
event suppression structures. -/

namespace GunyahVmm.Virtio
open Run VmMemory

/-- The largest number of entries a queue is configured with. -/
def queueMaxSize : Nat := 32768

/-- A position of the ring, with the parity of the rounds so far. -/
structure PackedQueueIndex where
  wrapCounter : Bool
  index : BitVec 16
  deriving DecidableEq

namespace PackedQueueIndex

def default : PackedQueueIndex := ⟨true, 0#16⟩

def newFromDesc (desc : BitVec 16) : PackedQueueIndex := ⟨desc >>> 15 = 1#16, desc &&& 0x7fff#16⟩

def toDesc (p : PackedQueueIndex) : PackedDescEvent :=
  ⟨if p.wrapCounter then p.index ||| 1#16 <<< 15 else p.index, ringEventFlagsDesc⟩

/-- The position `indexValue` further on. The sum is one of 16-bit numbers. -/
def addIndex (p : PackedQueueIndex) (indexValue size : BitVec 16) :
    Outcome Empty PackedQueueIndex :=
  if 0x10000 ≤ p.index.toNat + indexValue.toNat then .panic
  else
    let newIndex := p.index + indexValue
    if newIndex < size then .ok { p with index := newIndex }
    else .ok ⟨!p.wrapCounter, newIndex - size⟩

end PackedQueueIndex

inductive PackedAreaName where
  | descriptorTable
  | driverEventSuppression
  | deviceEventSuppression
  deriving DecidableEq

structure PackedArea where
  name : PackedAreaName
  start : Nat
  len : Nat

def areaSizes (queueSize : BitVec 16) (descTable driverArea deviceArea : Nat) : List PackedArea :=
  [⟨.descriptorTable, descTable, 16 * queueSize.toNat⟩,
   ⟨.driverEventSuppression, driverArea, 4⟩,
   ⟨.deviceEventSuppression, deviceArea, 4⟩]

/-- An activated queue. That its areas do not wrap around the address space was checked when
it was made. -/
structure PackedQueue where
  mem : GuestMemory
  interrupt : Interrupt
  size : BitVec 16
  vector : BitVec 16
  availIndex : PackedQueueIndex
  useIndex : PackedQueueIndex
  signalledUsedIndex : PackedQueueIndex
  features : BitVec 64
  descTable : Nat
  deviceEventSuppression : Nat
  driverEventSuppression : Nat
  areas_fit : ∀ a ∈ areaSizes size descTable driverEventSuppression deviceEventSuppression,
    a.start + a.len < u64Size

namespace PackedQueue

/-- The error is the area that goes out of bounds. -/
def new (config : QueueConfig) (mem : GuestMemory) (interrupt : Interrupt) :
    Except PackedArea PackedQueue :=
  let areas := areaSizes config.size config.descTable config.availRing config.usedRing
  match hareas : areas.find? fun a => (checkedAdd a.start a.len).isNone with
  | some area => .error area
  | none => .ok
    { mem
      interrupt
      size := config.size
      vector := config.vector
      descTable := config.descTable
      driverEventSuppression := config.availRing
      deviceEventSuppression := config.usedRing
      features := config.ackedFeatures
      availIndex := .default
      useIndex := .default
      signalledUsedIndex := .default
      areas_fit := by
        intro a ha
        have hsome := List.find?_eq_none.mp hareas a ha
        rw [Option.isNone_iff_eq_none, checkedAdd_eq_none] at hsome
        exact Nat.lt_of_not_le hsome }

section
variable (q : PackedQueue)

def areas : List PackedArea :=
  areaSizes q.size q.descTable q.driverEventSuppression q.deviceEventSuppression

def usesEventIdx : Bool := q.features &&& (1#64 <<< virtioRingFEventIdx) ≠ 0#64

def setAvailEvent (event : PackedDescEvent) : Traced Access Empty PackedQueue := do
  let mem ← (q.mem.writeObjAtAddrVolatile event q.deviceEventSuppression).unwrap
  pure { q with mem }

def getDriverEvent : Traced Access Empty PackedDescEvent :=
  (q.mem.readObjFromAddrVolatile PackedDescEvent q.driverEventSuppression).unwrap

/-- `view k` is what memory holds at the `k`-th read. -/
def peek (view : Nat → Memory) :
    Traced Access Empty (Option DescriptorChain) := do
  let descAddr ← Traced.lift
    (Outcome.expect (checkedAdd q.descTable (q.availIndex.index.toNat * 16)))
  let mem := { q.mem with bytes := view 0 }
  match ← (mem.readObjFromAddr PackedDesc descAddr).attempt with
  | .error _ => pure none
  | .ok desc =>
    if desc.isAvailable q.availIndex.wrapCounter = false then pure none
    else
      let chain := PackedDescriptorChain.new q.mem q.descTable q.size q.availIndex.wrapCounter
        q.availIndex.index fun k => view (k + 1)
      match ← (DescriptorChain.new chain q.mem q.availIndex.index).attempt with
      | .ok descriptorChain => pure (some descriptorChain)
      | .error _ => pure none

def popPeeked (descriptorChain : DescriptorChain) :
    Traced Access Empty PackedQueue := do
  let availIndex ← Traced.lift (q.availIndex.addIndex descriptorChain.count q.size)
  let q := { q with availIndex }
  if q.usesEventIdx then q.setAvailEvent q.availIndex.toDesc else pure q

end

def usedFlags (wrapCounter : Bool) (len : BitVec 32) : BitVec 16 :=
  let flags := if wrapCounter then virtqDescFUsed ||| virtqDescFAvail else 0#16
  if 0#32 < len then flags ||| virtqDescFWrite else flags

def addUsed (q : PackedQueue) (descChain : DescriptorChain) (len : BitVec 32) :
    Traced Access Empty PackedQueue :=
  if q.size ≤ descChain.index then pure q
  else do
    let chainId ← Traced.lift (Outcome.expect descChain.id)
    let descAddr ← Traced.lift
      (Outcome.expect (checkedAdd q.descTable (q.useIndex.index.toNat * 16)))
    let lenAddr ← Traced.lift (Outcome.expect (checkedAdd descAddr 8))
    let mem ← (q.mem.writeObjAtAddr len lenAddr).unwrap
    let idAddr ← Traced.lift (Outcome.expect (checkedAdd descAddr 12))
    let mem ← (mem.writeObjAtAddr chainId idAddr).unwrap
    let flags := usedFlags q.useIndex.wrapCounter len
    let mem ← (mem.writeObjAtAddrVolatile flags (wrappingAdd descAddr 14)).unwrap
    let useIndex ← Traced.lift (q.useIndex.addIndex descChain.count q.size)
    pure { q with mem, useIndex }

/-- What the flags of the driver ask for, and the queue after the question. -/
def notificationDecision (q : PackedQueue) (driverEvent : PackedDescEvent) : PackedQueue × Bool :=
  match driverEvent.notificationType with
  | .enable => (q, true)
  | .disable => (q, false)
  | .desc desc =>
    if q.usesEventIdx = false then (q, true)
    else
      let old := q.signalledUsedIndex.index
      let event := (PackedQueueIndex.newFromDesc desc).index
      let new := q.useIndex.index
      ({ q with signalledUsedIndex := q.useIndex }, new - event - 1#16 < new - old)

def queueWantsInterrupt (q : PackedQueue) : Traced Access Empty (PackedQueue × Bool) := do
  let driverEvent ← q.getDriverEvent
  -- the decision is computed as a statement; the function ends with `true` whatever it is
  pure ((q.notificationDecision driverEvent).1, true)

/-- `evtOk` is the answer to the write to the event of the interrupt. -/
def triggerInterrupt (q : PackedQueue) (evtOk : Bool) :
    Traced Access Empty (PackedQueue × Bool) := do
  let (q, wants) ← q.queueWantsInterrupt
  if wants then
    let interrupt ← Traced.lift (q.interrupt.signalUsedQueue q.vector evtOk)
    pure ({ q with interrupt }, true)
  else pure (q, false)

/-- What an accepted configuration turns into. -/
lemma new_eq_ok {config : QueueConfig} {mem : GuestMemory} {interrupt : Interrupt}
    {q : PackedQueue} (h : new config mem interrupt = .ok q) :
    q.mem = mem ∧ q.size = config.size ∧ q.availIndex = .default ∧ q.useIndex = .default ∧
      q.areas = areaSizes config.size config.descTable config.availRing config.usedRing := by
  unfold new at h
  dsimp only at h
  split at h
  all_goals cases h
  · exact ⟨rfl, rfl, rfl, rfl, rfl⟩

end PackedQueue

end GunyahVmm.Virtio
