import GunyahVmm.Virtio.Interrupt
import GunyahVmm.Virtio.SplitDescriptorChain

/-! Split virtqueues: descriptor table, available and used ring, whose addresses are checked once.
-/

namespace GunyahVmm.Virtio
open Run VmMemory Run.Traced

def virtioRingFEventIdx : Nat := 29

def virtqAvailFNoInterrupt : BitVec 16 := 0x1

structure QueueConfig where
  size : BitVec 16
  vector : BitVec 16
  ackedFeatures : BitVec 64
  descTable : Nat
  availRing : Nat
  usedRing : Nat
  nextAvail : BitVec 16
  nextUsed : BitVec 16

inductive RingName where
  | descriptorTable
  | availableRing
  | usedRing
  deriving DecidableEq

structure Ring where
  name : RingName
  start : Nat
  len : Nat

def ringSizes (queueSize : BitVec 16) (descTable availRing usedRing : Nat) : List Ring :=
  [⟨.descriptorTable, descTable, 16 * queueSize.toNat⟩,
   ⟨.availableRing, availRing, 6 + 2 * queueSize.toNat⟩,
   ⟨.usedRing, usedRing, 6 + 8 * queueSize.toNat⟩]

def isPowerOfTwo (size : BitVec 16) : Bool := decide (∃ k < 16, size.toNat = 2 ^ k)

inductive QueueError where
  | notPowerOfTwo (size : BitVec 16)
  | outOfBounds (ring : Ring)

/-- An activated queue. That its rings do not wrap around the address space was checked when
it was made. -/
structure SplitQueue where
  mem : GuestMemory
  interrupt : Interrupt
  size : BitVec 16
  vector : BitVec 16
  descTable : Nat
  availRing : Nat
  usedRing : Nat
  nextAvail : BitVec 16
  nextUsed : BitVec 16
  features : BitVec 64
  lastUsed : BitVec 16
  size_pow : isPowerOfTwo size = true
  rings_fit : ∀ r ∈ ringSizes size descTable availRing usedRing, r.start + r.len < u64Size

structure VirtqUsedElem where
  id : BitVec 32
  len : BitVec 32

instance : IntoBytes VirtqUsedElem where
  asBytes e := leBytes32 e.id ++ leBytes32 e.len

namespace SplitQueue

def new (config : QueueConfig) (mem : GuestMemory) (interrupt : Interrupt) :
    Except QueueError SplitQueue :=
  if hsize : isPowerOfTwo config.size = false then .error (.notPowerOfTwo config.size)
  else
    let rings := ringSizes config.size config.descTable config.availRing config.usedRing
    match hrings : rings.find? fun r => (checkedAdd r.start r.len).isNone with
    | some ring => .error (.outOfBounds ring)
    | none => .ok
      { mem
        interrupt
        size := config.size
        vector := config.vector
        descTable := config.descTable
        availRing := config.availRing
        usedRing := config.usedRing
        nextAvail := config.nextAvail
        nextUsed := config.nextUsed
        features := config.ackedFeatures
        lastUsed := 0#16
        size_pow := by simpa using hsize
        rings_fit := by
          intro r hr
          have hsome := List.find?_eq_none.mp hrings r hr
          rw [Option.isNone_iff_eq_none, checkedAdd_eq_none] at hsome
          exact Nat.lt_of_not_le hsome }

section
variable (q : SplitQueue)

def wrapQueueIndex (index : BitVec 16) : BitVec 16 := index &&& (q.size - 1#16)

def getAvailIndex : Traced Access Empty (BitVec 16) := do
  match ← (q.mem.readObjFromAddrVolatile (BitVec 16) (wrappingAdd q.availRing 2)).attempt with
  | .ok availIndex => pure availIndex
  | .error _ => pure q.nextAvail

def setAvailEvent (availIndex : BitVec 16) : Traced Access Empty SplitQueue := do
  let availEventAddr := wrappingAdd q.usedRing (4 + 8 * q.size.toNat)
  match ← (q.mem.writeObjAtAddrVolatile availIndex availEventAddr).attempt with
  | .ok mem => pure { q with mem }
  | .error _ => pure q

def getAvailFlag (flag : BitVec 16) : Traced Access Empty Bool := do
  match ← (q.mem.readObjFromAddrVolatile (BitVec 16) q.availRing).attempt with
  | .ok availFlags => pure (availFlags &&& flag = flag)
  | .error _ => pure false

def getUsedEvent : Traced Access Empty (BitVec 16) := do
  let usedEventAddr := wrappingAdd q.availRing (4 + 2 * q.size.toNat)
  match ← (q.mem.readObjFromAddrVolatile (BitVec 16) usedEventAddr).attempt with
  | .ok usedEvent => pure usedEvent
  | .error _ => pure 0#16

def setUsedIndex (usedIndex : BitVec 16) : Traced Access Empty SplitQueue := do
  match ← (q.mem.writeObjAtAddrVolatile usedIndex (wrappingAdd q.usedRing 2)).attempt with
  | .ok mem => pure { q with mem }
  | .error _ => pure q

def peek : Traced Access Empty (Option DescriptorChain) := do
  let availIndex ← q.getAvailIndex
  if q.nextAvail = availIndex then pure none
  else
    match checkedAdd q.availRing (4 + (q.wrapQueueIndex q.nextAvail).toNat * 2) with
    | none => pure none
    | some descIdxAddr =>
      match ← (q.mem.readObjFromAddrVolatile (BitVec 16) descIdxAddr).attempt with
      | .error _ => pure none
      | .ok descriptorIndex =>
        let chain := SplitDescriptorChain.new q.mem q.descTable q.size descriptorIndex
        match ← (DescriptorChain.new chain q.mem descriptorIndex).attempt with
        | .ok descriptorChain => pure (some descriptorChain)
        | .error _ => pure none

def usesEventIdx : Bool := q.features &&& (1#64 <<< virtioRingFEventIdx) ≠ 0#64

def popPeeked (_descriptorChain : DescriptorChain) : Traced Access Empty SplitQueue :=
  let q := { q with nextAvail := q.nextAvail + 1#16 }
  if q.usesEventIdx then q.setAvailEvent q.nextAvail else pure q

def addUsed (descChain : DescriptorChain) (len : BitVec 32) : Traced Access Empty SplitQueue :=
  -- an assertion of debug builds
  if q.size ≤ descChain.index then lift .panic
  else do
    let usedElem := wrappingAdd q.usedRing (4 + (q.wrapQueueIndex q.nextUsed).toNat * 8)
    let elem : VirtqUsedElem := ⟨descChain.index.setWidth 32, len⟩
    match ← (q.mem.writeObjAtAddrVolatile elem usedElem).attempt with
    | .error _ => pure q
    | .ok mem =>
      let q := { q with mem, nextUsed := q.nextUsed + 1#16 }
      q.setUsedIndex q.nextUsed

def queueWantsInterrupt : Traced Access Empty Bool := do
  if q.usesEventIdx then
    let usedEvent ← q.getUsedEvent
    pure (q.nextUsed - usedEvent - 1#16 < q.nextUsed - q.lastUsed)
  else
    let noInterrupt ← q.getAvailFlag virtqAvailFNoInterrupt
    pure !noInterrupt

/-- `evtOk` is the answer to the write to the event of the interrupt. -/
def triggerInterrupt (evtOk : Bool) : Traced Access Empty (SplitQueue × Bool) := do
  if ← q.queueWantsInterrupt then
    let q := { q with lastUsed := q.nextUsed }
    let interrupt ← lift (q.interrupt.signalUsedQueue q.vector evtOk)
    pure ({ q with interrupt }, true)
  else pure (q, false)

def rings : List Ring := ringSizes q.size q.descTable q.availRing q.usedRing

end

/-- What an accepted configuration turns into. -/
lemma new_eq_ok {config : QueueConfig} {mem : GuestMemory} {interrupt : Interrupt}
    {q : SplitQueue} (h : new config mem interrupt = .ok q) :
    q.rings = ringSizes config.size config.descTable config.availRing config.usedRing := by
  unfold new at h
  split at h
  · cases h
  dsimp only at h
  split at h
  · cases h
  · cases h
    rfl

/-! ## What the operations leave behind -/

variable {q q' : SplitQueue} {chain : DescriptorChain}

lemma setAvailEvent_eq_ok {availIndex : BitVec 16}
    (h : (q.setAvailEvent availIndex).value = .ok q') : ∃ mem, q' = { q with mem } := by
  unfold setAvailEvent at h
  obtain ⟨r, _, h⟩ := bind_value_eq_ok.mp h
  cases r <;> cases h <;> exact ⟨_, rfl⟩

lemma setUsedIndex_eq_ok {usedIndex : BitVec 16}
    (h : (q.setUsedIndex usedIndex).value = .ok q') : ∃ mem, q' = { q with mem } := by
  unfold setUsedIndex at h
  obtain ⟨r, _, h⟩ := bind_value_eq_ok.mp h
  cases r <;> cases h <;> exact ⟨_, rfl⟩

lemma popPeeked_eq_ok (h : (q.popPeeked chain).value = .ok q') :
    ∃ mem, q' = { q with mem, nextAvail := q.nextAvail + 1#16 } := by
  unfold popPeeked at h
  dsimp only at h
  split at h
  · exact setAvailEvent_eq_ok h
  · cases h
    exact ⟨q.mem, rfl⟩

/-- An element that could not be written is not counted. -/
lemma addUsed_eq_ok {len : BitVec 32} (h : (q.addUsed chain len).value = .ok q') :
    q' = q ∨ ∃ mem, q' = { q with mem, nextUsed := q.nextUsed + 1#16 } := by
  unfold addUsed at h
  split at h
  · cases h
  obtain ⟨r, _, h⟩ := bind_value_eq_ok.mp h
  cases r with
  | error e =>
    cases h
    exact .inl rfl
  | ok mem =>
    obtain ⟨mem', rfl⟩ := setUsedIndex_eq_ok h
    exact .inr ⟨mem', rfl⟩

lemma triggerInterrupt_value {evtOk wants : Bool}
    (h : q.queueWantsInterrupt.value = .ok wants) :
    (q.triggerInterrupt evtOk).value =
      if wants then q.interrupt.signalUsedQueue q.vector evtOk >>= fun interrupt =>
        .ok ({ q with lastUsed := q.nextUsed, interrupt }, true)
      else .ok (q, false) := by
  unfold triggerInterrupt
  rw [value_bind, h, Outcome.ok_bind]
  cases wants with
  | false => rfl
  | true =>
    simp [value_bind]

lemma triggerInterrupt_eq_ok {evtOk sent : Bool}
    (h : (q.triggerInterrupt evtOk).value = .ok (q', sent)) :
    q.queueWantsInterrupt.value = .ok sent ∧
      ((sent = false ∧ q' = q) ∨
        (sent = true ∧ ∃ interrupt, q' = { q with lastUsed := q.nextUsed, interrupt })) := by
  obtain ⟨wants, hw, _⟩ := bind_value_eq_ok.mp h
  rw [triggerInterrupt_value hw] at h
  cases wants with
  | false =>
    cases h
    exact ⟨hw, .inl ⟨rfl, rfl⟩⟩
  | true =>
    obtain ⟨interrupt, _, h⟩ := Outcome.bind_eq_ok.mp h
    cases h
    exact ⟨hw, .inr ⟨rfl, interrupt, rfl⟩⟩

end SplitQueue

end GunyahVmm.Virtio
