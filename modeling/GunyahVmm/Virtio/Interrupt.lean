import GunyahVmm.Pci.Msix

/-! The interrupt of a virtio device: an MSI-X vector, a level interrupt or a vhost-user event, kept
while the device is suspended. -/

namespace GunyahVmm.Virtio
open Run Pci

def virtioMsiNoVector : BitVec 16 := 0xffff

def interruptStatusUsedRing : BitVec 32 := 0x1

structure PmState where
  suspended : Bool
  pendingSignals : List (BitVec 16 × BitVec 32)

inductive Transport where
  | pci (msixConfig : Option MsixConfig)
  | vhostUser

structure Interrupt where
  interruptStatus : BitVec 64
  transport : Transport
  asyncIntrStatus : Bool
  pmState : PmState

namespace PmState

def handleInterrupt (s : PmState) (vector : BitVec 16) (mask : BitVec 32) : PmState × Bool :=
  if s.suspended then
    ({ s with pendingSignals := s.pendingSignals ++ [(vector, mask)] }, true)
  else (s, false)

end PmState

namespace Interrupt

/-- Add to the interrupt status; whether the interrupt has to be raised now. -/
def updateInterruptStatus (i : Interrupt) (mask : BitVec 32) : Interrupt × Bool :=
  ({ i with interruptStatus := i.interruptStatus ||| mask.setWidth 64 },
    i.interruptStatus = 0#64 || i.asyncIntrStatus)

def signalLevel (i : Interrupt) (mask : BitVec 32) (evtOk : Bool) : Outcome Empty Interrupt :=
  let (i, trigger) := i.updateInterruptStatus mask
  if trigger then if evtOk then .ok i else .panic else .ok i

def signal (i : Interrupt) (vector : BitVec 16) (mask : BitVec 32) (evtOk : Bool) :
    Outcome Empty Interrupt :=
  match i.pmState.handleInterrupt vector mask with
  | (pmState, true) => .ok { i with pmState }
  | (_, false) =>
    match i.transport with
    | .pci (some msixConfig) =>
      if msixConfig.enabled then
        if vector ≠ virtioMsiNoVector then do
          let msixConfig ← msixConfig.trigger vector evtOk
          .ok { i with transport := .pci (some msixConfig) }
        else .ok i
      else i.signalLevel mask evtOk
    | .pci none => i.signalLevel mask evtOk
    | .vhostUser => if evtOk then .ok i else .panic

def signalUsedQueue (i : Interrupt) (vector : BitVec 16) (evtOk : Bool) : Outcome Empty Interrupt :=
  i.signal vector interruptStatusUsedRing evtOk

/-! ## When the interrupt goes out -/

def usedTable (i : Interrupt) (vector : BitVec 16) : Option MsixConfig :=
  match i.pmState.suspended, i.transport with
  | false, .pci (some m) => if m.enabled ∧ vector ≠ virtioMsiNoVector then some m else none
  | _, _ => none

def writesEvent (i : Interrupt) (vector : BitVec 16) : Bool :=
  match i.pmState.suspended, i.transport with
  | true, _ => false
  | false, .pci (some m) =>
    if m.enabled then vector ≠ virtioMsiNoVector && m.raisesEvent vector
    else i.interruptStatus = 0#64 || i.asyncIntrStatus
  | false, .pci none => i.interruptStatus = 0#64 || i.asyncIntrStatus
  | false, .vhostUser => true

/-- The vector is one of the table, and the event, if one is written, takes the write. -/
def Deliverable (i : Interrupt) (vector : BitVec 16) (evtOk : Bool) : Prop :=
  (∀ m, i.usedTable vector = some m → vector.toNat < m.tableEntries.length) ∧
    (i.writesEvent vector = true → evtOk = true)

variable {i : Interrupt} {evtOk : Bool} {mask : BitVec 32} {vector : BitVec 16}

lemma signalLevel_ne_panic_iff :
    i.signalLevel mask evtOk ≠ .panic ↔
      ((i.interruptStatus = 0#64 || i.asyncIntrStatus) = true → evtOk = true) := by
  unfold signalLevel updateInterruptStatus
  generalize (i.interruptStatus = 0#64 || i.asyncIntrStatus : Bool) = trigger
  cases trigger <;> cases evtOk <;> simp

/-- **Signalling** aborts exactly when the interrupt is not deliverable. -/
lemma signal_ne_panic_iff : i.signal vector mask evtOk ≠ .panic ↔ i.Deliverable vector evtOk := by
  unfold signal PmState.handleInterrupt Deliverable usedTable writesEvent
  cases hs : i.pmState.suspended with
  | true => simp
  | false =>
    cases htr : i.transport with
    | vhostUser => cases evtOk <;> simp
    | pci msixConfig =>
      cases msixConfig with
      | none => simpa using signalLevel_ne_panic_iff
      | some m =>
        cases hen : m.enabled with
        | false => simpa [hen] using signalLevel_ne_panic_iff
        | true =>
          by_cases hv : vector = virtioMsiNoVector
          · simp [hv, hen]
          have ht : m.trigger vector evtOk ≠ .panic ↔ vector.toNat < m.tableEntries.length ∧
              (m.raisesEvent vector = true → evtOk = true) := by
            rw [ne_eq, MsixConfig.trigger_eq_panic_iff, not_or, not_and, Nat.not_le,
              Bool.not_eq_false]
          simp only [hen, hv, Bool.false_eq_true, ↓reduceIte, ne_eq, not_false_eq_true,
            decide_true, Bool.true_and, Option.some.injEq, forall_eq', and_self]
          rw [← ht]
          cases m.trigger vector evtOk <;> simp

lemma signalUsedQueue_eq_panic_iff :
    i.signalUsedQueue vector evtOk = .panic ↔ ¬ i.Deliverable vector evtOk := by
  rw [← signal_ne_panic_iff, not_not]
  rfl

end Interrupt

end GunyahVmm.Virtio
