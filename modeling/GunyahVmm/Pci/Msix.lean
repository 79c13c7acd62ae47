import GunyahVmm.Lib.Run
import Mathlib.Data.BitVec

/-! The MSI-X table of a PCI device, for raising a vector. The guest owns masks and vectors. -/

namespace GunyahVmm.Pci
open Run

def maxMsixVectorsPerDevice : Nat := 2048

def bitsPerPbaEntry : Nat := 64

def msixTableEntryMaskBit : BitVec 32 := 0x1

structure MsixTableEntry where
  vectorCtl : BitVec 32

def MsixTableEntry.masked (e : MsixTableEntry) : Bool :=
  e.vectorCtl &&& msixTableEntryMaskBit = msixTableEntryMaskBit

/-- The table, the pending bits and, for the vectors in use, the GSI of the interrupt. -/
structure MsixConfig where
  tableEntries : List MsixTableEntry
  pbaEntries : List (BitVec 64)
  irqVec : List (Option Nat)
  masked : Bool
  enabled : Bool
  table_le : tableEntries.length ≤ maxMsixVectorsPerDevice
  pba_length : pbaEntries.length = (tableEntries.length + (bitsPerPbaEntry - 1)) / bitsPerPbaEntry

namespace MsixConfig
section
variable (m : MsixConfig) (vector : BitVec 16)

def setPbaBit (set : Bool) : Outcome Empty MsixConfig :=
  if maxMsixVectorsPerDevice ≤ vector.toNat then .panic
  else
    let index := vector.toNat / bitsPerPbaEntry
    let mask : BitVec 64 := 1#64 <<< (vector.toNat % bitsPerPbaEntry)
    match m.pbaEntries[index]? with
    | none => .panic
    | some entry =>
      let entry := if set then entry ||| mask else entry &&& ~~~mask
      .ok { m with
        pbaEntries := m.pbaEntries.set index entry
        pba_length := by rw [List.length_set]; exact m.pba_length }

/-- Raise a vector. `evtOk` is the answer to the write to the event of the interrupt. -/
def trigger (evtOk : Bool) : Outcome Empty MsixConfig :=
  match m.tableEntries[vector.toNat]? with
  | none => .panic
  | some entry =>
    if entry.masked || m.masked then m.setPbaBit vector true
    else
      match (m.irqVec[vector.toNat]?).getD none with
      | some _ => if evtOk then .ok m else .panic
      | none => .ok m

def raisesEvent : Bool :=
  match m.tableEntries[vector.toNat]? with
  | none => false
  | some entry =>
    !(entry.masked || m.masked) && ((m.irqVec[vector.toNat]?).getD none).isSome

end

lemma setPbaBit_ne_panic {m : MsixConfig} {vector : BitVec 16} {set : Bool}
    (h : vector.toNat < m.tableEntries.length) : m.setPbaBit vector set ≠ .panic := by
  have ht := m.table_le
  have hp := m.pba_length
  have hi : vector.toNat / bitsPerPbaEntry < m.pbaEntries.length := by
    rw [hp]
    simp only [bitsPerPbaEntry]
    omega
  unfold setPbaBit
  rw [if_neg (by omega)]
  dsimp only
  rw [List.getElem?_eq_getElem hi]
  simp

/-- **Raising a vector** aborts exactly if it is not in the table or the event cannot be written. -/
lemma trigger_eq_panic_iff {m : MsixConfig} {vector : BitVec 16} {evtOk : Bool} :
    m.trigger vector evtOk = .panic ↔
      m.tableEntries.length ≤ vector.toNat ∨ (m.raisesEvent vector = true ∧ evtOk = false) := by
  unfold trigger raisesEvent
  cases hent : m.tableEntries[vector.toNat]? with
  | none => simpa using List.getElem?_eq_none_iff.mp hent
  | some entry =>
    obtain ⟨hlt, _⟩ := List.getElem?_eq_some_iff.mp hent
    have hle : ¬ m.tableEntries.length ≤ vector.toNat := Nat.not_le.mpr hlt
    cases hm : entry.masked || m.masked with
    | true => simpa [hm, hle] using setPbaBit_ne_panic hlt
    | false =>
      cases hi : (m.irqVec[vector.toNat]?).getD none with
      | none => simp [hm, hle]
      | some gsi => cases evtOk <;> simp [hm, hle]

end MsixConfig

end GunyahVmm.Pci
