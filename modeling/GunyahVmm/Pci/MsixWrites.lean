import GunyahVmm.Lib.Bytes
import GunyahVmm.Pci.Msix

/-! The guest writes to the message control word and the vector table. A vector gets its event when
first seen enabled and unmasked; what was raised under a mask is injected later. -/

namespace GunyahVmm.Pci
open Run

def functionMaskBit : BitVec 16 := 0x4000

def msixEnableBit : BitVec 16 := 0x8000

def msixTableEntriesModulo : Nat := 16

/-- The message of a table entry, beside its vector control word. -/
structure MsixMessage where
  msgAddrLo : BitVec 32
  msgAddrHi : BitVec 32
  msgData : BitVec 32

structure MsixDevice where
  config : MsixConfig
  messages : List MsixMessage

/-- The answers of the irq handler: the GSI of a new interrupt, and whether a route is taken. -/
structure MsiSocket where
  allocateOneMsi : Nat → Option Nat
  addMsiRoute : Nat → Bool

inductive MsixStatus where
  | changed
  | entryChanged (index : Nat)
  | nothingToDo

namespace MsixConfig

def tableMasked (m : MsixConfig) (index : Nat) : Bool :=
  match m.tableEntries[index]? with
  | none => true
  | some entry => entry.masked

def getPbaBit (m : MsixConfig) (vector : BitVec 16) : Outcome Empty Bool :=
  if maxMsixVectorsPerDevice ≤ vector.toNat then .panic
  else
    match m.pbaEntries[vector.toNat / bitsPerPbaEntry]? with
    | none => .panic
    | some entry => .ok (entry >>> (vector.toNat % bitsPerPbaEntry) &&& 1#64 == 1#64)

def setEntry (m : MsixConfig) (index : Nat) (entry : MsixTableEntry) : MsixConfig :=
  { m with
    tableEntries := m.tableEntries.set index entry
    table_le := by rw [List.length_set]; exact m.table_le
    pba_length := by rw [List.length_set]; exact m.pba_length }

end MsixConfig

namespace MsixDevice

def new (msixVectors : Nat) (h : msixVectors ≤ maxMsixVectorsPerDevice) : MsixDevice where
  config :=
    { tableEntries := List.replicate msixVectors ⟨msixTableEntryMaskBit⟩
      pbaEntries := List.replicate ((msixVectors + (bitsPerPbaEntry - 1)) / bitsPerPbaEntry) 0
      irqVec := List.replicate msixVectors none
      masked := false
      enabled := false
      table_le := by rw [List.length_replicate]; exact h
      pba_length := by rw [List.length_replicate, List.length_replicate] }
  messages := List.replicate msixVectors ⟨0, 0, 0⟩

/-- Signal the event of a vector, if it has one, and clear its pending bit. -/
def injectMsixAndClearPba (d : MsixDevice) (vector : Nat) : Outcome Empty (MsixDevice × List Nat) :=
  match d.config.irqVec[vector]? with
  | none => .panic
  | some irq => do
    let config ← d.config.setPbaBit (BitVec.ofNat 16 vector) false
    .ok ({ d with config := config }, if irq.isSome then [vector] else [])

/-- The route of a vector; an entry without an address needs none. -/
def addMsiRoute (d : MsixDevice) (socket : MsiSocket) (index : Nat) : Bool :=
  match d.messages[index]? with
  | none => true
  | some message =>
    if message.msgAddrHi = 0 ∧ message.msgAddrLo = 0 then true else socket.addMsiRoute index

/-- Give a vector its event; the flag is whether all requests succeeded. -/
def msixEnableOne (d : MsixDevice) (socket : MsiSocket) (index : Nat) :
    Outcome Empty (MsixDevice × Bool) :=
  match d.config.irqVec[index]? with
  | none => .panic
  | some irq =>
    if irq.isSome || !d.config.enabled || d.config.masked || d.config.tableMasked index then
      .ok (d, true)
    else
      match socket.allocateOneMsi index with
      | none => .ok (d, false)
      | some gsi =>
        let d := { d with
          config := { d.config with irqVec := d.config.irqVec.set index (some gsi) } }
        .ok (d, d.addMsiRoute socket index)

/-- The loop over the vectors, up to the first that fails. -/
def msixEnableEach (socket : MsiSocket) : List Nat → MsixDevice → Outcome Empty (MsixDevice × Bool)
  | [], d => .ok (d, true)
  | index :: indices, d => do
    let enabled ← d.msixEnableOne socket index
    if enabled.2 then msixEnableEach socket indices enabled.1 else .ok (enabled.1, false)

def msixEnableAll (d : MsixDevice) (socket : MsiSocket) : Outcome Empty (MsixDevice × Bool) :=
  msixEnableEach socket (List.range d.config.irqVec.length) d

/-- The loop over the table, from `index` on, once the function mask is gone. -/
def injectPending : Nat → List MsixTableEntry → MsixDevice → Outcome Empty (MsixDevice × List Nat)
  | _, [], d => .ok (d, [])
  | index, entry :: entries, d =>
    if entry.masked then injectPending (index + 1) entries d
    else do
      let pending ← d.config.getPbaBit (BitVec.ofNat 16 index)
      if pending then do
        let injected ← d.injectMsixAndClearPba index
        let rest ← injectPending (index + 1) entries injected.1
        .ok (rest.1, injected.2 ++ rest.2)
      else injectPending (index + 1) entries d

/-- A write to the message control word: two bits, and events if MSI-X was switched on. -/
def applyControl (d : MsixDevice) (socket : MsiSocket) (reg : BitVec 16) :
    Outcome Empty MsixDevice :=
  let oldEnabled := d.config.enabled
  let d := { d with
    config := { d.config with
      masked := reg &&& functionMaskBit == functionMaskBit
      enabled := reg &&& msixEnableBit == msixEnableBit } }
  if !oldEnabled && d.config.enabled then do
    let enabled ← d.msixEnableAll socket
    if enabled.2 then .ok enabled.1
    else .ok { enabled.1 with config := { enabled.1.config with enabled := false } }
  else .ok d

/-- A write to the capability. The result has the vectors whose events were signalled. -/
def writeMsixCapability (d : MsixDevice) (socket : MsiSocket) (offset : Nat)
    (data : List (BitVec 8)) : Outcome Empty (MsixDevice × List Nat × MsixStatus) :=
  if offset = 2 ∧ data.length = 2 then do
    let oldMasked := d.config.masked
    let d ← d.applyControl socket (le16 (data.getD · 0) 0)
    if oldMasked && !d.config.masked then do
      let injected ← injectPending 0 d.config.tableEntries d
      .ok (injected.1, injected.2, .changed)
    else if !oldMasked && d.config.masked then .ok (d, [], .changed)
    else .ok (d, [], .nothingToDo)
  else .ok (d, [], .nothingToDo)

/-- The entry after a write of `data` at an offset within it; other accesses change nothing. -/
def writtenEntry (entry : MsixTableEntry) (message : MsixMessage) (moduloOffset : Nat)
    (data : List (BitVec 8)) : MsixTableEntry × MsixMessage :=
  let low := le32 (data.getD · 0) 0
  let high := le32 (data.getD · 0) 4
  match data.length, moduloOffset with
  | 4, 0x0 => (entry, { message with msgAddrLo := low })
  | 4, 0x4 => (entry, { message with msgAddrHi := low })
  | 4, 0x8 => (entry, { message with msgData := low })
  | 4, 0xc => (⟨low⟩, message)
  | 8, 0x0 => (entry, { message with msgAddrLo := low, msgAddrHi := high })
  | 8, 0x8 => (⟨high⟩, { message with msgData := low })
  | _, _ => (entry, message)

/-- What follows the update of entry `index`, whose vector control word was `old`. -/
def entryWritten (d : MsixDevice) (socket : MsiSocket) (index : Nat) (old new : MsixTableEntry) :
    Outcome Empty (MsixDevice × List Nat × MsixStatus) :=
  match d.config.irqVec[index]? with
  | none => .panic
  | some irq =>
    if d.config.enabled && !d.config.masked && irq.isNone && old.masked && !new.masked then do
      -- The vector is enabled for the first time.
      let enabled ← d.msixEnableOne socket index
      if enabled.2 then .ok (enabled.1, [], .entryChanged index)
      else
        .ok ({ enabled.1 with
          config := enabled.1.config.setEntry index ⟨new.vectorCtl ||| msixTableEntryMaskBit⟩ },
          [], .entryChanged index)
    else if d.config.masked then .ok (d, [], .nothingToDo)
    else if old.masked && !new.masked then do
      let pending ← d.config.getPbaBit (BitVec.ofNat 16 index)
      if pending then do
        let injected ← d.injectMsixAndClearPba index
        .ok (injected.1, injected.2, .entryChanged index)
      else .ok (d, [], .entryChanged index)
    else if !old.masked && new.masked then .ok (d, [], .entryChanged index)
    else .ok (d, [], .nothingToDo)

/-- A write to the table. A changed message in use is routed anew; a failure is only logged. -/
def writeMsixTable (d : MsixDevice) (socket : MsiSocket) (offset : Nat)
    (data : List (BitVec 8)) : Outcome Empty (MsixDevice × List Nat × MsixStatus) :=
  let index := offset / msixTableEntriesModulo
  match d.config.tableEntries[index]?, d.messages[index]? with
  | some entry, some message =>
    let new := writtenEntry entry message (offset % msixTableEntriesModulo) data
    entryWritten
      { config := d.config.setEntry index new.1, messages := d.messages.set index new.2 }
      socket index entry new.1
  | _, _ => .ok (d, [], .nothingToDo)

end MsixDevice

/-! ## Runs -/

/-- A write of the guest, with the answers of the irq handler, or a vector raised by the device. -/
inductive MsixAction where
  | writeCapability (socket : MsiSocket) (offset : Nat) (data : List (BitVec 8))
  | writeTable (socket : MsiSocket) (offset : Nat) (data : List (BitVec 8))
  | trigger (vector : BitVec 16)

/-- One action and the vectors whose events it signals. Writing to an event succeeds. -/
def MsixDevice.step (d : MsixDevice) : MsixAction → Outcome Empty (MsixDevice × List Nat)
  | .writeCapability socket offset data => do
    let written ← d.writeMsixCapability socket offset data
    .ok (written.1, written.2.1)
  | .writeTable socket offset data => do
    let written ← d.writeMsixTable socket offset data
    .ok (written.1, written.2.1)
  | .trigger vector => do
    let config ← d.config.trigger vector true
    .ok ({ d with config := config },
      if d.config.raisesEvent vector then [vector.toNat] else [])

structure MsixEntry where
  before : MsixDevice
  action : MsixAction
  signals : List Nat
  after : MsixDevice

def MsixDevice.execute (d : MsixDevice) : List MsixAction → Outcome Empty (List MsixEntry)
  | [] => .ok []
  | action :: actions => do
    let next ← d.step action
    let entries ← next.1.execute actions
    .ok (⟨d, action, next.2, next.1⟩ :: entries)

end GunyahVmm.Pci
