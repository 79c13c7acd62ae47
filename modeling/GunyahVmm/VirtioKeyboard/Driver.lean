import GunyahVmm.Lib.Bytes
import GunyahVmm.Lib.Run

/-! The virtio keyboard driver. The device may change ring and buffers at any time, so each read is
answered from outside (`UsedView`). An access outside an array aborts. -/

namespace GunyahVmm.VirtioKeyboard
open Run

def keyboardRxBufsize : Nat := 64

def maxKeyboardCode : Nat := 255

def vringDescFWrite : BitVec 16 := 2

/-! ## Rings -/

structure VringDesc where
  addr : BitVec 64
  len : BitVec 32
  flags : BitVec 16

structure DescIndices where
  headDescIdx : BitVec 16
  nextDescIdx : BitVec 16

/-- `VirtioPrepare` and `VirtioAppendDesc`, which come with the firmware: they set the indices and
write into the table of descriptors. -/
structure VirtioLib where
  prepare (queueSize : BitVec 16) : DescIndices
  appendDesc (queueSize : BitVec 16) (table : List VringDesc) (desc : VringDesc)
    (indices : DescIndices) : List VringDesc × DescIndices
  appendDesc_length (queueSize : BitVec 16) (table : List VringDesc) (desc : VringDesc)
    (indices : DescIndices) : (appendDesc queueSize table desc indices).1.length = table.length

/-- One ring and its buffers. The fields behind `ready` are what the initialization establishes. -/
structure VirtioKbdRing where
  queueSize : BitVec 16
  desc : List VringDesc
  availRing : List (BitVec 16)
  availIdx : BitVec 16
  indices : DescIndices
  lastUsedIdx : BitVec 16
  bufferSize : BitVec 32
  bufferCount : BitVec 32
  deviceAddress : BitVec 64
  ready : Bool
  desc_length : desc.length = queueSize.toNat
  availRing_length : availRing.length = queueSize.toNat
  bufferCount_eq : bufferCount.toNat = queueSize.toNat
  bufferSize_le : bufferSize.toNat ≤ keyboardRxBufsize
  queueSize_pos : ready = true → 0 < queueSize.toNat

/-- What the device lets one round of the loop read, the length of the element before each later
read included. -/
structure UsedView where
  usedIdx : BitVec 16
  len : BitVec 32
  id : BitVec 32
  lenAtCopy : BitVec 32 → BitVec 32
  bytes : Nat → BitVec 8
  lenAtReport : BitVec 32 → BitVec 32

namespace VirtioKbdRing
section
variable (ring : VirtioKbdRing) (lib : VirtioLib)

def capacity : Nat := ring.bufferCount.toNat * ring.bufferSize.toNat

/-- The offset of a buffer: the product is taken in 32 bits. -/
def bufferOffset (bufferNr : BitVec 32) : Nat := (ring.bufferSize * bufferNr).toNat

def bufferAddr (bufferNr : BitVec 32) : BitVec 64 :=
  ring.deviceAddress + (ring.bufferSize * bufferNr).setWidth 64

def bufferNext : BitVec 32 := (ring.indices.nextDescIdx % ring.queueSize).setWidth 32

/-- Hand the next buffer to the device. `written` is the data for it, if there is any. -/
def sendBuffer (written : Option (List (BitVec 8))) (dataSize : BitVec 32) :
    Outcome Empty VirtioKbdRing :=
  let bufferNr := ring.bufferNext
  let flags := if written.isSome then 0 else vringDescFWrite
  if ring.queueSize = 0 then .panic
  else if ring.bufferSize < dataSize then .panic
  else if written.isSome && ring.capacity < ring.bufferOffset bufferNr + dataSize.toNat then .panic
  else
    let appended := lib.appendDesc ring.queueSize ring.desc
      ⟨ring.bufferAddr bufferNr, dataSize, flags⟩ ring.indices
    .ok { ring with
      desc := appended.1
      availRing := ring.availRing.set (ring.availIdx % ring.queueSize).toNat
        (appended.2.headDescIdx % ring.queueSize)
      availIdx := ring.availIdx + 1
      indices := ⟨appended.2.nextDescIdx, appended.2.nextDescIdx⟩
      desc_length := by rw [lib.appendDesc_length, ring.desc_length]
      availRing_length := by rw [List.length_set, ring.availRing_length] }

def copyOut (offset len : Nat) (bytes data : Nat → BitVec 8) : Outcome Empty (Nat → BitVec 8) :=
  if ring.capacity < offset + len then .panic
  else if keyboardRxBufsize + 1 < len then .panic
  else .ok fun i => if i < len then bytes (offset + i) else data i

/-- The length that the driver leaves in the element: an oversized one is cleared. -/
def clampedLen (len : BitVec 32) : BitVec 32 := if ring.bufferSize < len then 0 else len

/-- Take a returned buffer, if there is one. The rings with an even index are re-queued. -/
def getBuffer (index : Nat) (data : Nat → BitVec 8) (view : UsedView) :
    Outcome Empty (VirtioKbdRing × Option ((Nat → BitVec 8) × BitVec 32)) :=
  if !ring.ready then .ok (ring, none)
  else if ring.lastUsedIdx = view.usedIdx then .ok (ring, none)
  else if ring.queueSize = 0 then .panic
  else do
    let copied := view.lenAtCopy (ring.clampedLen view.len)
    let data ← ring.copyOut (ring.bufferOffset view.id) copied.toNat view.bytes data
    let ring ← if index % 2 = 0 then ring.sendBuffer lib none ring.bufferSize else .ok ring
    .ok ({ ring with lastUsedIdx := ring.lastUsedIdx + 1 }, some (data, view.lenAtReport copied))

end

end VirtioKbdRing

section
variable (lib : VirtioLib)

def initRing (queueSize : BitVec 16) (deviceAddress : BitVec 64) (h : 0 < queueSize.toNat) :
    VirtioKbdRing where
  queueSize := queueSize
  desc := List.replicate queueSize.toNat ⟨0, 0, 0⟩
  availRing := List.replicate queueSize.toNat 0
  availIdx := 0
  indices := lib.prepare queueSize
  lastUsedIdx := 0
  bufferSize := BitVec.ofNat 32 keyboardRxBufsize
  bufferCount := queueSize.setWidth 32
  deviceAddress := deviceAddress
  ready := true
  desc_length := List.length_replicate
  availRing_length := List.length_replicate
  bufferCount_eq := by
    rw [BitVec.toNat_setWidth]
    omega
  bufferSize_le := Nat.le_refl _
  queueSize_pos := fun _ => h

def ringFillRx (ring : VirtioKbdRing) : Outcome Empty VirtioKbdRing :=
  (List.range ring.bufferCount.toNat).foldlM (fun r _ => r.sendBuffer lib none r.bufferSize) ring

end

/-! ## Key codes -/

structure EfiInputKey where
  scanCode : BitVec 16
  unicodeChar : BitVec 16

def keyEsc : Nat := 1
def keyBackspace : Nat := 14
def keyTab : Nat := 15
def keyEnter : Nat := 28
def keyLeftctrl : Nat := 29
def keyLeftshift : Nat := 42
def keyRightshift : Nat := 54
def keyF1 : Nat := 59
def keyF10 : Nat := 68
def keyRightctrl : Nat := 97

def scanCodes : List (Nat × BitVec 16) :=
  [(104, 0x09), (109, 0x0A), (102, 0x05), (107, 0x06), (111, 0x08), (110, 0x07), (103, 0x01),
    (105, 0x04), (106, 0x03), (108, 0x02), (keyEsc, 0x17)]

def controlChars : List (Nat × BitVec 16) :=
  [(keyBackspace, 0x08), (keyTab, 0x09), (keyEnter, 0x0D)]

/-- The printable keys, in runs of consecutive codes. -/
def keyMap : List (Nat × String) :=
  [(2, "1234567890"), (12, "-="), (16, "qwertyuiop"), (26, "[]"), (30, "asdfghjkl"),
    (39, ";'`"), (43, "\\"), (44, "zxcvbnm"), (51, ",./"), (57, " ")]

def keyMapShift : List (Nat × String) :=
  [(2, "!@#$%^&*()"), (12, "_+"), (16, "QWERTYUIOP"), (26, "\x7b\x7d"), (30, "ASDFGHJKL"),
    (39, ":\"~"), (43, "|"), (44, "ZXCVBNM"), (51, "<>?"), (57, " ")]

/-- The entry of a map; the codes outside its runs have a zero. -/
def mapEntry (map : List (Nat × String)) (code : Nat) : BitVec 16 :=
  match map.findSome? fun run => if run.1 ≤ code then run.2.toList[code - run.1]? else none with
  | some c => BitVec.ofNat 16 c.toNat
  | none => 0

/-! ## The driver -/

structure VirtioKbdDev where
  ring : VirtioKbdRing
  lastKey : EfiInputKey
  keyActive : List Bool
  keyReady : Bool
  keyActive_length : keyActive.length = maxKeyboardCode

namespace VirtioKbdDev

def active (dev : VirtioKbdDev) (code : Nat) : Bool := dev.keyActive.getD code false

def convertKeyCode (dev : VirtioKbdDev) (code : BitVec 16) : EfiInputKey :=
  if maxKeyboardCode ≤ code.toNat then ⟨0, 0⟩
  else if keyF1 ≤ code.toNat ∧ code.toNat ≤ keyF10 then
    ⟨0x0B + (code - BitVec.ofNat 16 keyF1), 0⟩
  else
    match scanCodes.lookup code.toNat with
    | some scan => ⟨scan, 0⟩
    | none =>
      match controlChars.lookup code.toNat with
      | some c => ⟨0, c⟩
      | none =>
        let c := mapEntry
          (if dev.active keyLeftshift || dev.active keyRightshift then keyMapShift else keyMap)
          code.toNat
        -- Ctrl and a letter is one of the control characters 1 to 26.
        ⟨0, if dev.active keyLeftctrl || dev.active keyRightctrl then c &&& 0x1F else c⟩

def setActive (dev : VirtioKbdDev) (index : Nat) (value : Bool) : Outcome Empty VirtioKbdDev :=
  if index < maxKeyboardCode then
    .ok { dev with
      keyActive := dev.keyActive.set index value
      keyActive_length := by rw [List.length_set, dev.keyActive_length] }
  else .panic

/-- The event in the first eight bytes of the data. The table is indexed with the low byte
of the code. -/
def handleEvent (dev : VirtioKbdDev) (data : Nat → BitVec 8) : Outcome Empty VirtioKbdDev :=
  let type := le16 data 0
  let code := le16 data 2
  let value := le32 data 4
  if type = 1 then
    if value = 1 then do
      let dev ← dev.setActive (code.setWidth 8).toNat true
      .ok { dev with lastKey := dev.convertKeyCode code, keyReady := true }
    else dev.setActive (code.setWidth 8).toNat false
  else .ok dev

/-- Fetch events for as long as the device returns buffers; the views are of the first rounds. -/
def getDeviceData (lib : VirtioLib) (dev : VirtioKbdDev) : (Nat → BitVec 8) → List UsedView →
    Outcome Empty VirtioKbdDev
  | _, [] => .ok dev
  | data, view :: views => do
    let (ring, got) ← dev.ring.getBuffer lib 0 data view
    match got with
    | none => .ok { dev with ring := ring }
    | some (data, dataSize) =>
      if dataSize.toNat < 8 then getDeviceData lib { dev with ring := ring } data views
      else do
        let dev ← { dev with ring := ring }.handleEvent data
        getDeviceData lib dev data views

def readKeyStroke (dev : VirtioKbdDev) : Option EfiInputKey × VirtioKbdDev :=
  if dev.keyReady then (some dev.lastKey, { dev with keyReady := false }) else (none, dev)

end VirtioKbdDev

/-- What the driver is called for: its timer, with what the device shows, or a reader of keys. -/
inductive Call where
  | timer (stack : Nat → BitVec 8) (views : List UsedView)
  | readKeyStroke

section
variable (lib : VirtioLib)

def step (dev : VirtioKbdDev) : Call → Outcome Empty VirtioKbdDev
  | .timer stack views => dev.getDeviceData lib stack views
  | .readKeyStroke => .ok dev.readKeyStroke.2

/-- The driver after its initialization with a queue of `queueSize` elements. -/
def start (queueSize : BitVec 16) (deviceAddress : BitVec 64) (h : 0 < queueSize.toNat) :
    Outcome Empty VirtioKbdDev := do
  let ring ← ringFillRx lib (initRing lib queueSize deviceAddress h)
  .ok ⟨ring, ⟨0, 0⟩, List.replicate maxKeyboardCode false, false, List.length_replicate⟩

end

end GunyahVmm.VirtioKeyboard
