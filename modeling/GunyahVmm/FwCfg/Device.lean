import GunyahVmm.Lib.Bytes
import GunyahVmm.Lib.Run

/-! The firmware configuration device (`devices/src/fw_cfg.rs`). The guest selects an item, by a
kind and a number, and reads its bytes at the data port. -/

namespace GunyahVmm.FwCfg
open Run

def fileFirst : Nat := 0x20

def maxFileSlots : Nat := 16384 - fileFirst

def selectorPortOffset : Nat := 0

def dataPortOffset : Nat := 1

def selectorRwMask : BitVec 16 := 0x2000

def selectorArchMask : BitVec 16 := 0x4000

def selectorSelectMask : BitVec 16 := 0xbfff

/-- The text `QEMU`. -/
def signature : List (BitVec 8) := [0x51, 0x45, 0x4d, 0x55]

def revision : List (BitVec 8) := [0, 0, 0, 1]

def signatureSelector : BitVec 16 := 0

def revisionSelector : BitVec 16 := 1

def fileDirSelector : BitVec 16 := 0x19

def filenameSize : Nat := 56

inductive Error where
  | insufficientFileSlots
  | fileAlreadyExists
  | sizeOverflow
  | indexOverflow
  | fileNameTooLong
  | fileOpen (path : String)
  | stringOrPathRequired

structure FwCfgParameters where
  name : String
  string : Option String
  path : Option String

inductive FwCfgItemType where
  | genericItem
  | archSpecificItem
  | fileDir
  | signature
  | revisionVector
  deriving DecidableEq

structure FwCfgFile where
  size : BitVec 32
  select : BitVec 16
  name : String

structure FwCfgEntry where
  allowWrite : Bool
  data : List (BitVec 8)

structure FwCfgDevice where
  fileSlots : Nat
  /-- The generic and the special items, `entries[0]` in the source. -/
  generic : List FwCfgEntry
  /-- The arch-specific items, `entries[1]` in the source. -/
  archSpecific : List FwCfgEntry
  files : List FwCfgFile
  curItemType : FwCfgItemType
  curEntry : BitVec 16
  curOffset : Nat
  fileNames : List String

namespace FwCfgDevice

/-- The entries that items of a kind are in: `entries[item_type.value()]`. -/
def entries (d : FwCfgDevice) : FwCfgItemType → List FwCfgEntry
  | .archSpecificItem => d.archSpecific
  | _ => d.generic

def setEntries (d : FwCfgDevice) (itemType : FwCfgItemType) (entries : List FwCfgEntry) :
    FwCfgDevice :=
  match itemType with
  | .archSpecificItem => { d with archSpecific := entries }
  | _ => { d with generic := entries }

/-! ## Adding items -/

/-- Put an entry in the place of a special item; the index is checked. -/
def setSpecial (d : FwCfgDevice) (selector : BitVec 16) (entry : FwCfgEntry) :
    Outcome Error FwCfgDevice :=
  if selector.toNat < d.generic.length then
    .ok { d with generic := d.generic.set selector.toNat entry }
  else .panic

def addBytes (d : FwCfgDevice) (data : List (BitVec 8)) (itemType : FwCfgItemType) :
    Outcome Error FwCfgDevice :=
  let newEntry : FwCfgEntry := ⟨false, data⟩
  match itemType with
  | .genericItem => .ok { d with generic := d.generic ++ [newEntry] }
  | .archSpecificItem => .ok { d with archSpecific := d.archSpecific ++ [newEntry] }
  | .fileDir => d.setSpecial fileDirSelector newEntry
  | .signature => d.setSpecial signatureSelector newEntry
  | .revisionVector => d.setSpecial revisionSelector newEntry

def utf8Bytes (s : String) : List (BitVec 8) := s.toUTF8.toList.map UInt8.toBitVec

/-- A file in the directory: its size, its selector, a reserved field and its name with padding. -/
def FwCfgFile.raw (file : FwCfgFile) : List (BitVec 8) :=
  beBytes32 file.size ++ beBytes16 file.select ++ [0, 0] ++ utf8Bytes file.name ++
    List.replicate (filenameSize - file.name.utf8ByteSize) 0

def updateFileDirEntry (d : FwCfgDevice) : Outcome Error FwCfgDevice :=
  d.addBytes (beBytes32 (BitVec.ofNat 32 d.files.length) ++ d.files.flatMap FwCfgFile.raw) .fileDir

def addFile (d : FwCfgDevice) (filename : String) (data : List (BitVec 8))
    (itemType : FwCfgItemType) : Outcome Error FwCfgDevice :=
  if d.files.length ≥ maxFileSlots ∨ d.files.length ≥ d.fileSlots then .err .insufficientFileSlots
  else if filename.utf8ByteSize > filenameSize - 1 then .err .fileNameTooLong
  else
    let index := (d.entries itemType).length
    if d.fileNames.contains filename then .err .fileAlreadyExists
    else if data.length ≥ 0x100000000 then .err .sizeOverflow
    else if index ≥ 0x10000 then .err .indexOverflow
    else do
      let select := BitVec.ofNat 16 index
      let select := if itemType = .archSpecificItem then select ||| selectorArchMask else select
      let newFile : FwCfgFile := ⟨BitVec.ofNat 32 data.length, select, filename⟩
      let d ← d.addBytes data itemType
      updateFileDirEntry { d with
        files := d.files ++ [newFile]
        fileNames := filename :: d.fileNames }

section
variable (readFile : String → Option (List (BitVec 8)))

def paramData (param : FwCfgParameters) : Outcome Error (List (BitVec 8)) :=
  match param.string, param.path with
  | some string, none => .ok (utf8Bytes string)
  | none, some path =>
    match readFile path with
    | some data => .ok data
    | none => .err (.fileOpen path)
  | _, _ => .err .stringOrPathRequired

def addParam (d : FwCfgDevice)
    (param : FwCfgParameters) : Outcome Error FwCfgDevice := do
  let data ← paramData readFile param
  d.addFile param.name data .genericItem

def new (fileSlots : Nat)
    (fwCfgParameters : List FwCfgParameters) : Outcome Error FwCfgDevice := do
  let device : FwCfgDevice := {
    fileSlots
    generic := List.replicate fileFirst ⟨false, []⟩
    archSpecific := []
    files := []
    curItemType := .genericItem
    curEntry := 0
    curOffset := 0
    fileNames := [] }
  let device ← fwCfgParameters.foldlM (addParam readFile) device
  let device ← device.addBytes FwCfg.signature .signature
  device.addBytes revision .revisionVector

end

/-! ## Accesses of the guest -/

/-- A read into a buffer; `none` is an index out of range. -/
def read (d : FwCfgDevice) (offset : Nat) (data : List (BitVec 8)) :
    Option (List (BitVec 8) × FwCfgDevice) :=
  if data.length ≠ 1 then some (data, d)
  else if offset = dataPortOffset then
    match (d.entries d.curItemType)[d.curEntry.toNat]? with
    | none => none
    | some entry =>
      match entry.data[d.curOffset]? with
      -- past the end of the entry
      | none => some ([0], d)
      | some byte => some ([byte], { d with curOffset := d.curOffset + 1 })
  else some (data, d)

def itemTypeOf (selector : BitVec 16) : FwCfgItemType :=
  if selectorArchMask &&& selector > 0 then .archSpecificItem else .genericItem

/-- The selector port is written. The kind is set before the selector is checked. -/
def select (d : FwCfgDevice) (selector : BitVec 16) : FwCfgDevice :=
  let d := { d with curOffset := 0 }
  if selector = fileDirSelector then { d with curEntry := fileDirSelector }
  else if selector = revisionSelector then { d with curEntry := revisionSelector }
  else if selector = signatureSelector then { d with curEntry := signatureSelector }
  else
    let d := { d with curItemType := itemTypeOf selector }
    if (d.entries d.curItemType).length ≤ selector.toNat then d
    else
      let entries := (d.entries d.curItemType).modify selector.toNat fun e =>
        { e with allowWrite := selectorRwMask &&& selector > 0 }
      { d.setEntries d.curItemType entries with
        curItemType := itemTypeOf selector
        curEntry := selector &&& selectorSelectMask }

def write (d : FwCfgDevice) (offset : Nat) (data : List (BitVec 8)) : FwCfgDevice :=
  if offset = selectorPortOffset then
    match data with
    | [low, high] => d.select (high ++ low)
    | _ => d
  else d

end FwCfgDevice

end GunyahVmm.FwCfg
