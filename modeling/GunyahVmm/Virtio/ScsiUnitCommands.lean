import GunyahVmm.Lib.Slice
import GunyahVmm.Virtio.ScsiCommands

/-! SCSI commands that describe the unit (`devices/src/virtio/scsi/commands.rs`), and the command
blocks of all. -/

namespace GunyahVmm.Virtio.Scsi
open Run Slice Handler

/-- A result that was computed without the chain. -/
def ofOutcome {α : Type} : Outcome ExecuteError α → Call α
  | .ok a => pure a
  | .err e => fail e
  | .panic => throw .abort

def reply (bytes : Outcome ExecuteError (List (BitVec 8))) : Call Unit := do
  let bytes ← ofOutcome bytes
  mapErr .write (writeAll bytes)

def ascii (s : List Char) : List (BitVec 8) := s.map fun c => BitVec.ofNat 8 c.toNat

def leftAlignedAscii (n : Nat) (s : List Char) : List (BitVec 8) :=
  ascii s ++ List.replicate (n - s.length) 0x20

/-! ## REQUEST SENSE -/

structure RequestSense where
  descField : BitVec 8
  allocLenByte : BitVec 8

instance : FromBytes RequestSense := ⟨6, fun b => ⟨b 1, b 4⟩⟩

def RequestSense.descriptorFormat (cmd : RequestSense) : Bool := cmd.descField &&& 0x1 != 0

/-- Only fixed format sense data is supported: current errors, the sense key NO SENSE, and the
additional length. -/
def RequestSense.bytes (cmd : RequestSense) : Outcome ExecuteError (List (BitVec 8)) :=
  if cmd.descriptorFormat then .err .invalidField
  else do
    let outbuf ← fill (List.replicate 18 0) [(0, [0x70]), (2, [0x00]), (7, [10])]
    upTo outbuf (min cmd.allocLenByte.toNat outbuf.length)

/-! ## INQUIRY -/

structure Inquiry where
  vpdField : BitVec 8
  pageCode : BitVec 8
  allocLenBytes : BitVec 16

instance : FromBytes Inquiry := ⟨6, fun b => ⟨b 1, b 2, be16 b 3⟩⟩

def Inquiry.vitalProductDataEnabled (cmd : Inquiry) : Bool := cmd.vpdField &&& 0x1 != 0

def Inquiry.allocLen (cmd : Inquiry) : Nat := cmd.allocLenBytes.toNat

def peripheral : ScsiDeviceType → BitVec 8
  | .disk => 0x00
  | .cdrom => 0x05

def removable : ScsiDeviceType → BitVec 8
  | .disk => 0x00
  | .cdrom => 0x80

def productId : ScsiDeviceType → List Char
  | .disk => ['C', 'R', 'O', 'S', 'V', 'M', ' ', 'H', 'A', 'R', 'D', 'D', 'I', 'S', 'K']
  | .cdrom => ['C', 'R', 'O', 'S', 'V', 'M', ' ', 'C', 'D', '-', 'R', 'O', 'M']

def vendor : List Char := ['C', 'R', 'O', 'S', 'V', 'M']

def productRevisionLevel : List Char := ['0', '.', '1']

/-- The fields up to byte 36, in the length of the guest buffer or the allocation length. -/
def Inquiry.standardData (dev : LogicalUnit) (availableBytes : Nat) (cmd : Inquiry) :
    Outcome ExecuteError (List (BitVec 8)) := do
  let buflen := max availableBytes cmd.allocLen
  let outbuf ← fill (List.replicate buflen 0) [
    (0, [peripheral dev.deviceType]),
    (1, [removable dev.deviceType]),
    -- the version of SPC-3
    (2, [0x5]),
    -- hierarchical support and the response data format
    (3, [0x10 ||| 0x2]),
    -- the additional length, as if at least 36 bytes were written
    (4, [BitVec.ofNat 8 (max (min buflen 0xff) 36 - 5)]),
    -- full task management mode
    (7, [0x2]),
    (8, leftAlignedAscii 8 vendor),
    (16, leftAlignedAscii 16 (productId dev.deviceType)),
    (32, leftAlignedAscii 4 productRevisionLevel)]
  upTo outbuf cmd.allocLen

def supportedVpdPageCodes : List (BitVec 8) := [0x00, 0x83, 0xb0, 0xb2]

def deviceId : List Char :=
  ['C', 'R', 'O', 'S', 'V', 'M', ' ', 'S', 'C', 'S', 'I', ' ', 'D', 'E', 'V', 'I', 'C', 'E']

section
variable (dev : LogicalUnit)

/-- The pieces of a page of vital product data; `none` for a page that is not supported. -/
def vpdPage (pageCode : BitVec 8) : Option (List (Nat × List (BitVec 8))) :=
  if pageCode = 0x00 then
    some [(3, [4]), (4, supportedVpdPageCodes)]
  else if pageCode = 0x83 then
    -- an identification descriptor in ASCII: 4 bytes, then the identifier
    some [(2, beBytes16 (4 + 18)), (4, [0x2]), (7, [18]), (8, ascii deviceId)]
  else if pageCode = 0xb0 then
    -- block limits: the maximum transfer, unmap and WRITE SAME lengths
    some [(3, [0x3c]), (4, [1]),
      (8, beBytes32 (BitVec.ofNat 32 (min dev.maxLba 0xffffffff))),
      (20, List.replicate 4 0xff), (24, List.replicate 4 0xff), (28, beBytes32 128),
      (36, beBytes64 (BitVec.ofNat 64 dev.maxLba))]
  else if pageCode = 0xb2 then
    -- UNMAP and both WRITE SAME commands; the unit is thin-provisioned
    some [(3, [4]), (5, [0x80 ||| 0x20 ||| 0x40]), (6, [0x02])]
  else none

def Inquiry.vitalProductDataPage (cmd : Inquiry) :
    Outcome ExecuteError (List (BitVec 8)) := do
  let outbuf ← fill (List.replicate (max 4096 cmd.allocLen) 0)
    [(0, [peripheral dev.deviceType]), (1, [cmd.pageCode])]
  match vpdPage dev cmd.pageCode with
  | none => .err .invalidField
  | some pieces => do
    let outbuf ← fill outbuf pieces
    upTo outbuf cmd.allocLen

def Inquiry.bytes (availableBytes : Nat) (cmd : Inquiry) : Outcome ExecuteError (List (BitVec 8)) :=
  if cmd.vitalProductDataEnabled then cmd.vitalProductDataPage dev
  else if cmd.pageCode ≠ 0 then .err .invalidField
  else cmd.standardData dev availableBytes

def Inquiry.emulate (cmd : Inquiry) : Call Unit := do
  let io ← get
  reply (cmd.bytes dev io.writer.availableBytes)

end

/-! ## Mode pages -/

inductive PageControl where
  | current
  | default
  | changable
  deriving DecidableEq

def fillPage (pageCode : BitVec 8) (len : Nat) (parameter : Nat × List (BitVec 8))
    (pageControl : PageControl) (outbuf : List (BitVec 8)) :
    Outcome ExecuteError (Option Nat × List (BitVec 8)) := do
  let outbuf ← fill outbuf ((0, [pageCode]) :: (1, [BitVec.ofNat 8 len]) ::
    if pageControl = .changable then [] else [parameter])
  .ok (some (len + 2), outbuf)

/-- Put a page into the buffer and tell how many bytes it takes; `none` for a page that is not
supported. -/
def fillModePage (pageCode subpageCode : BitVec 8) (pageControl : PageControl)
    (outbuf : List (BitVec 8)) : Outcome ExecuteError (Option Nat × List (BitVec 8)) :=
  if pageCode = 0x01 ∧ subpageCode = 0x00 then
    -- read-write error recovery: automatic write reallocation is enabled
    fillPage pageCode 10 (3, [0x80]) pageControl outbuf
  else if pageCode = 0x08 ∧ subpageCode = 0x00 then
    -- caching: the writeback cache is enabled
    fillPage pageCode 0x12 (2, [0x04]) pageControl outbuf
  else .ok (none, outbuf)

/-! ## MODE SELECT -/

structure ModeSelect6 where
  pfSpField : BitVec 8

instance : FromBytes ModeSelect6 := ⟨6, fun b => ⟨b 1⟩⟩

/-- Only the page format bit may and must be set. -/
def ModeSelect6.isValidPfAndSp (cmd : ModeSelect6) : Bool := cmd.pfSpField &&& 0x11 == 0x10

structure ModeParameterHeader where
  mediumType : BitVec 8
  blockDescLen : BitVec 8

instance : FromBytes ModeParameterHeader := ⟨4, fun b => ⟨b 1, b 3⟩⟩

structure BlockDescriptor where
  blockLen : BitVec 32

instance : FromBytes BlockDescriptor := ⟨8, fun b => ⟨ofBe32 0 (b 5) (b 6) (b 7)⟩⟩

structure PageFormat where
  code : BitVec 8

instance : FromBytes PageFormat := ⟨1, fun b => ⟨b 0⟩⟩

structure ModePage where
  pageCode : BitVec 8
  subpageCode : BitVec 8
  pageLen : Nat

structure Page0Header where
  page : ModePage

instance : FromBytes Page0Header := ⟨2, fun b => ⟨⟨b 0, 0, (b 1).toNat⟩⟩⟩

structure SubpageHeader where
  page : ModePage

instance : FromBytes SubpageHeader := ⟨4, fun b => ⟨⟨b 0, b 1, (be16 b 2).toNat⟩⟩⟩

def readPageHeader : Call ModePage := do
  let format ← mapErr .read (peekObj PageFormat)
  if format.code &&& 0x40 = 0 then do
    let header ← mapErr .read (readObj Page0Header)
    pure header.page
  else do
    let header ← mapErr .read (readObj SubpageHeader)
    pure header.page

/-- No value may be changed. The buffer for the current values is as long as the guest's page. -/
def handleModePage : Call Unit := do
  let page ← readPageHeader
  let filled ← ofOutcome (fillModePage page.pageCode page.subpageCode .current
    (List.replicate page.pageLen 0))
  let input ← mapErr .read (readExact page.pageLen)
  if input = filled.2 then pure () else fail .invalidField

/-- The loop over the pages. A run that is not over after `fuel` pages counts as an abort. -/
def handleModePages : Nat → Call Unit
  | 0 => do
    let io ← get
    if 0 < io.reader.availableBytes then throw .abort else pure ()
  | fuel + 1 => do
    let io ← get
    if 0 < io.reader.availableBytes then do
      handleModePage
      handleModePages fuel
    else pure ()

def readBlockDescriptor (dev : LogicalUnit) (blockDescLen : BitVec 8) : Call Unit :=
  if blockDescLen = 0 then pure ()
  else if blockDescLen = 8 then do
    let blockDesc ← mapErr .read (readObj BlockDescriptor)
    if blockDesc.blockLen = dev.blockSize then pure () else fail .invalidField
  else fail .invalidField

def ModeSelect6.emulate (dev : LogicalUnit) (cmd : ModeSelect6) : Call Unit :=
  if cmd.isValidPfAndSp then do
    let header ← mapErr .read (readObj ModeParameterHeader)
    if header.mediumType = 0x00 then do
      readBlockDescriptor dev header.blockDescLen
      let io ← get
      handleModePages io.reader.availableBytes
    else fail .invalidField
  else fail .invalidField

/-! ## MODE SENSE -/

structure ModeSense6 where
  dbdField : BitVec 8
  pageControlAndPageCode : BitVec 8
  subpageCode : BitVec 8
  allocLenByte : BitVec 8

instance : FromBytes ModeSense6 := ⟨6, fun b => ⟨b 1, b 2, b 3, b 4⟩⟩

section
variable (cmd : ModeSense6)

def ModeSense6.allocLen : Nat := cmd.allocLenByte.toNat

def ModeSense6.disableBlockDesc : Bool := cmd.dbdField &&& 0x8 != 0

/-- The top two bits are the page control. -/
def ModeSense6.pageCode : BitVec 8 := cmd.pageControlAndPageCode &&& 0x3f

def ModeSense6.pageControl : Outcome ExecuteError PageControl :=
  match (cmd.pageControlAndPageCode >>> 6).toNat with
  | 0 => .ok .current
  | 1 => .ok .changable
  | 2 => .ok .default
  | 3 => .err .savingParamNotSupported
  | _ => .err .invalidField

end

/-- The buffer of a reply, and the `u8` index of the next page in it. -/
structure ModeReply where
  outbuf : List (BitVec 8)
  idx : Nat

section
variable (r : ModeReply) (pageControl : PageControl) (pageCode subpageCode : BitVec 8)

/-- Put a page at the index and move the index behind it; `none` for a page that is not
supported. -/
def ModeReply.fillAtIdx : Outcome ExecuteError (Option ModeReply) := do
  let filled ← inTail r.outbuf r.idx (fillModePage pageCode subpageCode pageControl)
  match filled.1 with
  | some n => if r.idx + n < 0x100 then .ok (some ⟨filled.2, r.idx + n⟩) else .panic
  | none => .ok none

def ModeReply.addPage : Outcome ExecuteError ModeReply := do
  let filled ← r.fillAtIdx pageControl pageCode subpageCode
  .ok (filled.getD r)

def ModeReply.demandPage : Outcome ExecuteError ModeReply := do
  let filled ← r.fillAtIdx pageControl pageCode subpageCode
  match filled with
  | some r' => .ok r'
  | none => .err .invalidField

end

def allPageCodes : List (BitVec 8) := (List.range' 1 0x3e).map (BitVec.ofNat 8) ++ [0]

def allSubpageCodes : List (BitVec 8) := (List.range 0xff).map (BitVec.ofNat 8)

def addAllPageCodes (subpageCode : BitVec 8) (pageControl : PageControl) (r : ModeReply) :
    Outcome ExecuteError ModeReply :=
  allPageCodes.foldlM (fun r pageCode => r.addPage pageControl pageCode subpageCode) r

def ModeSense6.addPages (cmd : ModeSense6) (pageControl : PageControl) (r : ModeReply) :
    Outcome ExecuteError ModeReply :=
  if cmd.pageCode = 0x3f then
    if cmd.subpageCode = 0x00 then addAllPageCodes cmd.subpageCode pageControl r
    else if cmd.subpageCode = 0xff then
      allSubpageCodes.foldlM (fun r subpageCode => addAllPageCodes subpageCode pageControl r) r
    else .err .invalidField
  else if cmd.subpageCode = 0xff then
    allSubpageCodes.foldlM (fun r subpageCode =>
      r.demandPage pageControl cmd.pageCode subpageCode) r
  else r.demandPage pageControl cmd.pageCode cmd.subpageCode

/-- The header, maybe with a block descriptor. A block count over three bytes is left out. -/
def ModeSense6.header (dev : LogicalUnit) (cmd : ModeSense6) : Outcome ExecuteError ModeReply := do
  let outbuf ← fill (List.replicate (max 4096 cmd.allocLen) 0)
    [(2, [if dev.readOnly then 0x80 else 0x00])]
  if cmd.disableBlockDesc = false ∧ 0 < dev.maxLba then do
    let outbuf ← fill outbuf ((3, [8]) ::
      if dev.maxLba ≤ 0xffffff then [(5, (beBytes32 (BitVec.ofNat 32 dev.maxLba)).drop 1)] else [])
    let outbuf ← fill outbuf [(9, (beBytes32 dev.blockSize).drop 1)]
    .ok ⟨outbuf, 12⟩
  else .ok ⟨outbuf, 4⟩

/-- Fill in the length of the data, without this byte itself. -/
def ModeReply.withDataLength (r : ModeReply) : Outcome ExecuteError (List (BitVec 8)) :=
  if r.idx = 0 then .panic else fill r.outbuf [(0, [BitVec.ofNat 8 (r.idx - 1)])]

def ModeSense6.bytes (dev : LogicalUnit) (cmd : ModeSense6) :
    Outcome ExecuteError (List (BitVec 8)) := do
  let r ← cmd.header dev
  let pageControl ← cmd.pageControl
  let r ← cmd.addPages pageControl r
  let outbuf ← r.withDataLength
  upTo outbuf cmd.allocLen

/-! ## REPORT LUNS and MAINTENANCE IN -/

structure ReportLuns where
  allocLen : BitVec 32

instance : FromBytes ReportLuns := ⟨12, fun b => ⟨be32 b 6⟩⟩

def ReportLuns.emulate (cmd : ReportLuns) : Call Unit :=
  if cmd.allocLen.toNat < 16 then fail .invalidField
  else do
    mapErr .write (writeAll (beBytes32 8))
    mapErr .write (writeAll (List.replicate 4 0))
    mapErr .write (writeAll (beBytes64 0))

structure ReportSupportedTMFs where
  allocLen : BitVec 32

instance : FromBytes ReportSupportedTMFs := ⟨12, fun b => ⟨be32 b 6⟩⟩

def ReportSupportedTMFs.emulate (cmd : ReportSupportedTMFs) : Call Unit :=
  if cmd.allocLen.toNat < 4 then fail .invalidField
  else do
    mapErr .write (writeAll [0x08 ||| 0x02])
    mapErr .write (writeAll (List.replicate 3 0))

/-! ## Command blocks of all commands -/

inductive ScsiCommand where
  | testUnitReady
  | requestSense (cmd : RequestSense)
  | inquiry (cmd : Inquiry)
  | modeSelect6 (cmd : ModeSelect6)
  | modeSense6 (cmd : ModeSense6)
  | reportLuns (cmd : ReportLuns)
  | reportSupportedTMFs (cmd : ReportSupportedTMFs)
  | disk (cmd : Command)

def newUnitCommand (cdb : List (BitVec 8)) : Except ExecuteError ScsiCommand :=
  let opcode := cdb.getD 0 0
  if opcode = 0x00 then if cdb.length < 6 then .error .readCommand else .ok .testUnitReady
  else if opcode = 0x03 then .requestSense <$> parseCommand RequestSense cdb
  else if opcode = 0x12 then .inquiry <$> parseCommand Inquiry cdb
  else if opcode = 0x15 then .modeSelect6 <$> parseCommand ModeSelect6 cdb
  else if opcode = 0x1a then .modeSense6 <$> parseCommand ModeSense6 cdb
  else if opcode = 0xa0 then .reportLuns <$> parseCommand ReportLuns cdb
  else if cdb.getD 1 0 &&& 0x1f = 0x0d then
    .reportSupportedTMFs <$> parseCommand ReportSupportedTMFs cdb
  else .error (.unsupported opcode)

/-- The opcodes whose second byte tells the command, and is read whatever the length of the
block. -/
def hasServiceAction (opcode : BitVec 8) : Bool := opcode == 0x9e || opcode == 0xa3

def ScsiCommand.new (cdb : List (BitVec 8)) : Outcome ExecuteError ScsiCommand :=
  if cdb.length = 0 then .panic
  else if hasServiceAction (cdb.getD 0 0) ∧ cdb.length < 2 then .panic
  else
    match Command.new cdb with
    | .error e => .err e
    | .ok (some cmd) => .ok (.disk cmd)
    | .ok none =>
      match newUnitCommand cdb with
      | .error e => .err e
      | .ok cmd => .ok cmd

def ScsiCommand.execute (host : Host) (dev : LogicalUnit) : ScsiCommand → Call Unit
  | .testUnitReady => pure ()
  | .requestSense cmd => reply cmd.bytes
  | .inquiry cmd => cmd.emulate dev
  | .modeSelect6 cmd => cmd.emulate dev
  | .modeSense6 cmd => reply (cmd.bytes dev)
  | .reportLuns cmd => cmd.emulate
  | .reportSupportedTMFs cmd => cmd.emulate
  | .disk cmd => cmd.execute host dev

def serve (host : Host) (dev : LogicalUnit) (cdb : List (BitVec 8)) : Call Unit := do
  let cmd ← ofOutcome (ScsiCommand.new cdb)
  cmd.execute host dev

end GunyahVmm.Virtio.Scsi
