import GunyahVmm.Lib.Bytes
import GunyahVmm.Lib.Run

/-! Byte strings of a flattened device tree: the numbers and names in one, and the names allowed. -/

namespace GunyahVmm.CrosFdt
open Run

abbrev Blob := List (BitVec 8)

abbrev Str := List (BitVec 8)

inductive ParseError where
  | invalidBinarySize
  | invalidHeaderMagic
  | unsupportedFdtVersion
  | invalidReservedMemoryOffset
  | structEndOffsetMustFit
  | structAndStringsOverlap
  | stringsEndOffsetMustFit
  | stringsDataPastTotalSize
  | stringsBlockMissingNullTerminator
  | invalidValueInStringsBlock
  | couldNotParseNodeName
  | unexpectedPropTokenAfterSubnode
  | invalidPropertyNameAt (offset : BitVec 32)
  | unexpectedEndToken
  | invalidFdtToken (token : BitVec 32)
  | expectedBeginNodeToken
  | expectedEndNodeToken
  | cannotExtractHeader
  | inputSizeDoesntMatch
  deriving DecidableEq

inductive Error where
  | applyOverlayError
  | binarySizeTooLarge
  | duplicateNode (name : Str)
  | fdtParseError (why : ParseError)
  | filterError
  | invalidName (name : Str)
  | invalidPath
  | invalidString (s : Str)
  | propertyValueInvalid
  | propertyValueTooLarge
  | totalSizeTooLarge
  deriving DecidableEq

def parseError {α : Type} (why : ParseError) : Outcome Error α := .err (.fdtParseError why)

def okOr {α : Type} (x : Option α) (e : Error) : Outcome Error α :=
  match x with
  | some a => .ok a
  | none => .err e

/-- The bytes from `lo` to `hi`; indexing outside of the blob aborts. -/
def slice (input : Blob) (lo hi : Nat) : Outcome Error Blob :=
  if lo ≤ hi ∧ hi ≤ input.length then .ok ((input.drop lo).take (hi - lo)) else .panic

/-! ## Reading -/

def consume (bytes : Blob) (n : Nat) : Outcome Error (Blob × Blob) :=
  if n > bytes.length then .err .propertyValueInvalid else .ok (bytes.take n, bytes.drop n)

def rdu32 (data : Blob) : Outcome Error (BitVec 32 × Blob) := do
  let (bytes, rest) ← consume data 4
  match bytes with
  | [a, b, c, d] => .ok (ofBe32 a b c d, rest)
  | _ => .panic

def rdu64 (data : Blob) : Outcome Error (BitVec 64 × Blob) := do
  let (bytes, rest) ← consume data 8
  match bytes with
  | [a, b, c, d, e, f, g, h] => .ok (ofBe32 a b c d ++ ofBe32 e f g h, rest)
  | _ => .panic

def alignPadLen (size alignment : Nat) : Nat := (alignment - size % alignment) % alignment

def alignData (data : Blob) (alignment : Nat) : Blob :=
  data ++ List.replicate (alignPadLen data.length alignment) 0

/-! ## Strings -/

def isCont (b : BitVec 8) : Bool := 0x80#8 ≤ b && b ≤ 0xbf#8

/-- The second byte of a sequence of three. -/
def validThree (a b : BitVec 8) : Bool :=
  if a = 0xe0#8 then 0xa0#8 ≤ b && b ≤ 0xbf#8
  else if a = 0xed#8 then 0x80#8 ≤ b && b ≤ 0x9f#8
  else 0xe1#8 ≤ a && a ≤ 0xef#8 && isCont b

def validFour (a b : BitVec 8) : Bool :=
  if a = 0xf0#8 then 0x90#8 ≤ b && b ≤ 0xbf#8
  else if a = 0xf4#8 then 0x80#8 ≤ b && b ≤ 0x8f#8
  else 0xf1#8 ≤ a && a ≤ 0xf3#8 && isCont b

/-- Whether `String::from_utf8` takes the bytes. -/
def validUtf8 : Blob → Bool
  | [] => true
  | a :: rest =>
    if a < 0x80#8 then validUtf8 rest
    else
      match rest with
      | [] => false
      | b :: rest =>
        if 0xc2#8 ≤ a && a ≤ 0xdf#8 && isCont b then validUtf8 rest
        else
          match rest with
          | [] => false
          | c :: rest =>
            if validThree a b && isCont c then validUtf8 rest
            else
              match rest with
              | [] => false
              | d :: rest => validFour a b && isCont c && isCont d && validUtf8 rest

/-- The parts between the separators; there is always at least one. -/
def splitBytes (sep : BitVec 8) : Blob → List Blob
  | [] => [[]]
  | b :: rest =>
    if b = sep then [] :: splitBytes sep rest
    else
      match splitBytes sep rest with
      | [] => [[b]]
      | part :: parts => (b :: part) :: parts

def cStrToString (input : Blob) : Option Str :=
  match input.findIdx? (· = 0) with
  | none => none
  | some size => if validUtf8 (input.take size) then some (input.take size) else none

def isAsciiAlphanumeric (c : BitVec 8) : Bool :=
  (0x30#8 ≤ c && c ≤ 0x39#8) || (0x41#8 ≤ c && c ≤ 0x5a#8) || (0x61#8 ≤ c && c ≤ 0x7a#8)

/-- The characters `. , _ + ? # -` beside letters and digits. -/
def propSpecialChars : List (BitVec 8) := [0x2e, 0x2c, 0x5f, 0x2b, 0x3f, 0x23, 0x2d]

def isValidPropName (name : Str) : Bool :=
  name.all fun c => isAsciiAlphanumeric c || propSpecialChars.contains c

/-- The characters `. , _ + - @` beside letters and digits. -/
def nodeSpecialChars : List (BitVec 8) := [0x2e, 0x2c, 0x5f, 0x2b, 0x2d, 0x40]

/-- At most one `@` stands between the name and the unit address. -/
def isValidNodeName (name : Str) : Bool :=
  if (name.filter (· = 0x40#8)).length > 1 then false
  else name.all fun c => isAsciiAlphanumeric c || nodeSpecialChars.contains c

end GunyahVmm.CrosFdt
