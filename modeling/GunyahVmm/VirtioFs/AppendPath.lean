import GunyahVmm.Lib.Run
import Mathlib.Data.BitVec

/-! The pathname canonicalization of the virtio-fs driver: a UEFI path is appended to the base and
read by a character machine, which rewinds at dots. Leaving a buffer and a failing assertion abort.
-/

namespace GunyahVmm.VirtioFs
open Run

inductive EfiStatus where
  | invalidParameter
  | outOfResources
  | unsupported
  deriving DecidableEq

abbrev Char8 := BitVec 8
abbrev Char16 := BitVec 16

def slash : Char8 := 0x2F
def dot : Char8 := 0x2E

@[simp] lemma slash_ne_null : slash ≠ 0#8 := by decide
@[simp] lemma dot_ne_null : dot ≠ 0#8 := by decide
@[simp] lemma dot_ne_slash : dot ≠ slash := by decide

def virtioFsMaxPathnameLength : Nat := 65535

/-- The answers of the pool allocator: what the `n`-th place of the code that asks for `size`
bytes gets. -/
structure Pool where
  allocatePool : Nat → Nat → Option (List Char8)
  length_eq : ∀ n size buffer, allocatePool n size = some buffer → buffer.length = size

def readAt (buffer : List Char8) (i : Nat) : Outcome EfiStatus Char8 := .expect buffer[i]?

def writeAt (buffer : List Char8) (i : Nat) (c : Char8) : Outcome EfiStatus (List Char8) :=
  if i < buffer.length then .ok (buffer.set i c) else .panic

/-- Copy the first `n` bytes of `source` to `offset`. -/
def copyMem (buffer : List Char8) (offset : Nat) (source : List Char8) (n : Nat) :
    Outcome EfiStatus (List Char8) :=
  if offset + n ≤ buffer.length ∧ n ≤ source.length then
    .ok (buffer.take offset ++ source.take n ++ buffer.drop (offset + n))
  else .panic

def assert (p : Bool) : Outcome EfiStatus Unit := if p then .ok () else .panic

def strLen {w : Nat} (string : List (BitVec w)) : Outcome EfiStatus Nat :=
  .expect (string.findIdx? (· == 0#w))

/-! ## The character machine -/

inductive ParserState where
  | init
  | ended
  | slash
  | dot
  | dotDot
  | normal
  deriving DecidableEq

/-- The buffer of the machine, its position, and whether a double dot tried to leave the root. -/
structure ParserOutput where
  buffer : List Char8
  position : Nat
  rootEscape : Bool

def parserStripSlash (o : ParserOutput) : Outcome EfiStatus ParserOutput := do
  assert (1 ≤ o.position)
  let last ← readAt o.buffer (o.position - 1)
  assert (last == slash)
  if o.position = 1 then .ok o else .ok { o with position := o.position - 1 }

def parserCopy (o : ParserOutput) (size : Nat) (chr8 : Char8) :
    Outcome EfiStatus ParserOutput := do
  assert (o.position < size)
  let buffer ← writeAt o.buffer o.position chr8
  .ok { o with buffer := buffer, position := o.position + 1 }

def parserRewindDot (o : ParserOutput) : Outcome EfiStatus ParserOutput := do
  assert (2 ≤ o.position)
  let last ← readAt o.buffer (o.position - 1)
  assert (last == dot)
  let before ← readAt o.buffer (o.position - 2)
  assert (before == slash)
  .ok { o with position := o.position - 1 }

def scanSlash (buffer : List Char8) : Nat → Outcome EfiStatus Nat
  | 0 => .panic
  | position + 1 => do
    let c ← readAt buffer position
    if c = slash then .ok position else scanSlash buffer position

def parserRewindDotDot (o : ParserOutput) : Outcome EfiStatus ParserOutput := do
  assert (3 ≤ o.position)
  let last ← readAt o.buffer (o.position - 1)
  assert (last == dot)
  let before ← readAt o.buffer (o.position - 2)
  assert (before == dot)
  let first ← readAt o.buffer (o.position - 3)
  assert (first == slash)
  -- The root directory is reached: do not climb higher.
  if o.position - 2 = 1 then .ok { o with position := 1, rootEscape := true }
  else do
    let position ← scanSlash o.buffer (o.position - 2 - 1)
    .ok { o with position := position + 1 }

def parserStep (size : Nat) (state : ParserState) (o : ParserOutput) (chr8 : Char8) :
    Outcome EfiStatus (ParserState × ParserOutput) :=
  match state with
  | .init => do
    assert (chr8 == slash)
    let o ← parserCopy o size chr8
    .ok (.slash, o)
  | .slash =>
    if chr8 = 0#8 then do
      let o ← parserStripSlash o
      let o ← parserCopy o size chr8
      .ok (.ended, o)
    else if chr8 = slash then .ok (.slash, o)
    else if chr8 = dot then do
      let o ← parserCopy o size chr8
      .ok (.dot, o)
    else do
      let o ← parserCopy o size chr8
      .ok (.normal, o)
  | .dot =>
    if chr8 = 0#8 then do
      let o ← parserRewindDot o
      let o ← parserStripSlash o
      let o ← parserCopy o size chr8
      .ok (.ended, o)
    else if chr8 = slash then do
      let o ← parserRewindDot o
      .ok (.slash, o)
    else if chr8 = dot then do
      let o ← parserCopy o size chr8
      .ok (.dotDot, o)
    else do
      let o ← parserCopy o size chr8
      .ok (.normal, o)
  | .dotDot =>
    if chr8 = 0#8 then do
      let o ← parserRewindDotDot o
      let o ← parserStripSlash o
      let o ← parserCopy o size chr8
      .ok (.ended, o)
    else if chr8 = slash then do
      let o ← parserRewindDotDot o
      .ok (.slash, o)
    else do
      let o ← parserCopy o size chr8
      .ok (.normal, o)
  | .normal =>
    if chr8 = 0#8 then do
      let o ← parserCopy o size chr8
      .ok (.ended, o)
    else if chr8 = slash then do
      let o ← parserCopy o size chr8
      .ok (.slash, o)
    else do
      let o ← parserCopy o size chr8
      .ok (.normal, o)
  | .ended => .panic

/-- The loop over the buffer; running off its end is the failing assertion at its head. -/
def parserLoop (size : Nat) :
    List Char8 → ParserState → ParserOutput → Outcome EfiStatus ParserOutput
  | [], _, _ => .panic
  | chr8 :: rest, state, o => do
    let next ← parserStep size state o chr8
    if next.1 = .ended then .ok next.2 else parserLoop size rest next.1 next.2

/-! ## The call -/

def refused (c : Char16) : Bool := c < 0x20 || 0x7E < c || c == 0x2F

def transliterateChar (c : Char16) : Char8 := if c = 0x5C then slash else c.setWidth 8

/-- The loop that fills `rhsPath8` from position `idx` on, the null included. -/
def transliterate : List Char16 → Nat → List Char8 → Outcome EfiStatus (List Char8)
  | [], _, _ => .panic
  | c :: rhsPath16, idx, rhsPath8 =>
    if c = 0#16 then writeAt rhsPath8 idx 0#8
    else if refused c then .err .unsupported
    else do
      let rhsPath8 ← writeAt rhsPath8 idx (transliterateChar c)
      transliterate rhsPath16 (idx + 1) rhsPath8

/-- An absolute right hand side replaces the base directory, a relative one is appended. -/
def bufferToSanitize (pool : Pool) (lhsPath8 rhsPath8 : List Char8) (rhsLen : Nat) :
    Outcome EfiStatus (List Char8) := do
  let first ← readAt rhsPath8 0
  if first = slash then .ok rhsPath8
  else do
    let lhsLen ← strLen lhsPath8
    match pool.allocatePool 1 (lhsLen + 1 + rhsLen + 1) with
    | none => .err .outOfResources
    | some buffer => do
      let buffer ← copyMem buffer 0 lhsPath8 lhsLen
      let buffer ← writeAt buffer lhsLen slash
      copyMem buffer (lhsLen + 1) rhsPath8 (rhsLen + 1)

/-- Run the machine on a buffer and check the length of what it wrote. -/
def sanitize (pool : Pool) (input : List Char8) : Outcome EfiStatus (List Char8 × Bool) :=
  match pool.allocatePool 2 input.length with
  | none => .err .outOfResources
  | some buffer => do
    let o ← parserLoop input.length input .init ⟨buffer, 0, false⟩
    assert (2 ≤ o.position)
    if virtioFsMaxPathnameLength < o.position - 1 then .err .outOfResources
    else .ok (o.buffer, o.rootEscape)

/-- Append a UEFI path to a canonical path: the buffer of the result and the escape flag. -/
def virtioFsAppendPath (pool : Pool) (lhsPath8 : List Char8) (rhsPath16 : List Char16) :
    Outcome EfiStatus (List Char8 × Bool) := do
  let rhsLen ← strLen rhsPath16
  if rhsLen = 0 then .err .invalidParameter
  else if virtioFsMaxPathnameLength < rhsLen then .err .invalidParameter
  else
    match pool.allocatePool 0 (rhsLen + 1) with
    | none => .err .outOfResources
    | some rhsPath8 => do
      let rhsPath8 ← transliterate rhsPath16 0 rhsPath8
      let input ← bufferToSanitize pool lhsPath8 rhsPath8 rhsLen
      sanitize pool input

end GunyahVmm.VirtioFs
