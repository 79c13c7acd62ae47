import GunyahVmm.Lib.Bytes
import GunyahVmm.Lib.Ends
import GunyahVmm.Lib.U64

/-! The descriptor chain and the disk of a request handler. The host answers calls as it likes. -/

namespace GunyahVmm.Virtio
open Run List

/-- The half of a descriptor chain that the guest has filled. When the handler got it, `skipped`
bytes of its first region had been consumed. -/
structure Reader where
  remaining : List (BitVec 8)
  bytesRead : Nat
  skipped : Nat

namespace Reader

def availableBytes (reader : Reader) : Nat := reader.remaining.length

/-- More than is left consumes all that is left. -/
def consume (reader : Reader) (amt : Nat) : Reader where
  remaining := reader.remaining.drop amt
  bytesRead := reader.bytesRead + min amt reader.remaining.length
  skipped := reader.skipped

/-- The bytes that `split_at` leaves, for a handler that has consumed none: it counts from the start
of the first region. -/
def splitAt (reader : Reader) (offset : Nat) : List (BitVec 8) :=
  reader.remaining.take (offset - reader.skipped)

end Reader

/-- The half of a descriptor chain that the device fills. -/
structure Writer where
  availableBytes : Nat
  written : List (BitVec 8)

namespace Writer

def bytesWritten (writer : Writer) : Nat := writer.written.length

/-- Put bytes into the chain, as many as have room. -/
def put (writer : Writer) (bytes : List (BitVec 8)) : Writer where
  availableBytes := writer.availableBytes - bytes.length
  written := writer.written ++ bytes.take writer.availableBytes

end Writer

/-- Calls to the asynchronous disk and to the flush timer. -/
inductive HostCall where
  | readToMem (off len : Nat)
  | writeFromMem (off : Nat) (data : List (BitVec 8))
  | punchHole (off len : Nat)
  | writeZeroesAt (off len : Nat)
  | fdatasync
  | resetOneshot
  | clearTimer
  deriving DecidableEq

structure DiskRange where
  start : Nat
  length : Nat

def DiskRange.stop (range : DiskRange) : Nat := range.start + range.length

namespace HostCall

def range : HostCall → Option DiskRange
  | readToMem off len => some ⟨off, len⟩
  | writeFromMem off data => some ⟨off, data.length⟩
  | punchHole off len => some ⟨off, len⟩
  | writeZeroesAt off len => some ⟨off, len⟩
  | fdatasync | resetOneshot | clearTimer => none

def changesDisk : HostCall → Bool
  | writeFromMem .. | punchHole .. | writeZeroesAt .. => true
  | readToMem .. | fdatasync | resetOneshot | clearTimer => false

end HostCall

def ranges (calls : List HostCall) : List DiskRange := calls.filterMap (·.range)

inductive IoError where
  | host (errno : Nat)
  | unexpectedEof
  | writeZero

/-- The host: what it reads, and how it answers the other calls, knowing every call before. -/
structure Host where
  read : List HostCall → DiskRange → Except IoError (List (BitVec 8))
  perform : List HostCall → HostCall → Except IoError Nat

/-- A host that answers every call in full. -/
def obligingHost : Host where
  read _ range := .ok (List.replicate range.length 0)
  perform _ call := .ok (call.range.elim 0 (·.length))

/-- The state of a handler: its chain, the calls made so far, and the state of its device. -/
structure Io (σ : Type) where
  reader : Reader
  writer : Writer
  calls : List HostCall
  device : σ

/-- Why a handler stops: an error that it returns, or the abort of the process. -/
inductive Stop (ε : Type) where
  | returned (e : ε)
  | abort

lemma Stop.returned_ne_abort {ε : Type} {e : ε} : Stop.returned e ≠ .abort := by
  intro h
  cases h

abbrev Handler (σ ε α : Type) := EStateM (Stop ε) (Io σ) α

variable {σ ε ε' α : Type} {io' : Io σ} {K : HostCall → Prop} {off avail : Nat} {f : ε → ε'}
namespace Handler

def fail (e : ε) : Handler σ ε α := throw (.returned e)

def mapErr (f : ε → ε') (x : Handler σ ε α) : Handler σ ε' α := fun io =>
  match x io with
  | .ok a io => .ok a io
  | .error (.returned e) io => .error (.returned (f e)) io
  | .error .abort io => .error .abort io

/-- Do without the value; an error is ignored. -/
def ignore (x : Handler σ ε α) : Handler σ ε' Unit := fun io =>
  match x io with
  | .ok _ io => .ok () io
  | .error (.returned _) io => .ok () io
  | .error .abort io => .error .abort io

end Handler

open Handler

/-! ## Guest data -/

def readObj (α : Type) [FromBytes α] : Handler σ IoError α := do
  let io ← get
  if io.reader.availableBytes < FromBytes.size α then fail .unexpectedEof
  else
    set { io with reader := io.reader.consume (FromBytes.size α) }
    pure (FromBytes.fromBytes fun i => io.reader.remaining.getD i 0)

/-- The next object in the chain, which stays there. -/
def peekObj (α : Type) [FromBytes α] : Handler σ IoError α := do
  let io ← get
  if io.reader.availableBytes < FromBytes.size α then fail .unexpectedEof
  else pure (FromBytes.fromBytes fun i => io.reader.remaining.getD i 0)

/-- The next `count` bytes in the chain; if there are not as many, those that are left are lost. -/
def readExact (count : Nat) : Handler σ IoError (List (BitVec 8)) := do
  let io ← get
  set { io with reader := io.reader.consume count }
  if io.reader.availableBytes < count then fail .unexpectedEof
  else pure (io.reader.remaining.take count)

/-- Write bytes into the chain; what does not fit is an error, with the room used up. -/
def writeAll (bytes : List (BitVec 8)) : Handler σ IoError Unit := do
  let io ← get
  set { io with writer := io.writer.put bytes }
  if io.writer.availableBytes < bytes.length then fail .writeZero else pure ()

/-! ## Disk calls -/

def perform (host : Host) (call : HostCall) : Handler σ IoError Nat := do
  let io ← get
  set { io with calls := io.calls ++ [call] }
  match host.perform io.calls call with
  | .ok n => pure n
  | .error e => fail e

/-- Read from the disk into the chain: at most `count` bytes, and at most what the chain takes. -/
def writeFromAtFut (host : Host) (count off : Nat) : Handler σ IoError Nat := do
  let io ← get
  let len := min count io.writer.availableBytes
  match host.read io.calls ⟨off, len⟩ with
  | .error e => do
    set { io with calls := io.calls ++ [HostCall.readToMem off len] }
    fail e
  | .ok bytes => do
    set { io with calls := io.calls ++ [HostCall.readToMem off len], writer := io.writer.put bytes }
    pure bytes.length

/-- Write from the chain to the disk: at most `count` bytes. -/
def readToAtFut (host : Host) (count off : Nat) : Handler σ IoError Nat := do
  let io ← get
  let data := io.reader.remaining.take count
  let written ← perform host (.writeFromMem off data)
  modify fun io => { io with reader := io.reader.consume written }
  pure written

/-- Repeat a transfer until `count` bytes have moved; a round that moves nothing is an error. -/
def transferAll (move : Nat → Nat → Handler σ IoError Nat) :
    Nat → Nat → Nat → Handler σ IoError Unit
  | 0, _, _ => pure ()
  | fuel + 1, count, off =>
    if count = 0 then pure ()
    else do
      let moved ← move count off
      if moved = 0 then fail .unexpectedEof
      else if count < moved ∨ u64Size ≤ off + moved then throw .abort
      else transferAll move fuel (count - moved) (off + moved)

def writeAllFromAtFut (host : Host) (count off : Nat) : Handler σ IoError Unit :=
  transferAll (writeFromAtFut host) count count off

def readExactToAtFut (host : Host) (count off : Nat) : Handler σ IoError Unit :=
  transferAll (readToAtFut host) count count off

/-! ## What the calls touch -/

section
variable {x : Handler σ ε α} {io : Io σ} {f : ε → ε'} {Q : α → Io σ → Prop} {E : Io σ → Prop}

lemma mapErr_ends (h : Ends (x io) Q fun _ io' => E io') :
    Ends (mapErr f x io) Q fun _ io' => E io' := by
  unfold mapErr
  cases hx : x io with
  | ok a io' =>
    rw [hx] at h
    exact h
  | error e io' =>
    rw [hx] at h
    cases e with
    | returned e => exact h
    | abort => exact h

lemma mapErr_returns (h : Ends (x io) Q fun e io' => e ≠ .abort ∧ E io') :
    Ends (mapErr f x io) Q fun e io' => e ≠ .abort ∧ E io' := by
  unfold mapErr
  cases hx : x io with
  | ok a io' =>
    rw [hx] at h
    exact h
  | error e io' =>
    rw [hx] at h
    cases e with
    | returned e => exact ⟨Stop.returned_ne_abort, h.2⟩
    | abort => exact absurd rfl h.1

end

lemma readObj_of_le {β : Type} [FromBytes β] {io : Io σ}
    (h : FromBytes.size β ≤ io.reader.availableBytes) :
    readObj β io = .ok (FromBytes.fromBytes fun i => io.reader.remaining.getD i 0)
      { io with reader := io.reader.consume (FromBytes.size β) } := by
  unfold readObj
  rw [get_bind_apply, if_neg (Nat.not_lt.mpr h), set_bind_apply]
  rfl

lemma readObj_of_lt {β : Type} [FromBytes β] {io : Io σ}
    (h : io.reader.availableBytes < FromBytes.size β) :
    readObj β io = .error (.returned .unexpectedEof) io := by
  unfold readObj
  rw [get_bind_apply, if_pos h]
  rfl

lemma writeAll_ends (bytes : List (BitVec 8)) (io : Io σ) :
    Ends (writeAll bytes io) (fun _ io' => io'.calls = io.calls)
      (fun e io' => e ≠ .abort ∧ io'.calls = io.calls) := by
  unfold writeAll
  rw [get_bind_apply, set_bind_apply]
  split
  · exact ⟨Stop.returned_ne_abort, rfl⟩
  · exact rfl

lemma mapErr_of_ok {x : Handler σ ε α} {io : Io σ} {a : α} (h : x io = .ok a io') :
    mapErr f x io = .ok a io' := by
  unfold mapErr
  rw [h]

lemma mapErr_of_returned {x : Handler σ ε α} {io : Io σ} {e : ε}
    (h : x io = .error (.returned e) io') : mapErr f x io = .error (.returned (f e)) io' := by
  unfold mapErr
  rw [h]

/-- One round of a transfer asks for the bytes at `off`, as many as `count` and the chain allow. -/
structure Round (io : Io σ) (K : HostCall → Prop) (count off avail : Nat) (io' : Io σ) : Prop where
  call : ∃ call, io'.calls = io.calls ++ [call] ∧ K call ∧ call.range = some ⟨off, min count avail⟩
  device : io'.device = io.device

/-- The rounds of a transfer of `count` bytes at `off`: the first asks for all of them, the others
for the rest. -/
structure Transfer (io : Io σ) (K : HostCall → Prop) (count off avail : Nat) (io' : Io σ) :
    Prop where
  calls : ∃ calls, io'.calls = io.calls ++ calls ∧
    (∀ call ∈ calls, K call ∧ ∃ range, call.range = some range ∧ off ≤ range.start ∧
      range.stop ≤ off + count ∧ (count ≤ avail → range.stop = off + count)) ∧
    (∀ call rest, calls = call :: rest → call.range = some ⟨off, min count avail⟩)
  asked : count ≠ 0 → io'.calls ≠ io.calls
  device : io'.device = io.device

lemma Transfer.first_mem {io : Io σ} {count : Nat} (h : Transfer io K count off avail io')
    (hp : count ≠ 0) : ⟨off, min count avail⟩ ∈ ranges io'.calls := by
  obtain ⟨calls, hc, -, hf⟩ := h.calls
  cases calls with
  | nil => exact absurd (hc.trans (append_nil _)) (h.asked hp)
  | cons call rest =>
    rw [hc]
    exact mem_filterMap.mpr ⟨call, by simp, hf call rest rfl⟩

lemma Transfer.ranges {io : Io σ} {count : Nat} (hcl : io.calls = [])
    (h : Transfer io K count off avail io') : (∀ call ∈ io'.calls, K call) ∧
      (ranges io'.calls).take 1 <+: [⟨off, min count avail⟩] ∧
      ∀ range ∈ ranges io'.calls, off ≤ range.start ∧ range.stop ≤ off + count ∧
        (count ≤ avail → range.stop = off + count) := by
  obtain ⟨calls, hc, ha, hf⟩ := h.calls
  rw [hc, hcl, nil_append]
  refine ⟨fun call hm => (ha call hm).1, ?_, ?_⟩
  · cases calls with
    | nil => exact nil_prefix
    | cons call rest => simp [Virtio.ranges, hf call rest rfl]
  · intro range hr
    obtain ⟨call, hm, hcr⟩ := mem_filterMap.mp hr
    obtain ⟨-, range', hr', hin⟩ := ha call hm
    rw [hcr] at hr'
    cases hr'
    exact hin

lemma Transfer.nil {io : Io σ} : Transfer io K 0 off avail io where
  calls := by
    refine ⟨[], (append_nil _).symm, forall_mem_nil _, ?_⟩
    intro call rest h
    cases h
  asked h := absurd rfl h
  device := rfl

lemma Round.transfer {io : Io σ} {count : Nat} (h : Round io K count off avail io') :
    Transfer io K count off avail io' where
  calls := by
    obtain ⟨call, hcl, hK, hr⟩ := h.call
    refine ⟨[call], hcl, ?_, ?_⟩
    · refine forall_mem_singleton.mpr ⟨hK, _, hr, Nat.le_refl _, ?_, fun hle => ?_⟩
      · exact Nat.add_le_add_left (Nat.min_le_left _ _) _
      · simp only [DiskRange.stop]
        omega
    · intro c rest h
      cases h
      exact hr
  asked _ := by
    obtain ⟨call, hcl, -⟩ := h.call
    simp [hcl]
  device := h.device

lemma Round.append {io io'' : Io σ} {count avail' moved : Nat}
    (h : Round io K count off avail io') (ha : avail - moved ≤ avail') (hm : moved ≤ count)
    (hp : moved ≠ 0) (hrs : Transfer io' K (count - moved) (off + moved) avail' io'') :
    Transfer io K count off avail io'' where
  calls := by
    obtain ⟨call, hcl, hK, hrng⟩ := h.call
    obtain ⟨calls, hc', hall, -⟩ := hrs.calls
    refine ⟨call :: calls, ?_, ?_, ?_⟩
    · rw [hc', hcl, append_assoc, singleton_append]
    · intro c hc
      rcases mem_cons.mp hc with rfl | hc
      · refine ⟨hK, _, hrng, Nat.le_refl _, ?_, fun hle => ?_⟩
        · exact Nat.add_le_add_left (Nat.min_le_left _ _) _
        · simp only [DiskRange.stop]
          omega
      · obtain ⟨hKc, range, hr, hst, hs, hend⟩ := hall c hc
        refine ⟨hKc, range, hr, by omega, by omega, fun hle => ?_⟩
        rw [hend (by omega)]
        omega
    · intro c rest h
      cases h
      exact hrng
  asked _ := by
    obtain ⟨call, hcl, -⟩ := h.call
    obtain ⟨calls, hc', -⟩ := hrs.calls
    simp [hc', hcl]
  device := hrs.device.trans h.device

/-- **Loop.** Whatever the host answers, the rounds stay within the bytes of the transfer. -/
lemma transferAll_ends {move : Nat → Nat → Handler σ IoError Nat} {avail : Io σ → Nat}
    (hm : ∀ count off io, Ends (move count off io)
      (fun moved io' => Round io K count off (avail io) io' ∧ avail io - moved ≤ avail io')
      (fun e io' => e ≠ .abort ∧ Round io K count off (avail io) io')) :
    ∀ (fuel count off : Nat) (io : Io σ), count ≤ fuel →
      Leaves (transferAll move fuel count off io) (Transfer io K count off (avail io)) := by
  intro fuel
  induction fuel with
  | zero =>
    intro count off io hle
    obtain rfl := Nat.le_zero.mp hle
    exact Transfer.nil
  | succ fuel ih =>
    intro count off io hle
    unfold transferAll
    split
    · rename_i hz
      subst hz
      exact Transfer.nil
    · refine ends_bind ((hm count off io).mono (fun _ _ h => h) fun _ _ h => h.2.transfer) ?_
      rintro moved io' ⟨hrnd, ha⟩
      split
      · exact hrnd.transfer
      split
      · exact hrnd.transfer
      rename_i hp hf
      have hmv : moved ≤ count := by omega
      refine (ih (count - moved) (off + moved) io' (by omega)).imp fun _ hr => ?_
      exact hrnd.append ha hmv hp hr

section
variable (host : Host) (call : HostCall)

lemma perform_ends (io : Io σ) :
    Ends (perform host call io) (fun _ io' => io' = { io with calls := io.calls ++ [call] })
      (fun e io' => e ≠ .abort ∧ io' = { io with calls := io.calls ++ [call] }) := by
  unfold perform
  rw [get_bind_apply, set_bind_apply]
  cases host.perform io.calls call with
  | ok n => exact rfl
  | error e => exact ⟨Stop.returned_ne_abort, rfl⟩

lemma ignore_perform (io : Io σ) :
    (ignore (perform host call) : Handler σ ε' Unit) io =
      .ok () { io with calls := io.calls ++ [call] } := by
  unfold ignore perform
  rw [get_bind_apply, set_bind_apply]
  cases host.perform io.calls call <;> rfl

variable (count off : Nat) (io : Io σ)

lemma writeFromAtFut_ends :
    Ends (writeFromAtFut host count off io)
      (fun moved io' => Round io (fun call => call.changesDisk = false) count off
        io.writer.availableBytes io' ∧ io.writer.availableBytes - moved ≤ io'.writer.availableBytes)
      (fun e io' => e ≠ .abort ∧ Round io (fun call => call.changesDisk = false) count off
        io.writer.availableBytes io') := by
  unfold writeFromAtFut
  rw [get_bind_apply]
  cases host.read io.calls ⟨off, min count io.writer.availableBytes⟩ with
  | error e => exact ⟨Stop.returned_ne_abort, ⟨_, rfl, rfl, rfl⟩, rfl⟩
  | ok bytes => exact ⟨⟨⟨_, rfl, rfl, rfl⟩, rfl⟩, Nat.le_refl _⟩

lemma readToAtFut_ends :
    Ends (readToAtFut host count off io)
      (fun moved io' => Round io (fun _ => True) count off io.reader.availableBytes io' ∧
        io.reader.availableBytes - moved ≤ io'.reader.availableBytes)
      (fun e io' => e ≠ .abort ∧
        Round io (fun _ => True) count off io.reader.availableBytes io') := by
  have hr : (HostCall.writeFromMem off (io.reader.remaining.take count)).range =
      some ⟨off, min count io.reader.availableBytes⟩ := by
    simp only [HostCall.range, length_take, Reader.availableBytes]
  unfold readToAtFut
  rw [get_bind_apply]
  refine ends_bind ((perform_ends host _ io).mono (fun _ _ h => h) ?_) ?_
  · rintro e io' ⟨he, rfl⟩
    exact ⟨he, ⟨_, rfl, trivial, hr⟩, rfl⟩
  · rintro moved io' rfl
    rw [modify_bind_apply]
    refine ⟨⟨⟨_, rfl, trivial, hr⟩, rfl⟩, ?_⟩
    simp only [Reader.availableBytes, Reader.consume, length_drop, Nat.le_refl]

lemma writeAllFromAtFut_ends :
    Leaves (writeAllFromAtFut host count off io)
      (Transfer io (fun call => call.changesDisk = false) count off io.writer.availableBytes) :=
  transferAll_ends (writeFromAtFut_ends host) count count off io (Nat.le_refl _)

lemma readExactToAtFut_ends :
    Leaves (readExactToAtFut host count off io)
      (Transfer io (fun _ => True) count off io.reader.availableBytes) :=
  transferAll_ends (readToAtFut_ends host) count count off io (Nat.le_refl _)

end

end GunyahVmm.Virtio
