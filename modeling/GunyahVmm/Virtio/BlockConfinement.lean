import GunyahVmm.Virtio.BlockRequest
import GunyahVmm.Virtio.HandlerRules

/-! A block request touches the bytes the guest named, unless the offset of a sector wraps around to
a place where the range lies inside the disk. -/

namespace GunyahVmm.Virtio.Block
open Run Handler List

/-- The number of sectors whose byte offset fits 64 bits. -/
def sectorLimit : Nat := 0x80000000000000

/-! ## What the guest names -/

/-- The descriptor chain of a request: the bytes the guest wrote, and the room for the answer. -/
structure Chain where
  readable : List (BitVec 8)
  writable : Nat

def segmentsOf : Nat → List (BitVec 8) → List Segment
  | 0, _ => []
  | n + 1, bytes =>
    FromBytes.fromBytes (fun i => bytes.getD i 0) :: segmentsOf n (bytes.drop sizeOfSegment)

/-- The disk bytes of a segment, in unbounded arithmetic. -/
def Segment.range (seg : Segment) : DiskRange :=
  ⟨512 * seg.sector.toNat, 512 * seg.numSectors.toNat⟩

namespace Chain
section
variable (chain : Chain)

def header : ReqHeader := FromBytes.fromBytes fun i => chain.readable.getD i 0

def reqType : RequestType := .ofCode chain.header.reqType

def body : List (BitVec 8) := chain.readable.drop (FromBytes.size ReqHeader)

def segments : List Segment := segmentsOf (chain.body.length / sizeOfSegment) chain.body

end

/-- The bytes from a sector on; no bytes name nothing. -/
def named (sector : BitVec 64) (length : Nat) : List DiskRange :=
  if length = 0 then [] else [⟨512 * sector.toNat, length⟩]

/-- The disk ranges of a request: one for data, one per segment. The last byte takes the status. -/
def namedRanges (chain : Chain) : List DiskRange :=
  match chain.reqType with
  | .read => named chain.header.sector (chain.writable - 1)
  | .write => named chain.header.sector chain.body.length
  | .discard | .writeZeroes => chain.segments.map (·.range)
  | .flush | .getId | .unknown => []

def io (chain : Chain) (flushTimerArmed : Bool) : Io Bool where
  reader := ⟨chain.readable, 0, 0⟩
  writer := ⟨chain.writable, []⟩
  calls := []
  device := flushTimerArmed

end Chain

/-- The calls work on the named ranges: a transfer from its start on, segments one by one. -/
structure Confined (disk : DiskState) (reqType : RequestType) (named : List DiskRange)
    (calls : List HostCall) : Prop where
  inside : ∀ range ∈ ranges calls, ∃ r ∈ named, r.stop ≤ disk.diskSize.toNat ∧
    r.start ≤ range.start ∧ range.stop = r.stop
  first : (ranges calls).take 1 <+: named
  segments : reqType = .discard ∨ reqType = .writeZeroes → ranges calls <+: named
  readOnly : disk.readOnly → ∀ call ∈ calls, call.changesDisk = false

/-! ## Sectors whose offset wraps around -/

/-- The byte offset of a sector in 64 bits. -/
def offsetIn64Bits (sector : BitVec 64) : Nat := 512 * sector.toNat % 2 ^ 64

/-- The offset of the sector fits 64 bits, or what it wraps to is outside the disk as well. -/
def RangeKept (disk : DiskState) (sector : BitVec 64) (length : Nat) : Prop :=
  sector.toNat < sectorLimit ∨ disk.diskSize.toNat < offsetIn64Bits sector + length

/-- A segment that stops the loop: its flags are not allowed, or it is outside the disk. -/
def Segment.Refused (disk : DiskState) (zeroes : Bool) (seg : Segment) : Prop :=
  seg.flags &&& ~~~validFlags zeroes ≠ 0 ∨
    disk.diskSize.toNat < offsetIn64Bits seg.sector + 512 * seg.numSectors.toNat

/-- The offsets of the segments fit 64 bits, up to the first that is refused. -/
def SegmentsKept (disk : DiskState) (zeroes : Bool) : List Segment → Prop
  | [] => True
  | seg :: rest => seg.Refused disk zeroes ∨
    seg.sector.toNat < sectorLimit ∧ SegmentsKept disk zeroes rest

/-- What a request that gets to its branch needs. -/
def BranchKept (disk : DiskState) (chain : Chain) : Prop :=
  match chain.reqType with
  | .read => chain.writable - 1 ≠ 0 → RangeKept disk chain.header.sector (chain.writable - 1)
  | .write => chain.body.length ≠ 0 → RangeKept disk chain.header.sector chain.body.length
  | .discard => disk.sparse = true → SegmentsKept disk false chain.segments
  | .writeZeroes => SegmentsKept disk true chain.segments
  | .flush | .getId | .unknown => True

/-- The ranges of a request that is carried out are kept. -/
def RequestKept (disk : DiskState) (chain : Chain) : Prop :=
  chain.writable ≠ 0 → FromBytes.size ReqHeader ≤ chain.readable.length →
    (disk.readOnly && chain.reqType.needsWrite) = false → BranchKept disk chain

/-- A named range is not inside the disk, in a request that may not pass over it. -/
def OutOfRange (disk : DiskState) (chain : Chain) : Prop :=
  chain.reqType ≠ .discard ∧ ∃ r ∈ chain.namedRanges, disk.diskSize.toNat < r.stop

section
variable {disk : DiskState} {reqType : RequestType} {named : List DiskRange}
  {calls : List HostCall}

lemma confined_nil : Confined disk reqType named [] where
  inside := forall_mem_nil _
  first := nil_prefix
  segments _ := nil_prefix
  readOnly _ := forall_mem_nil _

lemma Confined.append_silent (h : Confined disk reqType named calls) (call : HostCall)
    (hr : call.range = none) (hch : call.changesDisk = false) :
    Confined disk reqType named (calls ++ [call]) := by
  have hs : ranges (calls ++ [call]) = ranges calls := by
    simp [ranges, hr]
  refine ⟨?_, ?_, ?_, ?_⟩
  · rw [hs]
    exact h.inside
  · rw [hs]
    exact h.first
  · rw [hs]
    exact h.segments
  · exact fun hro => forall_mem_append.mpr ⟨h.readOnly hro, forall_mem_singleton.mpr hch⟩

lemma confined_transfer {io io' : Io Bool} {K : HostCall → Prop} {count off : Nat}
    (hcl : io.calls = []) (hK : disk.readOnly → ∀ call, K call → call.changesDisk = false)
    (ht : ¬ (reqType = .discard ∨ reqType = .writeZeroes))
    (hi : off + count ≤ disk.diskSize.toNat) (h : Transfer io K count off count io') :
    Confined disk reqType [⟨off, count⟩] io'.calls := by
  obtain ⟨hk, hf, hr⟩ := h.ranges hcl
  refine ⟨?_, ?_, fun h => absurd h ht, ?_⟩
  · intro range hm
    obtain ⟨hst, -, hs⟩ := hr range hm
    exact ⟨_, mem_singleton_self _, hi, hst, hs (Nat.le_refl _)⟩
  · rwa [Nat.min_self] at hf
  · exact fun hro c hc => hK hro c (hk c hc)

end

/-! ## Offsets and checks -/

lemma ExecuteError.status_ne_ok (e : ExecuteError) : e.status ≠ statusOk := by
  unfold status
  split <;> decide

lemma offsetOf_eq (sector : BitVec 64) : offsetOf sector = pure (offsetIn64Bits sector) := by
  have hs : (sector <<< sectorShift).toNat = offsetIn64Bits sector := by
    rw [BitVec.toNat_shiftLeft, Nat.shiftLeft_eq, sectorShift, offsetIn64Bits]
    omega
  unfold offsetOf checkedShl
  rw [if_pos (by decide)]
  simp only [hs]

lemma offsetIn64Bits_of_lt {sector : BitVec 64} (h : sector.toNat < sectorLimit) :
    offsetIn64Bits sector = 512 * sector.toNat := by
  rw [sectorLimit] at h
  exact Nat.mod_eq_of_lt (by omega)

/-- An offset that wraps around is in front of the named bytes. -/
lemma offsetIn64Bits_lt {sector : BitVec 64} (h : ¬ sector.toNat < sectorLimit) :
    offsetIn64Bits sector < 512 * sector.toNat := by
  rw [sectorLimit] at h
  have hm := Nat.mod_lt (512 * sector.toNat) (show 0 < 2 ^ 64 by decide)
  rw [offsetIn64Bits]
  omega

lemma offsetOf_numSectors_eq (numSectors : BitVec 32) :
    offsetOf (numSectors.setWidth 64) = pure (512 * numSectors.toNat) := by
  have hw : (numSectors.setWidth 64).toNat = numSectors.toNat :=
    BitVec.toNat_setWidth_of_le (by decide)
  rw [offsetOf_eq, offsetIn64Bits_of_lt (by rw [hw, sectorLimit]; omega), hw]

lemma checkRange_eq (disk : DiskState) (start length : Nat) :
    checkRange start length disk.diskSize.toNat =
      if start + length ≤ disk.diskSize.toNat then pure () else fail .outOfRange := by
  unfold checkRange
  cases ha : checkedAdd start length with
  | none =>
    have ho := checkedAdd_eq_none.mp ha
    rw [if_neg (by simp only [u64Size] at ho; omega)]
  | some stop =>
    obtain ⟨-, rfl⟩ := checkedAdd_eq_some.mp ha
    simp only
    split
    · rw [if_neg (by omega)]
    · rw [if_pos (by omega)]

/-! ## The branches -/

section
variable {host : Host} {disk : DiskState} {io : Io Bool}

def BranchEnds (disk : DiskState) (reqType : RequestType) (named : List DiskRange)
    (r : EStateM.Result (Stop ExecuteError) (Io Bool) Unit) : Prop :=
  Ends r
    (fun _ io' => Confined disk reqType named io'.calls ∧
      (reqType ≠ .discard → ∀ r ∈ named, r.stop ≤ disk.diskSize.toNat))
    (fun e io' => Confined disk reqType named io'.calls ∧
      (e = .abort → ∀ r ∈ named, r.stop ≤ disk.diskSize.toNat))

variable {reqType : RequestType} {zeroes : Bool} {io' : Io Bool} {named : List DiskRange}
  {sector : BitVec 64} {done : List Segment}

lemma branch_fails {e : ExecuteError} (hc : io.calls = []) :
    BranchEnds disk reqType named (.error (.returned e) io) := by
  refine ⟨?_, fun h => absurd h Stop.returned_ne_abort⟩
  rw [hc]
  exact confined_nil

lemma executeRead_ends (hc : io.calls = [])
    (hs : io.writer.availableBytes ≠ 0 → RangeKept disk sector io.writer.availableBytes) :
    BranchEnds disk .read (Chain.named sector io.writer.availableBytes)
      (executeRead host disk sector io) := by
  unfold executeRead Chain.named
  rw [get_bind_apply]
  split
  · refine ⟨?_, fun _ => forall_mem_nil _⟩
    rw [hc]
    exact confined_nil
  · rename_i hp
    rw [offsetOf_eq, pure_bind_apply, checkRange_eq]
    split
    · rename_i hi
      have hoff := offsetIn64Bits_of_lt ((hs hp).resolve_right (Nat.not_lt.mpr hi))
      rw [hoff] at hi ⊢
      have hcn {io' : Io Bool} (h : Transfer io _ _ _ _ io') :
          Confined disk .read _ io'.calls :=
        confined_transfer hc (fun _ _ h => h) (by decide) hi h
      refine (mapErr_ends (writeAllFromAtFut_ends host _ _ io)).mono ?_ ?_
      all_goals exact fun _ io' h => ⟨hcn h, fun _ => forall_mem_singleton.mpr hi⟩
    · exact branch_fails hc

lemma armFlushTimer_ends (h : Confined disk reqType named io.calls) :
    Ends (armFlushTimer host io) (fun _ io' => Confined disk reqType named io'.calls)
      (fun e io' => e ≠ .abort ∧ Confined disk reqType named io'.calls) := by
  have hn := h.append_silent .resetOneshot rfl rfl
  unfold armFlushTimer
  rw [get_bind_apply]
  split
  · exact h
  rw [set_bind_apply]
  refine ends_bind ((mapErr_returns (perform_ends host _ _)).mono (fun _ _ h => h) ?_) ?_
  · rintro e io' ⟨he, rfl⟩
    exact ⟨he, hn⟩
  · rintro _ io' rfl
    exact hn

lemma executeWrite_ends (hc : io.calls = []) (hro : disk.readOnly = false)
    (hs : io.reader.availableBytes ≠ 0 → RangeKept disk sector io.reader.availableBytes) :
    BranchEnds disk .write (Chain.named sector io.reader.availableBytes)
      (executeWrite host disk sector io) := by
  unfold executeWrite Chain.named
  rw [get_bind_apply]
  split
  · refine ⟨?_, fun _ => forall_mem_nil _⟩
    rw [hc]
    exact confined_nil
  · rename_i hp
    rw [offsetOf_eq, pure_bind_apply, checkRange_eq]
    split
    · rename_i hi
      have hoff := offsetIn64Bits_of_lt ((hs hp).resolve_right (Nat.not_lt.mpr hi))
      rw [hoff] at hi ⊢
      rw [pure_bind_apply]
      have hn : ∀ r ∈ [(⟨512 * sector.toNat, io.reader.availableBytes⟩ : DiskRange)],
          r.stop ≤ disk.diskSize.toNat := forall_mem_singleton.mpr hi
      have hcn {io' : Io Bool} (h : Transfer io (fun _ => True) _ _ _ io') :
          Confined disk .write _ io'.calls :=
        confined_transfer hc (fun h => absurd h (by rw [hro]; decide)) (by decide) hi h
      refine ends_bind ((mapErr_ends (readExactToAtFut_ends host _ _ io)).mono
        (fun _ _ h => h) ?_) ?_
      · exact fun _ io' h => ⟨hcn h, fun _ => hn⟩
      · intro _ io' h
        refine (armFlushTimer_ends (hcn h)).mono ?_ ?_
        · exact fun _ _ h => ⟨h, fun _ => hn⟩
        · exact fun _ _ h => ⟨h.2, fun _ => hn⟩
    · exact branch_fails hc

lemma executeFlush_ends (hc : io.calls = []) :
    BranchEnds disk .flush [] (executeFlush host io) := by
  have hs : Confined disk .flush [] (io.calls ++ [.fdatasync]) := by
    rw [hc]
    exact confined_nil.append_silent .fdatasync rfl rfl
  have hcl := hs.append_silent .clearTimer rfl rfl
  have hn : ∀ r ∈ ([] : List DiskRange), r.stop ≤ disk.diskSize.toNat := forall_mem_nil _
  refine ends_bind ((mapErr_returns (perform_ends host _ _)).mono (fun _ _ h => h) ?_) ?_
  · rintro e io' ⟨_, rfl⟩
    exact ⟨hs, fun _ => hn⟩
  · rintro _ io' rfl
    rw [get_bind_apply]
    split
    · refine ends_bind ((mapErr_returns (perform_ends host _ _)).mono (fun _ _ h => h) ?_) ?_
      · rintro e io' ⟨_, rfl⟩
        exact ⟨hcl, fun _ => hn⟩
      · rintro _ io' rfl
        exact ⟨hcl, fun _ => hn⟩
    · exact ⟨hs, fun _ => hn⟩

lemma executeGetId_ends {code : BitVec 32} (hc : io.calls = []) :
    BranchEnds disk .getId [] (executeGetId disk code io) := by
  have hn : ∀ r ∈ ([] : List DiskRange), r.stop ≤ disk.diskSize.toNat := forall_mem_nil _
  have hq : Confined disk .getId [] io.calls := by
    rw [hc]
    exact confined_nil
  unfold executeGetId
  cases disk.id with
  | none => exact branch_fails hc
  | some id =>
    refine (mapErr_returns (writeAll_ends id io)).mono ?_ ?_
    · intro _ io' h
      rw [h]
      exact ⟨hq, fun _ => hn⟩
    · rintro e io' ⟨_, h⟩
      rw [h]
      exact ⟨hq, fun _ => hn⟩

/-! ## Segments -/

section
variable (zeroes : Bool) (seg : Segment)

def callAt (off length : Nat) : HostCall :=
  if zeroes then .writeZeroesAt off length else .punchHole off length

lemma callAt_range (off length : Nat) : (callAt zeroes off length).range = some ⟨off, length⟩ := by
  cases zeroes <;> rfl

def segmentCall : HostCall := callAt zeroes seg.range.start seg.range.length

lemma segmentCall_range : (segmentCall zeroes seg).range = some seg.range := callAt_range zeroes _ _

lemma discardOrZero_ends (off length : Nat) (io : Io Bool) :
    Ends (discardOrZero host zeroes seg off length io)
      (fun _ io' => io' = { io with calls := io.calls ++ [callAt zeroes off length] })
      (fun e io' => e ≠ .abort ∧
        io' = { io with calls := io.calls ++ [callAt zeroes off length] }) := by
  cases zeroes with
  | true =>
    exact ends_bind (mapErr_returns (perform_ends host _ io)) fun _ _ h => h
  | false =>
    change Ends (ignore (perform host _) io) _ _
    rw [ignore_perform]
    exact rfl

end

lemma executeSegment_ends {seg : Segment} (ha : sizeOfSegment ≤ io.reader.availableBytes)
    (hs : seg = FromBytes.fromBytes fun i => io.reader.remaining.getD i 0)
    (hsec : seg.Refused disk zeroes ∨ seg.sector.toNat < sectorLimit) :
    Ends (executeSegment host disk zeroes io)
      (fun _ io' => ¬ seg.Refused disk zeroes ∧ seg.range.stop ≤ disk.diskSize.toNat ∧
        io'.reader = io.reader.consume sizeOfSegment ∧
        io'.calls = io.calls ++ [segmentCall zeroes seg])
      (fun e io' => e ≠ .abort ∧ (io'.calls = io.calls ∨
        seg.range.stop ≤ disk.diskSize.toNat ∧
          io'.calls = io.calls ++ [segmentCall zeroes seg])) := by
  unfold executeSegment
  rw [bind_of_ok (mapErr_of_ok (readObj_of_le ha)), ← hs]
  split
  · exact ⟨Stop.returned_ne_abort, .inl rfl⟩
  rename_i hf
  rw [offsetOf_eq, pure_bind_apply, offsetOf_numSectors_eq, pure_bind_apply, checkRange_eq]
  split
  · rename_i hi
    have hnr : ¬ seg.Refused disk zeroes := fun h => h.elim hf (Nat.not_lt.mpr hi)
    rw [offsetIn64Bits_of_lt (hsec.resolve_left hnr)] at hi ⊢
    refine (discardOrZero_ends zeroes seg _ _ _).mono ?_ ?_
    · rintro _ io' rfl
      exact ⟨hnr, hi, rfl, rfl⟩
    · rintro e io' ⟨he, rfl⟩
      exact ⟨he, .inr ⟨hi, rfl⟩⟩
  · exact ⟨Stop.returned_ne_abort, .inl rfl⟩

/-- The segments that the loop got through. -/
structure Worked (disk : DiskState) (zeroes : Bool) (done : List Segment) (io io' : Io Bool) :
    Prop where
  inside : ∀ seg ∈ done, seg.range.stop ≤ disk.diskSize.toNat
  calls : io'.calls = io.calls ++ done.map (segmentCall zeroes)

lemma worked_nil (h : io'.calls = io.calls) :
    Worked disk zeroes [] io io' where
  inside := forall_mem_nil _
  calls := by rw [h, map_nil, append_nil]

lemma Worked.cons {seg : Segment} {io'' : Io Bool}
    (hi : seg.range.stop ≤ disk.diskSize.toNat)
    (hc : io'.calls = io.calls ++ [segmentCall zeroes seg])
    (h : Worked disk zeroes done io' io'') : Worked disk zeroes (seg :: done) io io'' where
  inside:= forall_mem_cons.mpr ⟨hi, h.inside⟩
  calls := by rw [h.calls, hc, map_cons, append_assoc, singleton_append]

/-- **Loop.** The segments are worked through in order, up to the first that fails. -/
lemma executeSegments_ends : ∀ (rounds : Nat) (io : Io Bool),
    rounds * sizeOfSegment ≤ io.reader.availableBytes →
    SegmentsKept disk zeroes (segmentsOf rounds io.reader.remaining) →
    Ends (executeSegments host disk zeroes rounds io)
      (fun _ io' => Worked disk zeroes (segmentsOf rounds io.reader.remaining) io io')
      (fun e io' => e ≠ .abort ∧
        ∃ done, done <+: segmentsOf rounds io.reader.remaining ∧
          Worked disk zeroes done io io') := by
  intro rounds
  induction rounds with
  | zero =>
    intro io _ _
    exact worked_nil rfl
  | succ rounds ih =>
    intro io ha hs
    have ho : sizeOfSegment ≤ io.reader.availableBytes := by
      rw [Nat.succ_mul] at ha
      omega
    unfold executeSegments
    rw [get_bind_apply, if_pos ho]
    refine ends_bind ((executeSegment_ends ho rfl (hs.imp_right (·.1))).mono
      (fun _ _ h => h) ?_) ?_
    · rintro e io' ⟨he, hc | ⟨hi, hc⟩⟩
      · exact ⟨he, [], nil_prefix, worked_nil hc⟩
      · refine ⟨he, [_], ?_, .cons hi hc (worked_nil rfl)⟩
        exact prefix_cons_inj _ |>.mpr nil_prefix
    · rintro _ io' ⟨hnr, hi, hrd, hc⟩
      have ha' : rounds * sizeOfSegment ≤ io'.reader.availableBytes := by
        rw [Nat.succ_mul] at ha
        simp only [hrd, Reader.availableBytes, Reader.consume, length_drop] at ha ⊢
        omega
      have hrem : io'.reader.remaining = io.reader.remaining.drop sizeOfSegment := by
        rw [hrd]
        rfl
      refine (ih io' ha' (hrem ▸ (hs.resolve_left hnr).2)).mono ?_ ?_
      · intro _ io'' h
        rw [hrem] at h
        exact .cons hi hc h
      · rintro e io'' ⟨he, done, hd, h⟩
        rw [hrem] at hd
        exact ⟨he, _ :: done, (prefix_cons_inj _).mpr hd, .cons hi hc h⟩

lemma Worked.confined {segs : List Segment} (h : Worked disk zeroes done io io')
    (hc : io.calls = []) (hro : disk.readOnly = false) (hd : done <+: segs) :
    Confined disk reqType (segs.map (·.range)) io'.calls := by
  have hrn : ranges io'.calls = done.map (·.range) := by
    rw [h.calls, hc, nil_append, ranges, filterMap_map]
    refine (filterMap_congr fun seg _ => segmentCall_range zeroes seg).trans ?_
    exact congrFun filterMap_eq_map done
  have hp := hd.map (·.range)
  refine ⟨?_, ?_, ?_, ?_⟩
  · rw [hrn]
    intro range hr
    obtain ⟨seg, hs, rfl⟩ := mem_map.mp hr
    exact ⟨_, hp.subset hr, h.inside seg hs, Nat.le_refl _, rfl⟩
  · rw [hrn]
    exact IsPrefix.trans ( take_prefix _ _) hp
  · rw [hrn]
    exact fun _ => hp
  · rw [hro]
    exact fun h => absurd h (by decide)

lemma executeDiscardWriteZeroes_ends (hc : io.calls = []) (hro : disk.readOnly = false)
    (ht : zeroes = false → reqType = .discard)
    (hsc : (zeroes = false → disk.sparse = true) → SegmentsKept disk zeroes
      (segmentsOf (io.reader.availableBytes / sizeOfSegment) io.reader.remaining)) :
    BranchEnds disk reqType
      ((segmentsOf (io.reader.availableBytes / sizeOfSegment) io.reader.remaining).map (·.range))
      (executeDiscardWriteZeroes host disk zeroes io) := by
  unfold executeDiscardWriteZeroes
  split
  · rename_i hs
    simp only [Bool.and_eq_true, Bool.not_eq_true'] at hs
    refine ⟨?_, fun h => absurd (ht hs.1) h⟩
    rw [hc]
    exact confined_nil
  · rename_i hs
    have hsp : zeroes = false → disk.sparse = true := by
      rintro rfl
      simpa using hs
    rw [get_bind_apply]
    refine (executeSegments_ends _ io (Nat.div_mul_le_self _ _) (hsc hsp)).mono ?_ ?_
    · intro _ io' h
      exact ⟨h.confined hc hro (prefix_refl _), fun _ => forall_mem_map.mpr h.inside⟩
    · rintro e io' ⟨he, done, hd, h⟩
      exact ⟨h.confined hc hro hd, fun h => absurd h he⟩

end

/-! ## Requests -/

lemma executeType_ends {host : Host} {disk : DiskState} {chain : Chain} {io : Io Bool}
    (hrd : io.reader.remaining = chain.body)
    (hwr : io.writer.availableBytes = chain.writable - 1) (hc : io.calls = [])
    (hro : chain.reqType.needsWrite → disk.readOnly = false)
    (hsc : BranchKept disk chain) :
    BranchEnds disk chain.reqType chain.namedRanges (executeType host disk chain.header io) := by
  have ha : io.reader.availableBytes = chain.body.length := congrArg length hrd
  have hs : segmentsOf (io.reader.availableBytes / sizeOfSegment) io.reader.remaining =
      chain.segments := by
    rw [ha, hrd]
    rfl
  unfold BranchKept at hsc
  unfold executeType Chain.namedRanges
  rw [← Chain.reqType]
  cases ht : chain.reqType with
  | read =>
    rw [ht, ← hwr] at hsc
    rw [← hwr]
    exact executeRead_ends hc hsc
  | write =>
    rw [ht, ← ha] at hsc
    rw [ht] at hro
    rw [← ha]
    exact executeWrite_ends hc (hro rfl) hsc
  | flush => exact executeFlush_ends hc
  | getId => exact executeGetId_ends hc
  | discard =>
    rw [ht, ← hs] at hsc
    rw [ht] at hro
    rw [← hs]
    exact executeDiscardWriteZeroes_ends hc (hro rfl) (fun _ => rfl) fun h => hsc (h rfl)
  | writeZeroes =>
    rw [ht, ← hs] at hsc
    rw [ht] at hro
    rw [← hs]
    exact executeDiscardWriteZeroes_ends hc (hro rfl) nofun fun _ => hsc
  | unknown => exact branch_fails hc

lemma executeRequest_ends (host : Host) (disk : DiskState) (chain : Chain) (io : Io Bool)
    (hrd : io.reader.remaining = chain.readable)
    (hwr : io.writer.availableBytes = chain.writable - 1) (hc : io.calls = [])
    (hs : FromBytes.size ReqHeader ≤ chain.readable.length →
      (disk.readOnly && chain.reqType.needsWrite) = false → BranchKept disk chain) :
    BranchEnds disk chain.reqType chain.namedRanges (executeRequest host disk io) := by
  have hh : (FromBytes.fromBytes fun i => io.reader.remaining.getD i 0) = chain.header := by
    rw [hrd]
    rfl
  unfold executeRequest
  rcases Nat.lt_or_ge io.reader.availableBytes (FromBytes.size ReqHeader) with hsh | hl
  · rw [bind_of_error (mapErr_of_returned (readObj_of_lt hsh))]
    exact branch_fails hc
  · rw [bind_of_ok (mapErr_of_ok (readObj_of_le hl)), hh, ← Chain.reqType]
    split
    · exact branch_fails hc
    rename_i hro
    have hlen : FromBytes.size ReqHeader ≤ chain.readable.length := by
      rwa [← hrd]
    refine executeType_ends ?_ hwr hc ?_ (hs hlen (Bool.not_eq_true _ ▸ hro))
    · dsimp only [Reader.consume]
      rw [hrd]
      rfl
    · intro hn
      simpa [hn] using hro

/-- What a request may do. It touches only bytes that the guest named and that lie inside the disk,
from the first named byte on; if a range that may not be passed over is not inside the disk, the
status is an error; and a read-only disk is not changed. Without room for the status nothing is
done. -/
def RequestConfined (disk : DiskState) (chain : Chain)
    (r : EStateM.Result (Stop ExecuteError) (Io Bool) (BitVec 8 × Nat)) : Prop :=
  Ends r
    (fun answer io' => Confined disk chain.reqType chain.namedRanges io'.calls ∧
      (OutOfRange disk chain → answer.1 ≠ statusOk))
    (fun e io' => Confined disk chain.reqType chain.namedRanges io'.calls ∧
      (e = .returned .missingStatus ∧ chain.writable = 0 ∧ io'.calls = [] ∨
        e = .abort ∧ ¬ OutOfRange disk chain))

lemma requestConfined_of_kept (host : Host) {disk : DiskState} {chain : Chain} (armed : Bool)
    (hk : RequestKept disk chain) :
    RequestConfined disk chain (processOneRequest host disk (chain.io armed)) := by
  have ho : (chain.reqType ≠ .discard →
      ∀ r ∈ chain.namedRanges, r.stop ≤ disk.diskSize.toNat) → ¬ OutOfRange disk chain := by
    rintro ha ⟨ht, r, hr, hlt⟩
    exact absurd (ha ht r hr) (Nat.not_le.mpr hlt)
  unfold processOneRequest RequestConfined
  rcases Nat.eq_zero_or_pos chain.writable with hn | hp
  · simp only [Chain.io, hn]
    exact ⟨confined_nil, .inl ⟨rfl, trivial, rfl⟩⟩
  · have hs : checkedSub (chain.io armed).writer.availableBytes 1 = some (chain.writable - 1) :=
      if_pos hp
    have hrun := executeRequest_ends host disk chain { chain.io armed with
        writer := { (chain.io armed).writer with availableBytes := chain.writable - 1 } }
      rfl rfl rfl (hk (Nat.pos_iff_ne_zero.mp hp))
    simp only [hs]
    revert hrun
    cases executeRequest host disk _ with
    | ok a io' =>
      rintro ⟨hc, ha⟩
      exact ⟨hc, fun hout => absurd hout (ho ha)⟩
    | error e io' =>
      rintro ⟨hc, ha⟩
      cases e with
      | abort => exact ⟨hc, .inr ⟨rfl, ho fun _ => ha rfl⟩⟩
      | returned e => exact ⟨hc, fun _ => e.status_ne_ok⟩

/-! ## Ranges that are not kept -/

section
variable {host : Host} {disk : DiskState} {io : Io Bool} {zeroes : Bool} {sector : BitVec 64}

/-- The bytes of a wrapped offset are not among the named ones. -/
lemma not_confined_of_mem {length : Nat} {reqType : RequestType} {calls : List HostCall}
    (hp : length ≠ 0) (hs : ¬ RangeKept disk sector length)
    (hm : ⟨offsetIn64Bits sector, length⟩ ∈ ranges calls) :
    ¬ Confined disk reqType (Chain.named sector length) calls := by
  intro hc
  obtain ⟨r, hr, -, hst, -⟩ := hc.inside _ hm
  rw [Chain.named, if_neg hp, mem_singleton] at hr
  subst hr
  exact absurd (offsetIn64Bits_lt fun h => hs (.inl h)) (Nat.not_lt.mpr hst)

lemma executeRead_strays (hp : io.writer.availableBytes ≠ 0)
    (hs : ¬ RangeKept disk sector io.writer.availableBytes) :
    Leaves (executeRead host disk sector io) fun io' =>
      ¬ Confined disk .read (Chain.named sector io.writer.availableBytes) io'.calls := by
  have hi := Nat.not_lt.mp fun h => hs (.inr h)
  unfold executeRead
  rw [get_bind_apply, if_neg hp, offsetOf_eq, pure_bind_apply, checkRange_eq, if_pos hi]
  refine Leaves.imp (mapErr_ends (writeAllFromAtFut_ends host _ _ io)) fun io' h => ?_
  have hm := h.first_mem hp
  rw [Nat.min_self] at hm
  exact not_confined_of_mem hp hs hm

lemma executeWrite_strays (hp : io.reader.availableBytes ≠ 0)
    (hs : ¬ RangeKept disk sector io.reader.availableBytes) :
    Leaves (executeWrite host disk sector io) fun io' =>
      ¬ Confined disk .write (Chain.named sector io.reader.availableBytes) io'.calls := by
  have hi := Nat.not_lt.mp fun h => hs (.inr h)
  unfold executeWrite
  rw [get_bind_apply, if_neg hp, offsetOf_eq, pure_bind_apply, checkRange_eq, if_pos hi,
    pure_bind_apply]
  have hm {io' : Io Bool} (h : Transfer io (fun _ => True) io.reader.availableBytes
      (offsetIn64Bits sector) io.reader.availableBytes io') :
      ⟨offsetIn64Bits sector, io.reader.availableBytes⟩ ∈ ranges io'.calls := by
    have hf := h.first_mem hp
    rwa [Nat.min_self] at hf
  refine ends_bind ((mapErr_ends (readExactToAtFut_ends host _ _ io)).mono
    (fun _ _ h => hm h) fun _ _ h => not_confined_of_mem hp hs (hm h)) fun _ io' h => ?_
  -- arming the timer touches no byte
  unfold armFlushTimer
  rw [get_bind_apply]
  split
  · exact not_confined_of_mem hp hs h
  rw [set_bind_apply]
  have hn : ⟨offsetIn64Bits sector, io.reader.availableBytes⟩ ∈
      ranges (io'.calls ++ [HostCall.resetOneshot]) := by
    rw [ranges, filterMap_append]
    exact mem_append_left _ h
  refine ends_bind ((mapErr_returns (perform_ends host _ _)).mono (fun _ _ h => h) ?_) ?_
  · rintro e io'' ⟨-, rfl⟩
    exact not_confined_of_mem hp hs hn
  · rintro _ io'' rfl
    exact not_confined_of_mem hp hs hn

/-- A segment that is not refused is worked on where the code computes it. -/
lemma executeSegment_of_not_refused {seg : Segment}
    (ha : sizeOfSegment ≤ io.reader.availableBytes)
    (hs : seg = FromBytes.fromBytes fun i => io.reader.remaining.getD i 0)
    (hnr : ¬ seg.Refused disk zeroes) :
    executeSegment obligingHost disk zeroes io = .ok () { io with
      reader := io.reader.consume sizeOfSegment
      calls := io.calls ++ [callAt zeroes (offsetIn64Bits seg.sector)
        (512 * seg.numSectors.toNat)] } := by
  obtain ⟨hf, hi⟩ := not_or.mp hnr
  unfold executeSegment
  rw [bind_of_ok (mapErr_of_ok (readObj_of_le ha)), ← hs, if_neg hf, offsetOf_eq, pure_bind_apply,
    offsetOf_numSectors_eq, pure_bind_apply, checkRange_eq, if_pos (Nat.not_lt.mp hi),
    pure_bind_apply]
  cases zeroes <;> rfl

lemma keeps_executeSegments (pre : List HostCall) (rounds : Nat) :
    Keeps True (pre <+: ·) (executeSegments host disk zeroes rounds) := by
  have hstep : Keeps True (pre <+: ·) (executeSegment host disk zeroes) := by
    refine (keeps_readObj Segment).mapErr.bind fun seg => ?_
    refine keeps_ite (fun _ => keeps_fail _) fun _ => ?_
    rw [offsetOf_eq, offsetOf_numSectors_eq]
    refine (keeps_pure _).bind fun off => (keeps_pure _).bind fun length => ?_
    rw [checkRange_eq]
    refine (keeps_ite (fun _ => keeps_pure _) fun _ => keeps_fail _).bind fun _ io hio => ?_
    have hm := hio.trans (prefix_append io.calls [callAt zeroes off length])
    refine (discardOrZero_ends zeroes seg off length io).mono ?_ ?_
    · rintro _ _ rfl
      exact hm
    · rintro e _ ⟨_, rfl⟩
      exact ⟨fun _ => trivial, hm⟩
  induction rounds with
  | zero => exact keeps_pure _
  | succ rounds ih =>
    exact keeps_get.bind fun _ => keeps_ite (fun _ => hstep.bind fun _ => ih) fun _ => keeps_pure _

/-- **Loop.** A segment whose offset wraps around is worked on elsewhere. -/
lemma executeSegments_strays : ∀ (rounds : Nat) (io : Io Bool),
    rounds * sizeOfSegment ≤ io.reader.availableBytes →
    ¬ SegmentsKept disk zeroes (segmentsOf rounds io.reader.remaining) →
    Leaves (executeSegments obligingHost disk zeroes rounds io) fun io' =>
      ∃ calls, io'.calls = io.calls ++ calls ∧
        ¬ ranges calls <+: (segmentsOf rounds io.reader.remaining).map (·.range) := by
  intro rounds
  induction rounds with
  | zero => exact fun io _ h => absurd trivial h
  | succ rounds ih =>
    intro io ha hs
    have ho : sizeOfSegment ≤ io.reader.availableBytes := by
      rw [Nat.succ_mul] at ha
      omega
    obtain ⟨hnr, hs⟩ := not_or.mp hs
    unfold executeSegments
    rw [get_bind_apply, if_pos ho, bind_of_ok (executeSegment_of_not_refused ho rfl hnr)]
    set seg : Segment := FromBytes.fromBytes fun i => io.reader.remaining.getD i 0 with hseg
    by_cases hsec : seg.sector.toNat < sectorLimit
    · -- this one is worked on where it lies, a later one is not
      rw [offsetIn64Bits_of_lt hsec]
      have ha' : rounds * sizeOfSegment ≤ (io.reader.consume sizeOfSegment).availableBytes := by
        rw [Nat.succ_mul] at ha
        simp only [Reader.availableBytes, Reader.consume, length_drop] at ha ⊢
        omega
      refine (ih _ ha' fun h => hs ⟨hsec, h⟩).imp ?_
      rintro io' ⟨calls, hc, hn⟩
      refine ⟨segmentCall zeroes seg :: calls, ?_, fun hp => ?_⟩
      · rw [hc, append_assoc, singleton_append]
        rfl
      · rw [ranges, filterMap_cons_some (segmentCall_range _ _), segmentsOf, map_cons] at hp
        exact hn ((prefix_cons_inj _).mp hp)
    · have hn {io' : Io Bool} (h : io.calls ++ [callAt zeroes (offsetIn64Bits seg.sector)
          (512 * seg.numSectors.toNat)] <+: io'.calls) : ∃ calls, io'.calls = io.calls ++ calls ∧
          ¬ ranges calls <+: (segmentsOf (rounds + 1) io.reader.remaining).map (·.range) := by
        obtain ⟨more, hc⟩ := h
        refine ⟨_, by rw [← hc, append_assoc], fun hp => ?_⟩
        rw [singleton_append, ranges, filterMap_cons_some (callAt_range _ _ _), segmentsOf,
          map_cons, cons_prefix_cons] at hp
        exact absurd (congrArg DiskRange.start hp.1) (offsetIn64Bits_lt hsec).ne
      exact (keeps_executeSegments _ rounds _ (prefix_refl _)).mono (fun _ _ h => hn h)
        fun _ _ h => hn h.2

lemma executeDiscardWriteZeroes_strays {reqType : RequestType} (hc : io.calls = [])
    (ht : reqType = .discard ∨ reqType = .writeZeroes) (hsp : zeroes = false → disk.sparse = true)
    (hs : ¬ SegmentsKept disk zeroes
      (segmentsOf (io.reader.availableBytes / sizeOfSegment) io.reader.remaining)) :
    Leaves (executeDiscardWriteZeroes obligingHost disk zeroes io) fun io' =>
      ¬ Confined disk reqType
      ((segmentsOf (io.reader.availableBytes / sizeOfSegment) io.reader.remaining).map (·.range))
      io'.calls := by
  unfold executeDiscardWriteZeroes
  rw [if_neg (by cases zeroes <;> simp_all), get_bind_apply]
  refine (executeSegments_strays _ io (Nat.div_mul_le_self _ _) hs).imp ?_
  rintro io' ⟨calls, hcl, hn⟩ hconf
  rw [hcl, hc, nil_append] at hconf
  exact hn (hconf.segments ht)

lemma executeType_strays {chain : Chain} (hrd : io.reader.remaining = chain.body)
    (hwr : io.writer.availableBytes = chain.writable - 1) (hc : io.calls = [])
    (hs : ¬ BranchKept disk chain) :
    Leaves (executeType obligingHost disk chain.header io) fun io' =>
      ¬ Confined disk chain.reqType chain.namedRanges io'.calls := by
  have ha : io.reader.availableBytes = chain.body.length := congrArg length hrd
  have hseg : segmentsOf (io.reader.availableBytes / sizeOfSegment) io.reader.remaining =
      chain.segments := by
    rw [ha, hrd]
    rfl
  unfold BranchKept at hs
  unfold executeType Chain.namedRanges
  rw [← Chain.reqType]
  cases ht : chain.reqType with
  | read =>
    rw [ht, ← hwr] at hs
    obtain ⟨hp, hs⟩ := Classical.not_imp.mp hs
    rw [← hwr]
    exact executeRead_strays hp hs
  | write =>
    rw [ht, ← ha] at hs
    obtain ⟨hp, hs⟩ := Classical.not_imp.mp hs
    rw [← ha]
    exact executeWrite_strays hp hs
  | discard =>
    rw [ht, ← hseg] at hs
    obtain ⟨hp, hs⟩ := Classical.not_imp.mp hs
    rw [← hseg]
    exact executeDiscardWriteZeroes_strays hc (.inl rfl) (fun _ => hp) hs
  | writeZeroes =>
    rw [ht, ← hseg] at hs
    rw [← hseg]
    exact executeDiscardWriteZeroes_strays hc (.inr rfl) nofun hs
  | flush | getId | unknown =>
    rw [ht] at hs
    exact absurd trivial hs

end

/-- **Confinement.** Whatever the host answers, a request does what it may, exactly if its ranges
are kept. -/
theorem request_confined_iff (disk : DiskState) (chain : Chain) :
    (∀ host armed, RequestConfined disk chain (processOneRequest host disk (chain.io armed))) ↔
      RequestKept disk chain := by
  refine ⟨fun h hw hl hro => ?_, fun h host armed => requestConfined_of_kept host armed h⟩
  by_contra hs
  replace h := h obligingHost false
  have hsub : checkedSub (chain.io false).writer.availableBytes 1 = some (chain.writable - 1) :=
    if_pos (Nat.pos_of_ne_zero hw)
  have hrun : executeRequest obligingHost disk { chain.io false with
      writer := { (chain.io false).writer with availableBytes := chain.writable - 1 } } =
      executeType obligingHost disk chain.header { chain.io false with
        reader := (chain.io false).reader.consume (FromBytes.size ReqHeader)
        writer := { (chain.io false).writer with availableBytes := chain.writable - 1 } } := by
    unfold executeRequest
    rw [bind_of_ok (mapErr_of_ok (readObj_of_le (by exact hl))),
      if_neg (by exact Bool.not_eq_true _ ▸ hro)]
    rfl
  have hstray := @executeType_strays disk { chain.io false with
    reader := (chain.io false).reader.consume (FromBytes.size ReqHeader)
    writer := { (chain.io false).writer with availableBytes := chain.writable - 1 } }
    chain rfl rfl rfl hs
  unfold RequestConfined processOneRequest at h
  simp only [hsub] at h
  rw [hrun] at h
  revert h hstray
  cases executeType obligingHost disk chain.header _ with
  | ok a io' => exact fun hn h => hn h.1
  | error e io' => cases e <;> exact fun hn h => hn h.1

def twoSectors : DiskState where
  diskSize := 1024
  readOnly := false
  sparse := false
  id := none

def readOneByte (sector : BitVec 64) : Chain where
  readable := List.replicate 8 0 ++ leBytes64 sector
  writable := 2

/-- The offset of sector `2 ^ 55` wraps to the start of the disk: the first byte is read, and the
status is good. -/
theorem wrapped_sector_is_read :
    OutOfRange twoSectors (readOneByte 0x80000000000000) ∧
      processOneRequest obligingHost twoSectors ((readOneByte 0x80000000000000).io false) =
        .ok (statusOk, 2) ⟨⟨[], 16, 0⟩, ⟨0, [0]⟩, [.readToMem 0 1], false⟩ := by
  refine ⟨⟨by decide, ⟨512 * 0x80000000000000, 1⟩, ?_, by decide⟩, rfl⟩
  exact mem_singleton_self _

end GunyahVmm.Virtio.Block
