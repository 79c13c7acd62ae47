import Mathlib.Data.List.Induction

/-! Block transfers of the GPU driver: `GopBlt`. No row of the source is overwritten before it is
read. -/

namespace GunyahVmm.VirtioGpu
open List

inductive EfiStatus where
  | success
  | invalidParameter
  | failed (code : Nat)
  deriving DecidableEq

/-- The last one is a number that is none of the four. -/
inductive BltOperation where
  | videoFill
  | videoToBltBuffer
  | bufferToVideo
  | videoToVideo
  | other
  deriving DecidableEq

structure BltArgs where
  operation : BltOperation
  sourceX : Nat
  sourceY : Nat
  destinationX : Nat
  destinationY : Nat
  width : Nat
  height : Nat
  delta : Nat

/-- The bytes of a buffer are those below its size. -/
structure Buffer where
  size : Nat
  bytes : Nat → BitVec 8

structure VgpuGop where
  horizontal : Nat
  vertical : Nat
  backingStore : Buffer
  size_eq : backingStore.size = 4 * (horizontal * vertical)

/-- The statuses of the commands that show what was drawn. -/
structure Host where
  transferToHost2d : EfiStatus
  resourceFlush : EfiStatus

/-- The status, the back buffer and the caller's buffer after a call. -/
structure Blitted where
  status : EfiStatus
  backingStore : Buffer
  bltBuffer : Buffer

def Buffer.put (buf : Buffer) (dest n : Nat) (data : Nat → BitVec 8) : Buffer where
  size := buf.size
  bytes i := if dest ≤ i ∧ i < dest + n then data (i - dest) else buf.bytes i

/-- The source is read before anything is written; `none` if an access leaves its buffer. -/
def copyMem (buf : Buffer) (dest : Nat) (src : Buffer) (source n : Nat) : Option Buffer :=
  if dest + n ≤ buf.size ∧ source + n ≤ src.size then
    some (buf.put dest n fun k => src.bytes (source + k))
  else none

/-- Fill with the first four bytes of a buffer. -/
def setMem32 (buf : Buffer) (dest n : Nat) (value : Buffer) : Option Buffer :=
  if dest + n ≤ buf.size ∧ 4 ≤ value.size then some (buf.put dest n fun k => value.bytes (k % 4))
  else none

def BltOperation.writesVideo (op : BltOperation) : Bool :=
  op = .videoFill || op = .bufferToVideo || op = .videoToVideo

def BltOperation.readsVideo (op : BltOperation) : Bool :=
  op = .videoToBltBuffer || op = .videoToVideo

section
variable (gop : VgpuGop) (buffer : Buffer) (args : BltArgs) (x y : Nat)

def BltArgs.segmentSize : Nat := args.width * 4

def BltArgs.stride : Nat := if args.delta = 0 then args.segmentSize else args.delta

def BltArgs.inBuffer : Nat := y * args.stride + x * 4

def VgpuGop.inVideo : Nat := 4 * (y * gop.horizontal + x)

/-! The offsets of row `y` of the source and of the destination. -/

def videoSource : Nat := gop.inVideo args.sourceX (args.sourceY + y)

def videoDestination : Nat := gop.inVideo args.destinationX (args.destinationY + y)

def bufferSource : Nat := args.inBuffer args.sourceX (args.sourceY + y)

def bufferDestination : Nat := args.inBuffer args.destinationX (args.destinationY + y)

def Fits : Prop :=
  x ≤ gop.horizontal ∧ args.width ≤ gop.horizontal - x ∧
    y ≤ gop.vertical ∧ args.height ≤ gop.vertical - y

instance : Decidable (Fits gop args x y) := inferInstanceAs (Decidable (_ ∧ _))

def gopBlt (host : Host) : Option Blitted :=
  let invalid := some ⟨.invalidParameter, gop.backingStore, buffer⟩
  let shown (back : Buffer) : Blitted :=
    ⟨if host.transferToHost2d = .success then host.resourceFlush else host.transferToHost2d,
      back, buffer⟩
  let rows := range args.height
  let n := args.segmentSize
  if args.operation.writesVideo ∧ ¬ Fits gop args args.destinationX args.destinationY then invalid
  else if args.operation.readsVideo ∧ ¬ Fits gop args args.sourceX args.sourceY then invalid
  else
    match args.operation with
    | .videoFill => (rows.foldlM (fun back y =>
        setMem32 back (videoDestination gop args y) n buffer) gop.backingStore).map shown
    | .videoToBltBuffer => (rows.foldlM (fun buf y =>
        copyMem buf (bufferDestination args y) gop.backingStore (videoSource gop args y) n)
        buffer).map fun buf => ⟨.success, gop.backingStore, buf⟩
    | .bufferToVideo => (rows.foldlM (fun back y =>
        copyMem back (videoDestination gop args y) buffer (bufferSource args y) n)
        gop.backingStore).map shown
    | .videoToVideo =>
      ((if args.sourceY < args.destinationY then rows.reverse else rows).foldlM (fun back y =>
        copyMem back (videoDestination gop args y) back (videoSource gop args y) n)
        gop.backingStore).map shown
    | .other => invalid

end

/-- The rows are written at their places with the given bytes, and nothing else is. -/
structure Painted (n : Nat) (place : Nat → Nat) (row : Nat → Nat → BitVec 8) (ys : List Nat)
    (before after : Buffer) : Prop where
  size : after.size = before.size
  inside : ∀ y ∈ ys, ∀ k < n, after.bytes (place y + k) = row y k
  outside : ∀ i, (∀ y ∈ ys, ¬ (place y ≤ i ∧ i < place y + n)) → after.bytes i = before.bytes i

def Apart (n a b : Nat) : Prop := a + n ≤ b ∨ b + n ≤ a

section
variable {n : Nat} {p q : Nat → Nat} {r : Nat → Nat → BitVec 8} {ys : List Nat}
  {before : Buffer} (hapart : ys.Pairwise fun y y' => Apart n (p y) (p y'))

include hapart

/-- **Loop.** The rows are apart, and each has its bytes when it is its turn. -/
lemma foldlM_painted {f : Buffer → Nat → Option Buffer}
    (hr : ∀ done y rest mid, ys = done ++ y :: rest → Painted n p r done before mid →
      ∃ data, f mid y = some (mid.put (p y) n data) ∧ ∀ k < n, data k = r y k) :
    ∃ after, ys.foldlM f before = some after ∧ Painted n p r ys before after := by
  induction ys using reverseRecOn with
  | nil => exact ⟨before, rfl, rfl, by simp, fun _ _ => rfl⟩
  | append_singleton ys y ih =>
    rw [pairwise_append] at hapart
    obtain ⟨mid, hm, hp⟩ := ih hapart.1
      fun done y' rest mid hys => hr done y' (rest ++ [y]) mid (by simp [hys])
    obtain ⟨data, hf, hd⟩ := hr ys y [] mid rfl hp
    refine ⟨mid.put (p y) n data, ?_, hp.size, ?_, ?_⟩
    · rw [foldlM_append, hm]
      simp [hf]
    · intro y' hy' k hk
      dsimp only [Buffer.put]
      rcases mem_append.mp hy' with ho | hn
      · have hne := hapart.2.2 y' ho y (by simp)
        unfold Apart at hne
        rw [if_neg (by omega), hp.inside y' ho k hk]
      · rw [mem_singleton.mp hn, if_pos (by omega), Nat.add_sub_cancel_left, hd k hk]
    · intro i hi
      dsimp only [Buffer.put]
      rw [if_neg (hi y (by simp)), hp.outside i fun y' hy' => hi y' (mem_append_left _ hy')]

lemma put_painted {readable : Nat → Prop} [DecidablePred readable]
    (hf : ∀ y ∈ ys, p y + n ≤ before.size ∧ readable y) :
    ∃ after, ys.foldlM (fun buf y => if p y + n ≤ buf.size ∧ readable y then
        some (buf.put (p y) n (r y)) else none) before = some after ∧
      Painted n p r ys before after := by
  refine foldlM_painted hapart fun done y rest mid hys hm => ⟨r y, ?_, fun _ _ => rfl⟩
  rw [hm.size, if_pos (hf y (hys ▸ by simp))]

/-- Within one buffer, no row of the source is one that was written before it is read. -/
lemma copyMem_painted
    (hf : ∀ y ∈ ys, p y + n ≤ before.size ∧ q y + n ≤ before.size)
    (hr : ys.Pairwise fun y y' => Apart n (p y) (q y')) :
    ∃ after, ys.foldlM (fun buf y => copyMem buf (p y) buf (q y) n) before = some after ∧
      Painted n p (fun y k => before.bytes (q y + k)) ys before after := by
  refine foldlM_painted hapart fun done y rest mid hys hm => ?_
  rw [copyMem, hm.size, if_pos (hf y (hys ▸ by simp))]
  refine ⟨_, rfl, fun k hk => hm.outside _ fun y' hy' => ?_⟩
  have hne := (pairwise_append.mp (hys ▸ hr)).2.2 y' hy' y mem_cons_self
  unfold Apart at hne
  omega

end

variable {gop : VgpuGop} {args : BltArgs} {x x' y y' n : Nat}

lemma Fits.inVideo_le (h : Fits gop args x y) {k : Nat} (hk : k < args.height) :
    gop.inVideo x (y + k) + args.segmentSize ≤ gop.backingStore.size := by
  obtain ⟨hx, hw, hy, hh⟩ := h
  have hm := Nat.mul_le_mul_right gop.horizontal (show y + k + 1 ≤ gop.vertical by omega)
  rw [Nat.succ_mul, Nat.mul_comm gop.vertical] at hm
  rw [gop.size_eq]
  unfold VgpuGop.inVideo BltArgs.segmentSize
  omega

lemma apart_of_ne {stride : Nat} (hx : x + n ≤ stride + x') (hx' : x' + n ≤ stride + x)
    (hne : y ≠ y') : Apart n (y * stride + x) (y' * stride + x') := by
  unfold Apart
  rcases Nat.lt_or_gt_of_ne hne with hlt | hgt
  · have hm := Nat.mul_le_mul_right stride (Nat.succ_le_of_lt hlt)
    rw [Nat.succ_mul] at hm
    omega
  · have hm := Nat.mul_le_mul_right stride (Nat.succ_le_of_lt hgt)
    rw [Nat.succ_mul] at hm
    omega

/-- Parts of different lines of the display have no byte in common. -/
lemma Fits.apart {r r' : Nat} (h : Fits gop args x r) (h' : Fits gop args x' r') (hne : y ≠ y') :
    Apart args.segmentSize (gop.inVideo x y) (gop.inVideo x' y') := by
  obtain ⟨hx, hw, -, -⟩ := h
  obtain ⟨hx', hw', -, -⟩ := h'
  have hapart := @apart_of_ne x x' y y' args.width gop.horizontal (by omega) (by omega) hne
  unfold Apart VgpuGop.inVideo BltArgs.segmentSize at *
  omega

/-- The rectangle of the destination holds what that of the source held, and all else is as
before. -/
def Drawn (gop : VgpuGop) (buffer : Buffer) (args : BltArgs) (result : Blitted) : Prop :=
  let video (row : Nat → Nat → BitVec 8) := result.bltBuffer = buffer ∧
    Painted args.segmentSize (videoDestination gop args) row (range args.height) gop.backingStore
      result.backingStore
  match args.operation with
  | .videoFill => video fun _ k => buffer.bytes (k % 4)
  | .videoToBltBuffer => result.backingStore = gop.backingStore ∧
    Painted args.segmentSize (bufferDestination args)
      (fun y k => gop.backingStore.bytes (videoSource gop args y + k)) (range args.height) buffer
      result.bltBuffer
  | .bufferToVideo => video fun y k => buffer.bytes (bufferSource args y + k)
  | .videoToVideo => video fun y k => gop.backingStore.bytes (videoSource gop args y + k)
  | .other => result = ⟨.invalidParameter, gop.backingStore, buffer⟩

/-- The caller's buffer is large enough, and rows that are written to it do not overlap. -/
def Suffices (buffer : Buffer) (args : BltArgs) : Prop :=
  match args.operation with
  | .videoFill => 4 ≤ buffer.size
  | .videoToBltBuffer => (1 < args.height → args.segmentSize ≤ args.stride) ∧
    ∀ y < args.height, bufferDestination args y + args.segmentSize ≤ buffer.size
  | .bufferToVideo => ∀ y < args.height, bufferSource args y + args.segmentSize ≤ buffer.size
  | _ => True

lemma exists_map {x : Option Buffer} {g : Buffer → Blitted} {P : Buffer → Prop}
    {Q : Blitted → Prop} (h : ∃ buf, x = some buf ∧ P buf) (hQ : ∀ buf, P buf → Q (g buf)) :
    ∃ result, x.map g = some result ∧ Q result := by
  obtain ⟨buf, rfl, hb⟩ := h
  exact ⟨_, rfl, hQ buf hb⟩

/-- **Blt.** -/
theorem blt_exact (gop : VgpuGop) (buffer : Buffer) (args : BltArgs) (host : Host)
    (hdest : args.operation.writesVideo → Fits gop args args.destinationX args.destinationY)
    (hsource : args.operation.readsVideo → Fits gop args args.sourceX args.sourceY)
    (hbuffer : Suffices buffer args) :
    ∃ result, gopBlt gop buffer args host = some result ∧ Drawn gop buffer args result := by
  have hr := pairwise_lt_range (n := args.height)
  unfold gopBlt Drawn
  dsimp only
  rw [if_neg (by tauto), if_neg (by tauto)]
  unfold Suffices at hbuffer
  cases hc : args.operation with
  | other => exact ⟨_, rfl, rfl⟩
  | videoFill =>
    simp only [hc] at hdest hbuffer
    have hf := hdest rfl
    refine exists_map (put_painted (p := videoDestination gop args)
      (hr.imp fun h => hf.apart hf (by omega)) fun y hy => ?_) fun _ h => ⟨rfl, h⟩
    exact ⟨hf.inVideo_le (mem_range.mp hy), hbuffer⟩
  | videoToBltBuffer =>
    simp only [hc] at hsource hbuffer
    have hapart : (range args.height).Pairwise fun y y' => Apart args.segmentSize
        (bufferDestination args y) (bufferDestination args y') := by
      refine hr.imp_of_mem fun {y y'} _ hy' h => ?_
      have hs := hbuffer.1 (by rw [mem_range] at hy'; omega)
      exact apart_of_ne (by omega) (by omega) (by omega)
    refine exists_map (put_painted hapart fun y hy => ?_) fun _ h => ⟨rfl, h⟩
    exact ⟨hbuffer.2 y (mem_range.mp hy), (hsource rfl).inVideo_le (mem_range.mp hy)⟩
  | bufferToVideo =>
    simp only [hc] at hdest hbuffer
    have hf := hdest rfl
    refine exists_map (put_painted (p := videoDestination gop args)
      (hr.imp fun h => hf.apart hf (by omega)) fun y hy => ?_) fun _ h => ⟨rfl, h⟩
    exact ⟨hf.inVideo_le (mem_range.mp hy), hbuffer y (mem_range.mp hy)⟩
  | videoToVideo =>
    simp only [hc] at hdest hsource
    have hf := hdest rfl
    have hf' := hsource rfl
    have hin (y : Nat) (hy : y ∈ range args.height) :=
      And.intro (hf.inVideo_le (mem_range.mp hy)) (hf'.inVideo_le (mem_range.mp hy))
    have hapart {y y' : Nat} (h : y ≠ y') := hf.apart hf (by omega :
      args.destinationY + y ≠ args.destinationY + y')
    dsimp only
    -- From the last row up where the source lies above the destination, and down otherwise.
    by_cases ha : args.sourceY < args.destinationY
    · rw [if_pos ha]
      refine exists_map (copyMem_painted (p := videoDestination gop args)
        (q := videoSource gop args)
        (pairwise_reverse.mpr (hr.imp fun h => hapart (Nat.ne_of_gt h)))
        (fun y hy => hin y (mem_reverse.mp hy))
        (pairwise_reverse.mpr (hr.imp fun h => hf.apart hf' (by omega)))) fun _ h => ?_
      exact ⟨rfl, h.size, fun y hy => h.inside y (mem_reverse.mpr hy),
        fun i hi => h.outside i fun y hy => hi y (mem_reverse.mp hy)⟩
    · rw [if_neg ha]
      exact exists_map (copyMem_painted (p := videoDestination gop args)
        (q := videoSource gop args) (hr.imp fun h => hapart (Nat.ne_of_lt h)) hin
        (hr.imp fun h => hf.apart hf' (by omega))) fun _ h => ⟨rfl, h⟩

/-- A display with rows of two pixels whose bytes are numbered. -/
def numbered (rows : Nat) : VgpuGop := ⟨2, rows, ⟨4 * (2 * rows), BitVec.ofNat 8⟩, rfl⟩

/-- The first three of four rows are moved down by one. -/
theorem blt_exact_numbered : ∃ result,
    gopBlt (numbered 4) ⟨0, fun _ => 0⟩ ⟨.videoToVideo, 0, 0, 0, 1, 2, 3, 0⟩ ⟨.success, .success⟩ =
      some result ∧
      Drawn (numbered 4) ⟨0, fun _ => 0⟩ ⟨.videoToVideo, 0, 0, 0, 1, 2, 3, 0⟩ result :=
  blt_exact _ _ _ _ (fun _ => by decide) (fun _ => by decide) trivial

/-- With a stride of one pixel, the second row is written over a part of the first one. -/
theorem short_stride_overlaps :
    Fits (numbered 2) ⟨.videoToBltBuffer, 0, 0, 0, 0, 2, 2, 4⟩ 0 0 ∧
      (gopBlt (numbered 2) ⟨12, fun _ => 0⟩ ⟨.videoToBltBuffer, 0, 0, 0, 0, 2, 2, 4⟩
        ⟨.success, .success⟩).map (fun r => (r.status, r.bltBuffer.bytes 4)) = some (.success, 8) ∧
      (numbered 2).backingStore.bytes ((numbered 2).inVideo 1 0) = 4 := by
  decide

end GunyahVmm.VirtioGpu
