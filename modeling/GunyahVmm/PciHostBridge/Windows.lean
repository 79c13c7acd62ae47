import GunyahVmm.Lib.Bytes
import GunyahVmm.Lib.Run
import Mathlib.Tactic.SplitIfs

/-! The windows that `ProcessPciHost` takes from the "ranges" property; its 64-bit sums and
differences wrap. -/

namespace GunyahVmm.PciHostBridge
open List GunyahVmm.Run Outcome

abbrev EfiStatus := BitVec 64

def efiUnsupported : EfiStatus := 0x8000000000000003

def efiNotFound : EfiStatus := 0x800000000000000E

def efiProtocolError : EfiStatus := 0x8000000000000018

def efiError (s : EfiStatus) : Bool := s.msb

inductive Failure where
  | status (s : EfiStatus)
  | assertion

def maxUint32 : BitVec 64 := 0xFFFFFFFF

def size4Gb : BitVec 64 := 0x100000000

/-! ## The node -/

structure RangeRecord where
  type : BitVec 32
  childBase : BitVec 64
  cpuBase : BitVec 64
  size : BitVec 64

def rangeIo : BitVec 32 := 0x1000000

def rangeMmio32 : BitVec 32 := 0x2000000

def rangeMmio64 : BitVec 32 := 0x3000000

namespace RangeRecord

def space (r : RangeRecord) : BitVec 32 := r.type &&& 0x3000000

def translation (r : RangeRecord) : BitVec 64 := r.cpuBase - r.childBase

end RangeRecord

def be32At (prop : List (BitVec 8)) (k : Nat) : BitVec 32 :=
  ofBe32 (prop.getD k 0) (prop.getD (k + 1) 0) (prop.getD (k + 2) 0) (prop.getD (k + 3) 0)

def be64At (prop : List (BitVec 8)) (k : Nat) : BitVec 64 := be32At prop k ++ be32At prop (k + 4)

/-- The packed records of 28 bytes. -/
def recordsOf (prop : List (BitVec 8)) : List RangeRecord :=
  (range (prop.length / 28)).map fun i =>
    ⟨be32At prop (28 * i), be64At prop (28 * i + 4), be64At prop (28 * i + 12),
      be64At prop (28 * i + 20)⟩

/-- The properties read, none where `GetNodeProperty` fails. -/
structure PciNode where
  reg : Option (List (BitVec 8))
  busRange : Option (List (BitVec 8))
  ranges : Option (List (BitVec 8))

structure Platform where
  asserts : Bool
  addressLimit : BitVec 64
  pciIoTranslation : BitVec 64
  pciMmio32Translation : BitVec 64
  pciMmio64Translation : BitVec 64
  pciExpressBaseAddress : BitVec 64
  camNode : Option PciNode
  ecamNode : Option PciNode
  /-- The status of adding a region, given those added before. -/
  mapGcdMmioSpace : List (BitVec 64 × BitVec 64) → BitVec 64 × BitVec 64 → EfiStatus

namespace Platform
variable (p : Platform)

def assert (b : Bool) : Outcome Failure Unit := if p.asserts && !b then err .assertion else ok ()

def mapped (before : List (BitVec 64 × BitVec 64)) (region : BitVec 64 × BitVec 64) :
    Outcome Failure Unit := do
  let status := p.mapGcdMmioSpace before region
  p.assert !efiError status
  if efiError status then err (.status status) else ok ()

def clamp (base size : BitVec 64) : BitVec 64 :=
  if base + size > p.addressLimit then p.addressLimit - base else size

end Platform

/-! ## The loop -/

structure Resources where
  ioBase : BitVec 64
  ioSize : BitVec 64
  ioTranslation : BitVec 64
  mmio32Base : BitVec 64
  mmio32Size : BitVec 64
  mmio64Base : BitVec 64
  mmio64Size : BitVec 64
  busMin : BitVec 32
  busMax : BitVec 32

def processRecord (p : Platform) (res : Resources) (r : RangeRecord) :
    Outcome Failure Resources :=
  if r.space = rangeIo then do
    p.assert (p.pciIoTranslation == r.translation)
    ok { res with ioBase := r.childBase, ioSize := r.size, ioTranslation := r.translation }
  else if r.space = rangeMmio32 then
    if r.childBase > maxUint32 ∨ r.size > maxUint32 ∨ r.childBase + r.size > size4Gb then
      err (.status efiProtocolError)
    else do
      p.assert (p.pciMmio32Translation == r.translation)
      if r.translation ≠ 0 then err (.status efiUnsupported)
      else ok { res with mmio32Base := r.childBase, mmio32Size := r.size }
  else if r.space = rangeMmio64 then
    if r.translation ≠ 0 then err (.status efiUnsupported)
    else if res.mmio32Size = 0 ∧ r.childBase ≤ maxUint32 ∧ r.size ≤ maxUint32 ∧
        r.childBase + r.size ≤ size4Gb then do
      p.assert (p.pciMmio32Translation == r.translation)
      ok { res with mmio32Base := r.childBase, mmio32Size := r.size }
    else if r.childBase < size4Gb then
      let trim := size4Gb - r.childBase
      if trim < r.size then do
        p.assert (p.pciMmio64Translation == r.translation)
        ok { res with mmio64Base := size4Gb, mmio64Size := p.clamp size4Gb (r.size - trim) }
      else ok res
    else do
      p.assert (p.pciMmio64Translation == r.translation)
      ok { res with mmio64Base := r.childBase, mmio64Size := p.clamp r.childBase r.size }
  else ok res

def property (prop : Option (List (BitVec 8))) (valid : Nat → Bool) :
    Outcome Failure (List (BitVec 8)) :=
  match prop.filter fun bytes => valid bytes.length with
  | some bytes => ok bytes
  | none => err (.status efiProtocolError)

def processPciHost (p : Platform) : Outcome Failure Resources :=
  match p.camNode <|> p.ecamNode with
  | none => err (.status efiNotFound)
  | some node => do
    let reg ← property node.reg (· == 16)
    let configBase := be64At reg 0
    let configSize := be64At reg 8
    let busRange ← property node.busRange (· == 8)
    let busMin := be32At busRange 0
    let busMax := be32At busRange 4
    if busMax < busMin ∨ busMax - busMin = 0xFFFFFFFF ∨
        configSize / 0x10000 < (busMax - busMin + 1).setWidth 64 then
      err (.status efiProtocolError)
    else
      let ranges ← property node.ranges fun len => len != 0 && len % 28 == 0
      let res ← (recordsOf ranges).foldlM (processRecord p)
        ⟨0, 0, 0, 0, 0, BitVec.allOnes 64, 0, busMin, busMax⟩
      if res.mmio32Size = 0 then err (.status efiProtocolError)
      else
        p.assert (p.pciExpressBaseAddress == configBase)
        p.mapped [] (configBase, configSize)
        (if res.ioSize ≠ 0 then
          p.mapped [(configBase, configSize)] (res.ioBase + res.ioTranslation, res.ioSize)
        else ok ())
        ok res

/-! ## What a success says -/

/-- The range holds the window, and neither's end wraps. -/
def RangeRecord.Holds (r : RangeRecord) (base size : BitVec 64) : Prop :=
  r.childBase ≤ base ∧ base.toNat + size.toNat ≤ r.childBase.toNat + r.size.toNat ∧
    r.childBase.toNat + r.size.toNat < 2 ^ 64

instance (r : RangeRecord) (base size : BitVec 64) : Decidable (r.Holds base size) :=
  inferInstanceAs (Decidable (_ ∧ _ ∧ _))

def Platform.declared (p : Platform) : List RangeRecord :=
  (((p.camNode <|> p.ecamNode).bind PciNode.ranges).map recordsOf).getD []

/-- The record gives the window above 4 GiB. -/
def RangeRecord.setsMmio64 (r : RangeRecord) : Bool :=
  r.space = rangeMmio64 &&
    (size4Gb ≤ r.childBase || size4Gb.toNat < r.childBase.toNat + r.size.toNat)

/-- The range starts at or below the address limit, as does the part above 4 GiB, and its end does
not wrap. -/
def Platform.Admits (p : Platform) (r : RangeRecord) : Prop :=
  size4Gb ≤ p.addressLimit ∧ r.childBase ≤ p.addressLimit ∧
    r.childBase.toNat + r.size.toNat < 2 ^ 64

instance (p : Platform) (r : RangeRecord) : Decidable (p.Admits r) :=
  inferInstanceAs (Decidable (_ ∧ _ ∧ _))

/-- The last of the declared ranges that give the window above 4 GiB. -/
def Platform.lastMmio64 (p : Platform) : Option RangeRecord :=
  (p.declared.filter (·.setsMmio64)).getLast?

def Mmio32Sound (records : List RangeRecord) (res : Resources) : Prop :=
  (∃ r ∈ records, (r.space = rangeMmio32 ∨ r.space = rangeMmio64) ∧
    r.Holds res.mmio32Base res.mmio32Size) ∧
  res.mmio32Base.toNat + res.mmio32Size.toNat ≤ size4Gb.toNat

def Mmio64Sound (p : Platform) (records : List RangeRecord) (res : Resources) : Prop :=
  (∃ r ∈ records, r.space = rangeMmio64 ∧ r.Holds res.mmio64Base res.mmio64Size) ∧
  size4Gb ≤ res.mmio64Base ∧
  res.mmio64Base.toNat + res.mmio64Size.toNat ≤ p.addressLimit.toNat

variable {p : Platform} {records : List RangeRecord} {res : Resources} {r : RangeRecord}

lemma assert_yields (b : Bool) : (p.assert b).Yields fun _ => True := by
  unfold Platform.assert
  split_ifs <;> trivial

lemma mmio32Sound_of_low (hr : r ∈ records)
    (hs : r.space = rangeMmio32 ∨ r.space = rangeMmio64) (hb : r.childBase ≤ maxUint32)
    (hz : r.size ≤ maxUint32) (he : r.childBase + r.size ≤ size4Gb) :
    Mmio32Sound records { res with mmio32Base := r.childBase, mmio32Size := r.size } := by
  simp only [maxUint32, size4Gb] at hb hz he
  refine ⟨⟨r, hr, hs, BitVec.le_refl _, le_rfl, ?_⟩, ?_⟩
  · bv_omega
  · simp only [size4Gb]
    bv_omega

lemma mmio64Sound_clamp {base size : BitVec 64} (hr : r ∈ records) (hs : r.space = rangeMmio64)
    (hb : r.childBase ≤ base) (hl : size4Gb ≤ base) (hlim : base ≤ p.addressLimit)
    (hend : base.toNat + size.toNat = r.childBase.toNat + r.size.toNat)
    (hw : r.childBase.toNat + r.size.toNat < 2 ^ 64) :
    Mmio64Sound p records { res with mmio64Base := base, mmio64Size := p.clamp base size } := by
  have hc : base.toNat + (p.clamp base size).toNat ≤ base.toNat + size.toNat ∧
      base.toNat + (p.clamp base size).toNat ≤ p.addressLimit.toNat := by
    unfold Platform.clamp
    split_ifs with h <;> bv_omega
  exact ⟨⟨r, hr, hs, hb, hc.1.trans hend.le, hw⟩, hl, hc.2⟩

/-- The window that a range gives: what is above 4 GiB and below the limit. -/
def RangeRecord.window (r : RangeRecord) (p : Platform) : BitVec 64 × BitVec 64 :=
  if r.childBase < size4Gb then
    (size4Gb, p.clamp size4Gb (r.size - (size4Gb - r.childBase)))
  else (r.childBase, p.clamp r.childBase r.size)

lemma setsMmio64_eq_true : r.setsMmio64 = true ↔ r.space = rangeMmio64 ∧
    (size4Gb ≤ r.childBase ∨ size4Gb.toNat < r.childBase.toNat + r.size.toNat) := by
  simp [RangeRecord.setsMmio64]

/-- The window above 4 GiB behind a record. -/
def RangeRecord.windowAfter (r : RangeRecord) (p : Platform) (res : Resources) :
    BitVec 64 × BitVec 64 :=
  if r.setsMmio64 then r.window p else (res.mmio64Base, res.mmio64Size)

lemma windowAfter_of_not (h : ¬ (r.space = rangeMmio64 ∧
    (size4Gb ≤ r.childBase ∨ size4Gb.toNat < r.childBase.toNat + r.size.toNat))) :
    r.windowAfter p res = (res.mmio64Base, res.mmio64Size) :=
  if_neg (mt setsMmio64_eq_true.mp h)

lemma processRecord_yields (hr : r ∈ records) (h : res.mmio32Size ≠ 0 → Mmio32Sound records res) :
    (processRecord p res r).Yields fun res' =>
      (res'.mmio32Size ≠ 0 → Mmio32Sound records res') ∧
      (res'.mmio64Base, res'.mmio64Size) = r.windowAfter p res := by
  have hother (hs : r.space ≠ rangeMmio64) :
      (res.mmio64Base, res.mmio64Size) = r.windowAfter p res :=
    (windowAfter_of_not fun h => hs h.1).symm
  unfold processRecord
  split_ifs with hio hs hb htr hs htr hp hlow
  · exact (assert_yields _).bind fun _ _ => ⟨h, hother (by rw [hio]; decide)⟩
  · trivial
  · exact (assert_yields _).bind fun _ _ => trivial
  · simp only [not_or, BitVec.not_lt, gt_iff_lt] at hb
    refine (assert_yields _).bind fun _ _ => ⟨fun _ => ?_, hother (by rw [hs]; decide)⟩
    exact mmio32Sound_of_low hr (.inl hs) hb.1 hb.2.1 hb.2.2
  · trivial
  · refine (assert_yields _).bind fun _ _ => ⟨fun _ => ?_, (windowAfter_of_not fun hn => ?_).symm⟩
    · exact mmio32Sound_of_low hr (.inr hs) hp.2.1 hp.2.2.1 hp.2.2.2
    · -- a range below 4 GiB
      obtain ⟨-, hb, hz, he⟩ := hp
      simp only [maxUint32, size4Gb] at hb hz he hn
      bv_omega
  · dsimp only
    split_ifs with ht
    · have hsets : r.setsMmio64 = true := setsMmio64_eq_true.mpr ⟨hs, .inr (by
        simp only [size4Gb] at hlow ht ⊢
        bv_omega)⟩
      refine (assert_yields _).bind fun _ _ => ⟨h, ?_⟩
      rw [RangeRecord.windowAfter, if_pos hsets, RangeRecord.window, if_pos hlow]
    · refine ⟨h, (windowAfter_of_not fun hn => ?_).symm⟩
      simp only [size4Gb] at hlow ht hn
      bv_omega
  · have hsets : r.setsMmio64 = true := setsMmio64_eq_true.mpr ⟨hs, .inl (BitVec.not_lt.mp hlow)⟩
    refine (assert_yields _).bind fun _ _ => ⟨h, ?_⟩
    rw [RangeRecord.windowAfter, if_pos hsets, RangeRecord.window, if_neg hlow]
  · exact ⟨h, hother hs⟩

/-- The loop: the window above 4 GiB is that of the last range that gives one. -/
lemma foldlM_processRecord {l : List RangeRecord} (hl : ∀ r ∈ l, r ∈ records)
    (h : res.mmio32Size ≠ 0 → Mmio32Sound records res) :
    (l.foldlM (processRecord p) res).Yields fun res' =>
      (res'.mmio32Size ≠ 0 → Mmio32Sound records res') ∧
      (res'.mmio64Base, res'.mmio64Size) = ((l.filter (·.setsMmio64)).getLast?.map
        (·.window p)).getD (res.mmio64Base, res.mmio64Size) := by
  induction l generalizing res with
  | nil => exact ⟨h, rfl⟩
  | cons r l ih =>
    obtain ⟨hr, hl⟩ := forall_mem_cons.mp hl
    rw [foldlM_cons]
    refine (processRecord_yields hr h).bind fun res' hres => (ih hl hres.1).mono fun _ hw => ?_
    refine ⟨hw.1, hw.2.trans ?_⟩
    rw [hres.2, filter_cons, RangeRecord.windowAfter]
    split_ifs
    · rw [getLast?_cons]
      cases (l.filter (·.setsMmio64)).getLast? <;> rfl
    · rfl

/-- A part above the limit, or one whose end wraps, gives a window that passes the limit. -/
lemma clamp_passes {base size : BitVec 64}
    (h : p.addressLimit < base ∨ 2 ^ 64 ≤ base.toNat + size.toNat) :
    p.clamp base size ≠ 0 ∧ p.addressLimit.toNat < base.toNat + (p.clamp base size).toNat := by
  unfold Platform.clamp
  split_ifs <;> bv_omega

/-- The window of a range is right exactly if the range is admitted. -/
lemma window_sound_iff (hr : r ∈ records) (hs : r.setsMmio64 = true)
    (hw : (res.mmio64Base, res.mmio64Size) = r.window p) :
    (res.mmio64Size ≠ 0 → Mmio64Sound p records res) ↔ p.Admits r := by
  obtain ⟨hsp, hs⟩ := setsMmio64_eq_true.mp hs
  -- the part of the range above 4 GiB
  obtain ⟨base, size, hbase, hle, hend, hwin, hadm⟩ : ∃ base size, size4Gb ≤ base ∧
      r.childBase ≤ base ∧ base.toNat + size.toNat = r.childBase.toNat + r.size.toNat ∧
      r.window p = (base, p.clamp base size) ∧
      (p.Admits r ↔ base ≤ p.addressLimit ∧ base.toNat + size.toNat < 2 ^ 64) := by
    unfold RangeRecord.window Platform.Admits
    by_cases hlow : r.childBase < size4Gb
    · rw [if_pos hlow]
      refine ⟨_, _, BitVec.le_refl _, ?_, ?_, rfl, ?_⟩
      all_goals
        simp only [size4Gb] at hlow hs ⊢
        bv_omega
    · rw [if_neg hlow]
      refine ⟨_, _, BitVec.not_lt.mp hlow, BitVec.le_refl _, rfl, rfl, ?_⟩
      simp only [size4Gb] at hlow ⊢
      bv_omega
  obtain ⟨hb, hz⟩ := Prod.mk.inj (hw.trans hwin)
  rw [hadm]
  constructor
  · intro h
    by_contra hn
    have hout : p.addressLimit < base ∨ 2 ^ 64 ≤ base.toNat + size.toNat := by bv_omega
    have hbad := clamp_passes hout
    rw [← hz] at hbad
    have hlim := (h hbad.1).2.2
    rw [hb] at hlim
    omega
  · rintro ⟨hl, hlt⟩ -
    have hm := @mmio64Sound_clamp p records res r base size hr hsp hle hbase hl hend (hend ▸ hlt)
    simpa only [Mmio64Sound, hb, hz] using hm

lemma property_eq_ok {prop : Option (List (BitVec 8))} {valid : Nat → Bool}
    {bytes : List (BitVec 8)} (h : property prop valid = ok bytes) : prop = some bytes := by
  unfold property at h
  split at h
  · rename_i hf
    cases h
    exact (Option.filter_eq_some_iff.mp hf).1
  · cases h

/-- **The windows are declared**, exactly if the last range that gives the window above 4 GiB is
admitted. -/
theorem windows_declared_iff (h : processPciHost p = ok res) :
    (Mmio32Sound p.declared res ∧ (res.mmio64Size ≠ 0 → Mmio64Sound p p.declared res)) ↔
      ∀ r ∈ p.lastMmio64, p.Admits r := by
  unfold processPciHost at h
  split at h
  · cases h
  rename_i node hn
  obtain ⟨reg, -, h⟩ := bind_eq_ok.mp h
  obtain ⟨busRange, -, h⟩ := bind_eq_ok.mp h
  dsimp only at h
  split_ifs at h
  obtain ⟨ranges, hrn, h⟩ := bind_eq_ok.mp h
  have hd : p.declared = recordsOf ranges := by
    rw [Platform.declared, hn, Option.bind_some, property_eq_ok hrn]
    rfl
  obtain ⟨res', hl, h⟩ := bind_eq_ok.mp h
  split at h
  · cases h
  rename_i hz
  iterate 3 obtain ⟨-, -, h⟩ := bind_eq_ok.mp h
  cases h
  have hsn := @foldlM_processRecord p p.declared
    ⟨0, 0, 0, 0, 0, BitVec.allOnes 64, 0, be32At busRange 0, be32At busRange 4⟩ p.declared
    (fun _ hr => hr) fun h => absurd rfl h
  rw [hd, hl, ← hd] at hsn
  obtain ⟨h32, hw⟩ := hsn
  rw [and_iff_right (h32 hz)]
  change _ = (p.lastMmio64.map _).getD _ at hw
  cases hlast : p.lastMmio64 with
  | none =>
    rw [hlast] at hw
    exact iff_of_true (fun hne => absurd (Prod.mk.inj hw).2 hne) nofun
  | some r =>
    rw [hlast] at hw
    obtain ⟨hr, hs⟩ := mem_filter.mp (mem_of_getLast? hlast)
    rw [window_sound_iff hr hs hw]
    simp

def RangeRecord.bytes (r : RangeRecord) : List (BitVec 8) :=
  beBytes32 r.type ++ beBytes64 r.childBase ++ beBytes64 r.cpuBase ++ beBytes64 r.size

/-- One bus, 36 physical address bits, a window below 4 GiB and a range of 64-bit addresses. -/
def platformWith (base size : BitVec 64) : Platform :=
  ⟨true, 0x1000000000, 0, 0, 0, 0,
    some ⟨some (beBytes64 0 ++ beBytes64 0x10000), some (beBytes32 0 ++ beBytes32 0),
      some (RangeRecord.bytes ⟨rangeMmio32, 0x40000000, 0x40000000, 0x10000000⟩ ++
        RangeRecord.bytes ⟨rangeMmio64, base, base, size⟩)⟩,
    none, fun _ _ => 0⟩

theorem windows_declared_iff_trimmed :
    ∃ res, processPciHost (platformWith 0x80000000 0x2000000000) = ok res ∧
      res.mmio64Size = 0xF00000000 ∧
      Mmio64Sound (platformWith 0x80000000 0x2000000000)
        (platformWith 0x80000000 0x2000000000).declared res := by
  obtain ⟨res, hr, hs⟩ := exists_ok
    (x := processPciHost (platformWith 0x80000000 0x2000000000))
    (P := fun res => res.mmio64Size = 0xF00000000) (by decide +kernel)
  exact ⟨res, hr, hs, ((windows_declared_iff hr).mpr (by decide +kernel)).2 (hs ▸ by decide)⟩

/-- The window for a range of 64-bit addresses leaves the range and the address limit. -/
def Escapes (base size : BitVec 64) : Prop :=
  ∃ res, processPciHost (platformWith base size) = ok res ∧ res.mmio64Size ≠ 0 ∧
    res.mmio64Base.toNat + res.mmio64Size.toNat > 2 ^ 36 ∧
    ∀ r ∈ (platformWith base size).declared, ¬ r.Holds res.mmio64Base res.mmio64Size

/-- A range above the address limit, and one whose end wraps. -/
theorem window_outside_limit :
    Escapes 0x10000000000 0x100000 ∧ Escapes 0xFFFFFFFFFFF00000 0x200000 :=
  ⟨exists_ok (by decide +kernel), exists_ok (by decide +kernel)⟩

end GunyahVmm.PciHostBridge
