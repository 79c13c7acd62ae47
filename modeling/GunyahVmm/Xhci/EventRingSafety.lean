import GunyahVmm.Xhci.EventRing

/-! When the event ring does not abort. It trusts the guest with segments that are empty or end
beyond the last address, and with tables too large or too small. -/

namespace GunyahVmm.Xhci.EventRing
open Run VmMemory GuestMemory VmMemory.GuestMemory BitVec

/-- The number of table entries that a 16-bit byte offset reaches. -/
def maxTableSize : Nat := 4096

/-- A segment with room for a TRB, which ends below the last address. -/
def Sound (entry : EventRingSegmentTableEntry) : Prop :=
  entry.ringSegmentSize ≠ 0 ∧
    entry.ringSegmentBaseAddress.toNat + sizeOfTrb * entry.ringSegmentSize.toNat < u64Size

def HasTable (ring : EventRing) : Prop :=
  ring.segmentTableSize ≠ 0 ∧ ring.segmentTableBaseAddress ≠ 0

def CurrentEntrySound (ring : EventRing) : Prop :=
  HasTable ring →
    ∀ entry ring', readSegTableEntry ring.currentSegmentIndex ring = .ok entry ring' → Sound entry

/-- A table size that the guest may set: none, or one that covers the current segment and that the
offsets reach. -/
def Op.Admissible (ring : EventRing) : Op → Prop
  | .setSegTableSize size =>
    size = 0 ∨ ring.currentSegmentIndex < size ∧ size.toNat ≤ maxTableSize
  | _ => True

/-- The guest sets only admissible sizes, and the entry of the current segment is sound after every
operation. -/
def Behaves : EventRing → List Op → Prop
  | _, [] => True
  | ring, op :: ops => op.Admissible ring ∧
    ∀ ring', step ring op = some ring' → CurrentEntrySound ring' ∧ Behaves ring' ops

instance (entry : EventRingSegmentTableEntry) : Decidable (Sound entry) :=
  inferInstanceAs (Decidable (_ ∧ _))

instance (ring : EventRing) : Decidable (HasTable ring) := inferInstanceAs (Decidable (_ ∧ _))

instance (ring : EventRing) : Decidable (CurrentEntrySound ring) :=
  match h : readSegTableEntry ring.currentSegmentIndex ring with
  | .error _ _ => .isTrue fun _ _ _ hread => by rw [h] at hread; cases hread
  | .ok entry _ => decidable_of_iff (HasTable ring → Sound entry)
      ⟨fun hs ht _ _ hread => by rw [h] at hread; cases hread; exact hs ht,
        fun hs ht => hs ht _ _ h⟩

instance (ring : EventRing) (op : Op) : Decidable (op.Admissible ring) :=
  match op with
  | .setSegTableSize _ => inferInstanceAs (Decidable (_ ∨ _))
  | .addEvent _ | .setSegTableBaseAddr _ | .setDequeuePointer _ | .guestWrites _ =>
    inferInstanceAs (Decidable True)

instance decidableBehaves : ∀ (ring : EventRing) (ops : List Op), Decidable (Behaves ring ops)
  | _, [] => .isTrue trivial
  | ring, op :: ops =>
    have (ring' : EventRing) : Decidable (Behaves ring' ops) := decidableBehaves ring' ops
    inferInstanceAs (Decidable (op.Admissible ring ∧
      ∀ ring' ∈ step ring op, CurrentEntrySound ring' ∧ Behaves ring' ops))

/-! ## The invariant -/

def Room (ring : EventRing) : Prop :=
  ring.enqueuePointer = 0 ∨ ring.trbCount ≠ 0 ∧
    ring.enqueuePointer.toNat + sizeOfTrb * ring.trbCount.toNat < u64Size

structure Inv (ring : EventRing) : Prop where
  covered : ring.segmentTableSize = 0 ∨
    ring.currentSegmentIndex < ring.segmentTableSize ∧ ring.segmentTableSize.toNat ≤ maxTableSize
  index_lt : ring.currentSegmentIndex.toNat < maxTableSize
  room : Room ring

variable {α : Type} {ring s : EventRing} {index : BitVec 16} {mem : GuestMemory}
  {entry : EventRingSegmentTableEntry}

lemma inv_new (mem : GuestMemory) : Inv (new mem) where
  covered := .inl rfl
  index_lt := Nat.zero_lt_succ _
  room := .inl rfl

/-- Everything but memory contents and the dequeue pointer is as before. -/
structure SameTable (ring ring' : EventRing) : Prop where
  regions : ring'.mem.regions = ring.mem.regions
  isProtected : ring'.mem.isProtected = ring.mem.isProtected
  size : ring'.segmentTableSize = ring.segmentTableSize
  base : ring'.segmentTableBaseAddress = ring.segmentTableBaseAddress

/-! ## Reading the table -/

/-- The call does not abort and leaves the ring alone. -/
def Quiet {α : Type} (x : Call α) (ring : EventRing) (Q : α → Prop) : Prop :=
  Ends (x ring) (fun a s => s = ring ∧ Q a) (fun e s => e ≠ .abort ∧ s = ring)

lemma Quiet.bind {β : Type} {x : Call α} {f : α → Call β} {P : α → Prop} {Q : β → Prop}
    (hx : Quiet x ring P) (hf : ∀ a, P a → Quiet (f a) ring Q) : Quiet (x >>= f) ring Q := by
  refine ends_bind hx ?_
  rintro a s ⟨rfl, ha⟩
  exact hf a ha

lemma quiet_fail (e : Error) (ring : EventRing) (Q : α → Prop) :
    Quiet (fail e : Call α) ring Q := by
  refine ⟨?_, rfl⟩
  intro h
  cases h

lemma quiet_checked {w n : Nat} (h : n < 2 ^ w) (ring : EventRing) :
    Quiet (checked n : Call (BitVec w)) ring fun a => a.toNat = n := by
  unfold checked Quiet
  rw [if_pos h]
  exact ⟨rfl, toNat_ofNat n w |>.trans (Nat.mod_eq_of_lt h)⟩

lemma quiet_access {context : VmMemory.Error → Error} {x : Outcome VmMemory.Error α}
    (hx : x ≠ .panic) (ring : EventRing) : Quiet (access context x) ring fun a => x = .ok a := by
  cases x with
  | ok a => exact ⟨rfl, rfl⟩
  | err e => exact quiet_fail _ _ _
  | panic => exact absurd rfl hx

def Readable (ring : EventRing) (index : BitVec 16) : Prop :=
  ∃ entry, readSegTableEntry index ring = .ok entry ring

lemma checkObj_congr {mem' : GuestMemory} (hr : mem'.regions = mem.regions)
    (hp : mem'.isProtected = mem.isProtected) (addr size : Nat) :
    mem'.checkObj addr size = mem.checkObj addr size := by
  simp only [checkObj, checkHostAccess, findRegion, hr, hp]

def tableAddr (ring : EventRing) (index : BitVec 16) : Except Stop Nat :=
  if ring.segmentTableSize < index then .error (.returned (.badSegTableIndex index))
  else if sizeOfEventRingSegmentTableEntry * index.toNat < 2 ^ 16 then
    match checkedAdd ring.segmentTableBaseAddress.toNat
        (sizeOfEventRingSegmentTableEntry * index.toNat) with
    | none => .error (.returned (.badSegTableAddress ring.segmentTableBaseAddress))
    | some addr => .ok addr
  else .error .abort

lemma getSegTableAddr_apply (ring : EventRing) (index : BitVec 16) :
    getSegTableAddr index ring =
      match tableAddr ring index with
      | .ok addr => .ok addr ring
      | .error e => .error e ring := by
  unfold getSegTableAddr tableAddr
  rw [get_bind_apply]
  by_cases hs : ring.segmentTableSize < index
  · rw [if_pos hs, if_pos hs]
    rfl
  · rw [if_neg hs, if_neg hs]
    unfold checked
    by_cases ho : sizeOfEventRingSegmentTableEntry * index.toNat < 2 ^ 16
    · rw [if_pos ho, if_pos ho, pure_bind_apply, toNat_ofNat, Nat.mod_eq_of_lt ho]
      cases checkedAdd ring.segmentTableBaseAddress.toNat
        (sizeOfEventRingSegmentTableEntry * index.toNat) <;> rfl
    · rw [if_neg ho, if_neg ho, throw_bind_apply]

/-- Whether an entry can be read depends on where the table is, not on what it holds. -/
lemma readable_iff :
    Readable ring index ↔ ∃ addr, tableAddr ring index = .ok addr ∧
      ring.mem.checkObj addr sizeOfEventRingSegmentTableEntry = .ok () := by
  unfold Readable readSegTableEntry
  cases ha : tableAddr ring index with
  | error e =>
    have hg : getSegTableAddr index ring = .error e ring := by
      rw [getSegTableAddr_apply, ha]
    rw [bind_of_error hg]
    simp
  | ok addr =>
    have hg : getSegTableAddr index ring = .ok addr ring := by
      rw [getSegTableAddr_apply, ha]
    rw [bind_of_ok hg, get_bind_apply]
    constructor
    · rintro ⟨entry, h⟩
      refine ⟨addr, rfl, ?_⟩
      cases hr : (ring.mem.readObjFromAddr EventRingSegmentTableEntry addr).value with
      | ok found => exact (readObjFromAddr_value_eq_ok.mp hr).1
      | err | panic =>
        rw [hr] at h
        cases h
    · rintro ⟨_, h, hc⟩
      cases h
      have hr : (ring.mem.readObjFromAddr EventRingSegmentTableEntry addr).value = .ok _ :=
        readObjFromAddr_value_eq_ok.mpr ⟨hc, rfl⟩
      rw [hr]
      exact ⟨_, rfl⟩

lemma quiet_getSegTableAddr (hi : index.toNat < maxTableSize) (ring : EventRing) :
    Quiet (getSegTableAddr index) ring fun _ => True := by
  unfold Quiet
  rw [getSegTableAddr_apply]
  have ho : sizeOfEventRingSegmentTableEntry * index.toNat < 2 ^ 16 := by
    simp only [sizeOfEventRingSegmentTableEntry, maxTableSize] at hi ⊢
    omega
  cases ha : tableAddr ring index with
  | ok addr => exact ⟨rfl, trivial⟩
  | error e =>
    refine ⟨?_, rfl⟩
    rintro rfl
    unfold tableAddr at ha
    split at ha
    · cases ha
    · split at ha <;> cases ha

lemma quiet_readSegTableEntry (hi : index.toNat < maxTableSize) (ring : EventRing) :
    Quiet (readSegTableEntry index) ring fun entry =>
      readSegTableEntry index ring = .ok entry ring := by
  have hq : Quiet (readSegTableEntry index) ring fun _ => True := by
    refine (quiet_getSegTableAddr hi ring).bind fun addr _ => ?_
    unfold Quiet
    exact (quiet_access readObjFromAddr_ne_panic ring).mono
      (fun _ _ h => ⟨h.1, trivial⟩) fun _ _ h => h
  unfold Quiet at hq ⊢
  cases hr : readSegTableEntry index ring with
  | ok entry s =>
    rw [hr] at hq
    obtain ⟨rfl, _⟩ := hq
    exact ⟨rfl, rfl⟩
  | error e s =>
    rw [hr] at hq
    exact hq

lemma Readable.congr {ring' : EventRing} (h : Readable ring index)
    (hs : SameTable ring ring') : Readable ring' index := by
  rw [readable_iff] at h ⊢
  obtain ⟨addr, ha, hc⟩ := h
  refine ⟨addr, ?_, ?_⟩
  · rw [← ha, tableAddr, tableAddr, hs.size, hs.base]
  · rw [checkObj_congr hs.regions hs.isProtected, hc]

/-! ## The operations -/

lemma loadCurrentSegTableEntry_ends (hi : ring.currentSegmentIndex.toNat < maxTableSize) :
    Ends (loadCurrentSegTableEntry ring)
      (fun _ s => ∃ entry, readSegTableEntry ring.currentSegmentIndex ring = .ok entry ring ∧
        s = { ring with
          enqueuePointer := entry.ringSegmentBaseAddress, trbCount := entry.ringSegmentSize })
      (fun e s => e ≠ .abort ∧ s = ring) := by
  unfold loadCurrentSegTableEntry
  rw [get_bind_apply]
  refine ends_bind (quiet_readSegTableEntry hi ring) ?_
  rintro entry s ⟨rfl, hr⟩
  exact ⟨entry, hr, rfl⟩

lemma readSegTableEntry_load (enqueuePointer : BitVec 64) (trbCount : BitVec 16)
    (h : readSegTableEntry index ring = .ok entry ring) :
    readSegTableEntry index { ring with enqueuePointer, trbCount } =
      .ok entry { ring with enqueuePointer, trbCount } := by
  obtain ⟨addr, ha, hc⟩ := readable_iff.mp ⟨entry, h⟩
  unfold readSegTableEntry at h ⊢
  have hg : getSegTableAddr index ring = .ok addr ring := by
    rw [getSegTableAddr_apply, ha]
  have hg' : getSegTableAddr index { ring with enqueuePointer, trbCount } =
      .ok addr { ring with enqueuePointer, trbCount } := by
    rw [getSegTableAddr_apply]
    have hs : tableAddr { ring with enqueuePointer, trbCount } index = tableAddr ring index := rfl
    rw [hs, ha]
  have hr : (ring.mem.readObjFromAddr EventRingSegmentTableEntry addr).value = .ok _ :=
    readObjFromAddr_value_eq_ok.mpr ⟨hc, rfl⟩
  rw [bind_of_ok hg, get_bind_apply, hr] at h
  rw [bind_of_ok hg', get_bind_apply, hr]
  cases h
  rfl

lemma room_of_load (ht : HasTable ring)
    (hr : readSegTableEntry ring.currentSegmentIndex ring = .ok entry ring)
    (hs : CurrentEntrySound { ring with
      enqueuePointer := entry.ringSegmentBaseAddress, trbCount := entry.ringSegmentSize }) :
    Room { ring with
      enqueuePointer := entry.ringSegmentBaseAddress, trbCount := entry.ringSegmentSize } :=
  .inr (hs ht entry _ (readSegTableEntry_load _ _ hr))

lemma tryReconfigureEventRing_ends (h : Inv ring) :
    Ends (tryReconfigureEventRing ring)
      (fun _ s => CurrentEntrySound s → Inv s) (fun e s => e ≠ .abort ∧ Inv s) := by
  unfold tryReconfigureEventRing
  rw [get_bind_apply]
  split
  · exact fun _ => h
  rename_i ht
  refine (loadCurrentSegTableEntry_ends h.index_lt).mono ?_ ?_
  · rintro _ s ⟨entry, hr, rfl⟩ hs
    exact ⟨h.covered, h.index_lt, room_of_load (not_or.mp ht) hr hs⟩
  · rintro e s ⟨he, rfl⟩
    exact ⟨he, h⟩

lemma quiet_isFull (h : Inv ring) (hs : ring.segmentTableSize ≠ 0)
    (henq : ring.enqueuePointer ≠ 0) :
    Quiet isFull ring fun _ => ring.trbCount = 1 →
      ∀ next : BitVec 16, next.toNat = ring.currentSegmentIndex.toNat + 1 →
        Readable ring (next % ring.segmentTableSize) := by
  obtain ⟨hc, hle⟩ := h.covered.resolve_left hs
  obtain ⟨hcnt, hr⟩ := h.room.resolve_left henq
  have hi := h.index_lt
  have hp : 0 < ring.segmentTableSize.toNat := Nat.lt_of_le_of_lt (Nat.zero_le _) (lt_def.mp hc)
  unfold isFull Quiet
  rw [get_bind_apply]
  split
  · rename_i ho
    refine Quiet.bind (quiet_checked ?_ ring) fun next hn => ?_
    · simp only [maxTableSize] at hi
      omega
    · have hnext_lt : (next % ring.segmentTableSize).toNat < maxTableSize := by
        rw [toNat_umod]
        have := Nat.mod_lt next.toNat hp
        omega
      refine (quiet_readSegTableEntry hnext_lt ring).bind fun entry hrd => ?_
      refine ⟨rfl, fun _ next' hn' => ?_⟩
      have hsm : next' = next := eq_of_toNat_eq (hn'.trans hn.symm)
      rw [hsm]
      exact ⟨entry, hrd⟩
  · rename_i hm
    refine Quiet.bind (quiet_checked ?_ ring) fun next _ => ?_
    · have : 1 ≤ ring.trbCount.toNat := by
        rw [Nat.one_le_iff_ne_zero]
        exact fun h0 => hcnt (eq_of_toNat_eq h0)
      simp only [sizeOfTrb, u64Size] at hr ⊢
      omega
    · exact ⟨rfl, fun ho => absurd ho hm⟩

def OnlyContents (ring s : EventRing) : Prop :=
  ∃ bytes, s = { ring with mem := { ring.mem with bytes } }

lemma onlyContents_refl (ring : EventRing) : OnlyContents ring ring := ⟨ring.mem.bytes, rfl⟩

lemma OnlyContents.sameTable (h : OnlyContents ring s) : SameTable ring s := by
  obtain ⟨bytes, rfl⟩ := h
  exact ⟨rfl, rfl, rfl, rfl⟩

lemma OnlyContents.inv (h : OnlyContents ring s) (hi : Inv ring) : Inv s := by
  obtain ⟨bytes, rfl⟩ := h
  exact ⟨hi.covered, hi.index_lt, hi.room⟩

lemma writeAtAddr_ne_panic (mem : GuestMemory) (data : List (BitVec 8)) (addr : Nat) :
    mem.writeAtAddr data addr ≠ .panic := by
  refine checked_ne_panic addr fun p => ?_
  dsimp only
  split <;> simp

lemma writeAtAddr_store {data : List (BitVec 8)} {addr : Nat} {p : Nat × GuestMemory}
    (h : mem.writeAtAddr data addr = .ok p) : ∃ bytes, p.2 = { mem with bytes } := by
  unfold writeAtAddr at h
  simp only [Outcome.bind_eq_ok] at h
  obtain ⟨_, _, _, _, h⟩ := h
  split at h
  all_goals cases h
  · exact ⟨_, rfl⟩

lemma writeEvent_ends (ring : EventRing) (trb : Trb) :
    Ends (writeEvent trb ring) (fun _ s => OnlyContents ring s)
      (fun e s => e ≠ .abort ∧ OnlyContents ring s) := by
  unfold writeEvent
  rw [get_bind_apply]
  refine ends_bind (R := fun mem s => s = ring ∧ ∃ bytes, mem = { ring.mem with bytes }) ?_ ?_
  · refine (quiet_access writeObjAtAddrVolatile_ne_panic ring).mono ?_ ?_
    · rintro mem s ⟨rfl, hm⟩
      obtain ⟨_, rfl⟩ := writeObjAtAddrVolatile_value_eq_ok.mp hm
      exact ⟨rfl, _, rfl⟩
    · rintro e s ⟨he, rfl⟩
      exact ⟨he, onlyContents_refl _⟩
  · rintro mem s ⟨rfl, bytes, rfl⟩
    rw [set_bind_apply]
    cases checkedAdd s.enqueuePointer.toNat 12 with
    | none =>
      refine ⟨?_, bytes, rfl⟩
      intro h
      cases h
    | some addr =>
      refine ends_bind (R := fun p s' => OnlyContents s s' ∧
        ∃ bytes, p.2 = { s.mem with bytes }) ?_ ?_
      · refine (quiet_access (writeAtAddr_ne_panic _ _ _) _).mono ?_ ?_
        · rintro p s' ⟨rfl, hp⟩
          obtain ⟨bytes', hp'⟩ := writeAtAddr_store hp
          exact ⟨⟨bytes, rfl⟩, bytes', hp'⟩
        · rintro e s' ⟨he, rfl⟩
          exact ⟨he, bytes, rfl⟩
      · rintro ⟨completed, mem⟩ s' ⟨_, bytes', hm⟩
        dsimp only at hm ⊢
        subst hm
        split
        · exact ⟨bytes', rfl⟩
        refine ⟨?_, bytes', rfl⟩
        intro h
        cases h

/-- The index of the next segment is the one whose entry the check for a full ring has read. -/
lemma next_index_eq {size next : BitVec 16} (hlt : index < size)
    (hn : next.toNat = index.toNat + 1) : next % size = if next = size then 0 else next := by
  have hle : next.toNat ≤ size.toNat := by
    rw [hn]
    exact lt_def.mp hlt
  refine eq_of_toNat_eq ?_
  rw [toNat_umod]
  split
  · rename_i heq
    rw [heq, Nat.mod_self]
    rfl
  · rename_i hne
    have hne' : next.toNat ≠ size.toNat := fun h => hne (eq_of_toNat_eq h)
    exact Nat.mod_eq_of_lt (by omega)

lemma loadCurrentSegTableEntry_of_readable (ring : EventRing)
    (h : Readable ring ring.currentSegmentIndex) :
    ∃ entry, readSegTableEntry ring.currentSegmentIndex ring = .ok entry ring ∧
      loadCurrentSegTableEntry ring = .ok ⟨⟩ { ring with
        enqueuePointer := entry.ringSegmentBaseAddress, trbCount := entry.ringSegmentSize } := by
  obtain ⟨entry, hr⟩ := h
  refine ⟨entry, hr, ?_⟩
  unfold loadCurrentSegTableEntry
  rw [get_bind_apply, bind_of_ok hr]
  rfl

/-- The next segment can be entered because the check for a full ring has read its entry. -/
lemma enterNextSegment_ends (ht : HasTable ring)
    (hc : ring.currentSegmentIndex < ring.segmentTableSize)
    (hle : ring.segmentTableSize.toNat ≤ maxTableSize)
    (hrd : ∀ next : BitVec 16, next.toNat = ring.currentSegmentIndex.toNat + 1 → Readable ring
      (next % ring.segmentTableSize)) :
    Ends (enterNextSegment ring) (fun _ s => CurrentEntrySound s → Inv s) (fun _ _ => False) := by
  have hlt := lt_def.mp hc
  have hf : ring.currentSegmentIndex.toNat + 1 < 2 ^ 16 := by
    omega
  have hn : (BitVec.ofNat 16 (ring.currentSegmentIndex.toNat + 1)).toNat =
      ring.currentSegmentIndex.toNat + 1 := by
    rw [toNat_ofNat, Nat.mod_eq_of_lt hf]
  unfold enterNextSegment
  rw [get_bind_apply, checked, if_pos hf, pure_bind_apply, set_bind_apply]
  generalize BitVec.ofNat 16 (ring.currentSegmentIndex.toNat + 1) = next at hn ⊢
  have hent := hrd next hn
  rw [next_index_eq hc hn] at hent
  split
  · rename_i hend
    rw [if_pos hend] at hent
    obtain ⟨entry, hr, hl⟩ := loadCurrentSegTableEntry_of_readable { ring with
        producerCycleState := !ring.producerCycleState, currentSegmentIndex := 0 }
      (hent.congr ⟨rfl, rfl, rfl, rfl⟩)
    rw [hl]
    refine fun hs => ⟨.inr ⟨?_, hle⟩, Nat.zero_lt_succ _, room_of_load ht hr hs⟩
    change 0 < ring.segmentTableSize.toNat
    omega
  · rename_i hm
    rw [if_neg hm] at hent
    obtain ⟨entry, hr, hl⟩ := loadCurrentSegTableEntry_of_readable
      { ring with currentSegmentIndex := next } (hent.congr ⟨rfl, rfl, rfl, rfl⟩)
    rw [hl]
    have hne : next.toNat ≠ ring.segmentTableSize.toNat := fun h => hm (eq_of_toNat_eq h)
    refine fun hs => ⟨.inr ⟨?_, hle⟩, ?_, room_of_load ht hr hs⟩
    · rw [lt_def]
      dsimp only
      omega
    · dsimp only
      omega

lemma advanceEnqueue_ends (h : Inv ring) (ht : HasTable ring)
    (henq : ring.enqueuePointer ≠ 0)
    (hrd : ring.trbCount = 1 → ∀ next : BitVec 16, next.toNat = ring.currentSegmentIndex.toNat
      + 1 → Readable ring (next % ring.segmentTableSize)) :
    Ends (advanceEnqueue ring) (fun _ s => CurrentEntrySound s → Inv s) (fun _ _ => False) := by
  obtain ⟨hcov, hle⟩ := h.covered.resolve_left ht.1
  obtain ⟨hc, hr⟩ := h.room.resolve_left henq
  have hp : 1 ≤ ring.trbCount.toNat := by
    rw [Nat.one_le_iff_ne_zero]
    exact fun h0 => hc (eq_of_toNat_eq h0)
  have hc' : (ring.trbCount - 1).toNat = ring.trbCount.toNat - 1 :=
    toNat_sub_of_le (show (1 : BitVec 16) ≤ _ from le_def.mpr hp)
  have hf : ring.enqueuePointer.toNat + sizeOfTrb < u64Size := by
    simp only [sizeOfTrb] at hr ⊢
    omega
  unfold advanceEnqueue
  rw [get_bind_apply, checkedAdd_eq_some.mpr ⟨hf, rfl⟩]
  dsimp only
  rw [set_bind_apply, if_neg hc, set_bind_apply]
  split
  · rename_i hl
    have ho : ring.trbCount = 1 := by
      rw [hl] at hc'
      refine eq_of_toNat_eq ?_
      change 0 = _ at hc'
      change _ = 1
      omega
    exact enterNextSegment_ends ht hcov hle fun next hn =>
      (hrd ho next hn).congr ⟨rfl, rfl, rfl, rfl⟩
  · rename_i hm
    refine fun _ => ⟨h.covered, h.index_lt, .inr ⟨hm, ?_⟩⟩
    rw [hc', toNat_ofNat, Nat.mod_eq_of_lt hf]
    simp only [sizeOfTrb] at hr ⊢
    omega

lemma addEvent_ends (h : Inv ring) (trb : Trb) :
    Ends (addEvent trb ring) (fun _ s => CurrentEntrySound s → Inv s)
      (fun e s => e ≠ .abort ∧ Inv s) := by
  unfold addEvent checkInited
  rw [bind_assoc, get_bind_apply]
  split
  · refine ⟨?_, h⟩
    intro ha
    cases ha
  · rename_i hi
    push Not at hi
    obtain ⟨hsz, hb, henq⟩ := hi
    rw [pure_bind]
    refine ends_bind ((quiet_isFull h hsz henq).mono (fun _ _ h => h) ?_) ?_
    · rintro e s ⟨he, rfl⟩
      exact ⟨he, h⟩
    · rintro full s ⟨rfl, hrd⟩
      split
      · refine ⟨?_, h⟩
        intro ha
        cases ha
      · refine ends_bind ((writeEvent_ends s trb).mono (fun _ _ h => h) ?_) ?_
        · rintro e s' ⟨he, hs'⟩
          exact ⟨he, hs'.inv h⟩
        · rintro _ s' hs'
          have hs : s' = { s with mem := s'.mem } := by
            obtain ⟨bytes, rfl⟩ := hs'
            rfl
          refine (advanceEnqueue_ends (hs'.inv h) ?_ ?_ ?_).mono (fun _ _ h => h)
            fun _ _ h => h.elim
          · rw [hs]
            exact ⟨hsz, hb⟩
          · rw [hs]
            exact henq
          · intro ho next hn
            rw [hs] at ho hn
            have hr := (hrd ho next hn).congr hs'.sameTable
            rwa [← hs'.sameTable.size] at hr

/-- **Step.** A well-behaved operation keeps the invariant if the current entry is sound after it.
-/
lemma perform_ends (h : Inv ring) {op : Op} (hop : op.Admissible ring) :
    Ends (perform op ring) (fun _ s => CurrentEntrySound s → Inv s)
      (fun e s => e ≠ .abort ∧ Inv s) := by
  cases op with
  | addEvent trb => exact addEvent_ends h trb
  | setSegTableSize size =>
    unfold perform setSegTableSize
    dsimp only
    exact tryReconfigureEventRing_ends ⟨hop, h.index_lt, h.room⟩
  | setSegTableBaseAddr addr =>
    unfold perform setSegTableBaseAddr
    dsimp only
    exact tryReconfigureEventRing_ends ⟨h.covered, h.index_lt, h.room⟩
  | setDequeuePointer | guestWrites => exact fun _ => ⟨h.covered, h.index_lt, h.room⟩

lemma step_isSome (h : Inv ring) {op : Op} (hop : op.Admissible ring) :
    ∃ ring', step ring op = some ring' ∧ (CurrentEntrySound ring' → Inv ring') := by
  have hen := perform_ends h hop
  unfold step
  cases hp : perform op ring with
  | ok a s =>
    rw [hp] at hen
    exact ⟨s, rfl, hen⟩
  | error e s =>
    rw [hp] at hen
    cases e with
    | returned e => exact ⟨s, rfl, fun _ => hen.2⟩
    | abort => exact absurd rfl hen.1

lemma run_isSome {ops : List Op} (h : Inv ring) (ho : Behaves ring ops) :
    ∃ ring', run step ops ring = some ring' := by
  induction ops generalizing ring with
  | nil => exact ⟨ring, rfl⟩
  | cons op ops ih =>
    obtain ⟨ring', hs, hi⟩ := step_isSome h ho.1
    obtain ⟨hsn, hr⟩ := ho.2 ring' hs
    rw [run_cons, hs, Option.bind_some]
    exact ih (hi hsn) hr

/-- **Safety.** Whatever is in guest memory and however events, register writes and changes of
memory follow each other, no operation aborts as long as the guest behaves. -/
theorem operations_return (mem : GuestMemory) (ops : List Op) (hops : Behaves (new mem) ops) :
    ∃ ring, run step ops (new mem) = some ring :=
  run_isSome (inv_new mem) hops

def oneSegment (size : BitVec 8) : GuestMemory where
  regions := [MemoryRegion.firstPage]
  isProtected := false
  bytes a := if a = 0x101 then 0x02 else if a = 0x108 then size else 0

def configureAndReport : List Op :=
  [.setSegTableSize 1, .setSegTableBaseAddr 0x100, .addEvent ⟨0, 0, 0⟩]

theorem operations_return_sixteen :
    Behaves (new (oneSegment 16)) configureAndReport ∧
      ∃ ring, run step configureAndReport (new (oneSegment 16)) = some ring :=
  have ho : Behaves (new (oneSegment 16)) configureAndReport := by decide +kernel
  ⟨ho, operations_return _ _ ho⟩

/-- A segment of no TRBs: the count of the TRBs left in it underflows at the first event. -/
theorem empty_segment_aborts : (run step configureAndReport (new (oneSegment 0))).isNone := by
  decide +kernel

end GunyahVmm.Xhci.EventRing
