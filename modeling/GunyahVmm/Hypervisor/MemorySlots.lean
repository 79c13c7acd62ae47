import GunyahVmm.Hypervisor.GunyahVm
import Mathlib.Data.List.Range

/-! Slots of a VM. Later regions are numbered from the number of regions, right if none was split.
-/

namespace GunyahVmm.Hypervisor
open Run Tiling Run.Outcome VmState List

/-! ## Slots of a new VM -/

/-- How many chunks after the first one a region is lent in. -/
def regionExtra (cfg : Config) (host : Host) (region : MappedRegion) (index : Nat) : Nat :=
  if region.fileBacked = none ∧ lends cfg region = true then
    ((lendChunks cfg region.size (host.collapse index)).getD []).length - 1
  else 0

/-- How many chunks after the first ones the regions are lent in. -/
def extraChunks (cfg : Config) (host : Host) : List MappedRegion → (index : Nat) → Nat
  | [], _ => 0
  | region :: regions, index =>
    regionExtra cfg host region index + extraChunks cfg host regions (index + 1)

variable {cfg : Config} {host : Host}
variable {index next next' guestBase : Nat} {rs : List Registration}
  {ioctl : Nat → Outcome Nat Unit}

lemma lendLoop_labels_succ {chunks : List LendChunk} {ci : Nat}
    (h : lendLoop ioctl index guestBase chunks (ci + 1) next = .ok (rs, next')) :
    rs.map Registration.label = (range' next chunks.length).map memSlot ∧
      next' = next + chunks.length := by
  induction chunks generalizing ci next rs with
  | nil =>
    cases h
    exact ⟨rfl, rfl⟩
  | cons chunk chunks ih =>
    simp only [lendLoop, Nat.add_eq_zero_iff, Nat.one_ne_zero, and_false, ↓reduceIte, gt_iff_lt,
      Nat.zero_lt_succ] at h
    split at h
    · obtain ⟨_, _, h⟩ := bind_eq_ok.mp h
      obtain ⟨⟨rest, next''⟩, hr, h⟩ := bind_eq_ok.mp h
      cases h
      obtain ⟨hl, hn⟩ := ih hr
      refine ⟨?_, by rw [hn, length_cons]; omega⟩
      rw [map_cons, hl, length_cons, range'_succ, map_cons]
    · cases h

lemma lendLoop_labels {chunk : LendChunk} {chunks : List LendChunk}
    (h : lendLoop ioctl index guestBase (chunk :: chunks) 0 next = .ok (rs, next')) :
    rs.map Registration.label = memSlot index :: (range' next chunks.length).map memSlot ∧
      next' = next + chunks.length := by
  simp only [lendLoop, ↓reduceIte, gt_iff_lt, Nat.lt_irrefl] at h
  split at h
  · obtain ⟨_, _, h⟩ := bind_eq_ok.mp h
    obtain ⟨⟨rest, next''⟩, hr, h⟩ := bind_eq_ok.mp h
    cases h
    obtain ⟨hl, hn⟩ := lendLoop_labels_succ hr
    exact ⟨by rw [map_cons, hl], hn⟩
  · cases h

lemma mapRegion_labels {region : MappedRegion}
    (h : mapRegion cfg host region index next = .ok (rs, next')) :
    rs.map Registration.label =
        memSlot index :: (range' next (regionExtra cfg host region index)).map memSlot ∧
      next' = next + regionExtra cfg host region index := by
  have hw : ∀ call, (do
      host.ioctl index 0
      return ([⟨memSlot index, region.guestBase, region.size, call⟩], next)) =
        Outcome.ok (rs, next') →
      rs.map Registration.label = [memSlot index] ∧ next' = next := by
    intro call hc
    obtain ⟨_, _, hc⟩ := bind_eq_ok.mp hc
    cases hc
    exact ⟨rfl, rfl⟩
  simp only [mapRegion] at h
  split at h
  · rename_i writable hf
    simpa [regionExtra, hf] using hw _ h
  · rename_i hf
    split at h
    · rename_i hl
      split at h
      · cases h
      · rename_i hchs
        simpa [regionExtra, hf, hl, hchs] using hw _ h
      · rename_i chunks hne hchs
        cases chunks with
        | nil => exact absurd rfl hne
        | cons chunk chunks =>
          simpa [regionExtra, hf, hl, hchs] using lendLoop_labels h
    · rename_i hl
      simpa [regionExtra, hf, hl] using hw _ h

/-- The regions have their indexes as slots, and the further chunks the slots from
`next` on. -/
lemma mapRegions_labels {regions : List MappedRegion}
    (h : mapRegions cfg host regions index next = .ok (rs, next')) :
    (rs.map Registration.label).Perm
      ((range' index regions.length ++
        range' next (extraChunks cfg host regions index)).map memSlot) := by
  induction regions generalizing index next next' rs with
  | nil =>
    cases h
    exact List.Perm.refl _
  | cons region regions ih =>
    simp only [mapRegions] at h
    obtain ⟨⟨here, next₁⟩, hh, h⟩ := bind_eq_ok.mp h
    obtain ⟨⟨rest, next₂⟩, hr, h⟩ := bind_eq_ok.mp h
    cases h
    obtain ⟨hl, hn⟩ := mapRegion_labels hh
    have hp := ih hr
    rw [hn] at hp
    rw [map_append, hl, extraChunks, length_cons, range'_succ, ← range'_append_1]
    simp only [map_append, map_cons, cons_append] at hp ⊢
    refine List.Perm.cons _ ((hp.append_left _).trans ?_)
    rw [← append_assoc, ← append_assoc]
    exact perm_append_comm.append_right _

lemma new_labels {guestMem : List MappedRegion} {s : VmState} (h : new cfg host guestMem = .ok s) :
    s.vm = ⟨guestMem, ∅, []⟩ ∧ s.labels.Perm
      ((range (guestMem.length + extraChunks cfg host guestMem 0)).map memSlot) := by
  simp only [new] at h
  obtain ⟨_, _, h⟩ := bind_eq_ok.mp h
  obtain ⟨⟨rs, next⟩, hrs, h⟩ := bind_eq_ok.mp h
  obtain ⟨_, _, h⟩ := bind_eq_ok.mp h
  cases h
  have hp := mapRegions_labels hrs
  have hr := @List.range'_append_1 0 guestMem.length (extraChunks cfg host guestMem 0)
  rw [Nat.zero_add] at hr
  rw [hr, ← range_eq_range'] at hp
  exact ⟨rfl, hp⟩

lemma memSlot_of_lt {n : Nat} (h : n < 0x100000000) : memSlot n = n := Nat.mod_eq_of_lt h

lemma map_memSlot_range {n : Nat} (h : n ≤ 0x100000000) : (range n).map memSlot = range n := by
  have hid : (range n).map memSlot = (range n).map id :=
    map_congr_left fun x hx => memSlot_of_lt (by have := mem_range.mp hx; omega)
  rw [hid, map_id]

/-! ## Slots of later regions -/

namespace VmState

abbrev added (s : VmState) : List Nat := s.vm.memRegions.keys

/-- `extra` slots were handed out beyond the regions, and the added slots and the gaps follow. -/
structure Numbered (extra : Nat) (s : VmState) : Prop where
  labels : s.labels.Perm (List.range (s.vm.guestMem.length + extra) ++ s.added)
  slots : (s.added ++ s.vm.memSlotGaps).Perm
    (List.range' s.vm.guestMem.length (s.added.length + s.vm.memSlotGaps.length))
  unsplit : extra ≠ 0 → s.added = [] ∧ s.vm.memSlotGaps = []

variable {extra : Nat} {s s' : VmState}
variable {chunks : List LendChunk}

lemma Numbered.le_of_mem (h : s.Numbered extra) {slot : Nat} (hs : slot ∈ s.added) :
    s.vm.guestMem.length ≤ slot := by
  have hm := h.slots.mem_iff.mp (mem_append_left _ hs)
  exact (mem_range'_1.mp hm).1

lemma Numbered.nodup (h : s.Numbered extra) : s.labels.Nodup := by
  rw [h.labels.nodup_iff]
  by_cases hex : extra = 0
  · refine List.Nodup.append nodup_range s.vm.memRegions.nodupKeys fun slot hr ha => ?_
    have := h.le_of_mem ha
    have := mem_range.mp hr
    omega
  · rw [(h.unsplit hex).1, append_nil]
    exact nodup_range

lemma Numbered.takeSlot (h : s.Numbered extra)
    (hf : s.added.length + s.vm.guestMem.length < 0x100000000) :
    ((VmState.takeSlot s.vm).1 :: (s.added ++ (VmState.takeSlot s.vm).2)).Perm
      (range' s.vm.guestMem.length (s.added.length + (VmState.takeSlot s.vm).2.length + 1)) := by
  have hs := h.slots
  cases hg : s.vm.memSlotGaps with
  | nil =>
    rw [hg] at hs
    simp only [append_nil, length_nil, Nat.add_zero] at hs
    simp only [VmState.takeSlot, hg, memSlot_of_lt hf, append_nil, length_nil, Nat.add_zero]
    rw [range'_concat, Nat.one_mul, Nat.add_comm s.added.length]
    exact (hs.cons _).trans (perm_append_singleton _ _).symm
  | cons gap gaps =>
    rw [hg] at hs
    simp only [VmState.takeSlot, hg]
    exact perm_middle.symm.trans hs

lemma addMemoryRegion_cases (s : VmState) (args : AddArgs) :
    (s.addMemoryRegion args).2 = s ∨
    (s.addMemoryRegion args).2 = { s with vm := { s.vm with
      memSlotGaps := (takeSlot s.vm).2.orderedInsert (· ≤ ·) (takeSlot s.vm).1 } } ∨
    ∃ size call, (s.addMemoryRegion args).2 =
      { vm := { s.vm with
          memRegions := s.vm.memRegions.insert (takeSlot s.vm).1 args.guestAddr
          memSlotGaps := (takeSlot s.vm).2 }
        registered := s.registered ++
          [⟨(takeSlot s.vm).1, args.guestAddr, size, call⟩] } := by
  simp only [addMemoryRegion]
  split
  · split
    · exact Or.inl rfl
    split
    · exact Or.inl rfl
    split
    · exact Or.inr (Or.inl rfl)
    · exact Or.inr (Or.inr ⟨_, _, rfl⟩)
  · exact Or.inl rfl

lemma Numbered.addMemoryRegion (h : s.Numbered 0) (args : AddArgs)
    (hf : s.added.length + s.vm.guestMem.length < 0x100000000) :
    (s.addMemoryRegion args).2.Numbered 0 := by
  have ht := h.takeSlot hf
  rcases s.addMemoryRegion_cases args with heq | heq | ⟨size, call, heq⟩ <;> rw [heq]
  · exact h
  · refine ⟨h.labels, ?_, fun hne => absurd rfl hne⟩
    rw [orderedInsert_length]
    refine ((perm_orderedInsert _ _ _).append_left _).trans ?_
    exact perm_middle.trans ht
  · have hn : (VmState.takeSlot s.vm).1 ∉ s.added := by
      have hnd := (ht.nodup_iff.mpr nodup_range').notMem
      exact fun hm => hnd (mem_append_left _ hm)
    have hk : (s.vm.memRegions.insert (VmState.takeSlot s.vm).1 args.guestAddr).keys =
        (VmState.takeSlot s.vm).1 :: s.added := by
      rw [AList.keys_insert, erase_of_not_mem hn]
    refine ⟨?_, ?_, fun hne => absurd rfl hne⟩
    · simp only [VmState.labels, map_append, map_cons, map_nil, added, hk]
      exact (h.labels.append_right _).trans (by
        rw [append_assoc]
        exact (perm_append_singleton _ _).append_left _)
    · simp only [added, hk, cons_append, length_cons]
      rw [Nat.add_right_comm]
      exact ht

lemma Numbered.removeMemoryRegion (h : s.Numbered extra) (slot : Nat) :
    (s.removeMemoryRegion slot none).2.Numbered extra := by
  simp only [VmState.removeMemoryRegion]
  cases hl : s.vm.memRegions.lookup slot with
  | none => exact h
  | some addr =>
    have hm : slot ∈ s.added := AList.lookup_isSome.mp (by rw [hl]; rfl)
    have hex : extra = 0 := by
      by_contra hne
      rw [(h.unsplit hne).1] at hm
      simp at hm
    subst hex
    have hk : (s.vm.memRegions.erase slot).keys = s.added.erase slot := AList.keys_erase _ _
    refine ⟨?_, ?_, fun hne => absurd rfl hne⟩
    · have her : (s.registered.eraseP fun r => r.label == slot).map Registration.label =
          s.labels.erase slot := by
        rw [VmState.labels, erase_eq_eraseP', eraseP_map]
        rfl
      simp only [VmState.labels, added, hk, Option.isNone_none, ↓reduceIte, her]
      have hn : slot ∉ range (s.vm.guestMem.length + 0) := by
        have := h.le_of_mem hm
        simpa using this
      rw [← erase_append_right _ hn]
      exact h.labels.erase slot
    · simp only [added, hk, orderedInsert_length]
      have hlen := length_erase_of_mem hm
      have hp := length_pos_of_mem hm
      refine ((perm_orderedInsert _ _ _).append_left _).trans (perm_middle.trans ?_)
      rw [show (s.added.erase slot).length + (s.vm.memSlotGaps.length + 1) =
        s.added.length + s.vm.memSlotGaps.length by omega]
      exact ((perm_cons_erase hm).symm.append_right _).trans h.slots

/-! ## Histories -/

/-- When a call keeps the slots distinct. -/
def meets (extra : Nat) (s : VmState) : Op → Bool
  | .add _ => extra = 0 && s.added.length + s.vm.guestMem.length < 0x100000000
  | .remove _ ioctl => ioctl.isNone

def guardedStep (extra : Nat) (s : VmState) (op : Op) : Option VmState :=
  if meets extra s op then s.step op else none

lemma guardedStep_numbered {op : Op} (h : s.Numbered extra)
    (hs : s.guardedStep extra op = some s') : s'.Numbered extra := by
  simp only [guardedStep] at hs
  split_ifs at hs with hm
  cases op with
  | add args =>
    simp only [meets, Bool.and_eq_true, decide_eq_true_eq] at hm
    obtain ⟨rfl, hf⟩ := hm
    have ha := h.addMemoryRegion args hf
    simp only [step] at hs
    split at hs
    · cases hs
    rename_i heq
    cases hs
    rw [heq] at ha
    exact ha
  | remove slot ioctl =>
    simp only [meets, Option.isNone_iff_eq_none] at hm
    subst hm
    cases hs
    exact h.removeMemoryRegion slot

lemma new_numbered {guestMem : List MappedRegion} (h : new cfg host guestMem = .ok s)
    (hf : guestMem.length + extraChunks cfg host guestMem 0 ≤ 0x100000000) :
    s.Numbered (extraChunks cfg host guestMem 0) := by
  obtain ⟨hvm, hl⟩ := new_labels h
  rw [map_memSlot_range hf] at hl
  refine ⟨?_, ?_, fun _ => ?_⟩
  all_goals rw [added, hvm]
  · simpa using hl
  · exact List.Perm.refl _
  · exact ⟨rfl, rfl⟩

/-- **Slots.** In every history of a VM in which regions are only added while no
region of the VM was split, numbers are left and removals succeed, all memory is
registered under distinct slots. -/
theorem slots_distinct (cfg : Config) (host : Host) (guestMem : List MappedRegion) {s₀ s : VmState}
    (hnew : new cfg host guestMem = .ok s₀)
    (hfit : guestMem.length + extraChunks cfg host guestMem 0 ≤ 0x100000000) (ops : List Op)
    (hrun : run (guardedStep (extraChunks cfg host guestMem 0)) ops s₀ = some s) : s.labels.Nodup :=
  (run_invariant (Numbered (extraChunks cfg host guestMem 0))
    (fun _ _ _ h hs => guardedStep_numbered h hs) ops s₀ s (new_numbered hnew hfit) hrun).nodup

def willingHost : Host := ⟨.ok (), fun _ _ _ => true, fun _ _ => .ok (), .ok ()⟩

/-- A protected VM whose regions are prepared and split. -/
def chunkedConfig : Config := ⟨.isProtected, some .chunked⟩

def unsplitMemory : List MappedRegion :=
  [⟨⟨0x80000000, 0x1000000, .guestMemoryRegion, by decide, by decide⟩, none⟩,
    ⟨⟨0x90000000, 0x1000, .staticSwiotlbRegion, by decide, VmMemory.MemoryRegion.page_lt⟩, none⟩]

/-- A page is added, another one refused, and the first one removed. -/
def unsplitRun : List Op :=
  [.add ⟨0x1000, 1, false, 0x1000, none, none⟩,
    .add ⟨0x2000, 1, false, 0x1000, some eexist, some eexist⟩, .remove 2 none]

theorem slots_distinct_unsplit : ∃ s₀ s,
    new chunkedConfig willingHost unsplitMemory = .ok s₀ ∧
    run (guardedStep (extraChunks chunkedConfig willingHost unsplitMemory 0)) unsplitRun s₀ =
      some s ∧ s.labels.Nodup :=
  ⟨_, _, rfl, rfl, slots_distinct chunkedConfig willingHost unsplitMemory rfl (by decide)
    unsplitRun rfl⟩

/-! ## A region that is split -/

lemma le_length_mul_of_tiles {lo hi : Nat}
    (h : Tiles LendChunk.offset LendChunk.size lo chunks hi)
    (hle : ∀ c ∈ chunks, c.size ≤ lendChunkSize) : hi ≤ lo + chunks.length * lendChunkSize := by
  induction chunks generalizing lo with
  | nil => exact Nat.le_of_eq (by simpa using (show lo = hi from h).symm)
  | cons c cs ih =>
    have hr := ih h.2.2 (forall_mem_cons.mp hle).2
    have hc := hle c mem_cons_self
    rw [length_cons, Nat.succ_mul]
    omega

lemma lendLoop_ok {index guestBase : Nat} (hf : ∀ c ∈ chunks, guestBase + c.offset < u64Size)
    (ci next : Nat) :
    ∃ res, lendLoop (willingHost.ioctl index) index guestBase chunks ci next = .ok res := by
  induction chunks generalizing ci next with
  | nil => exact ⟨_, rfl⟩
  | cons chunk chunks ih =>
    obtain ⟨res, hr⟩ := ih (forall_mem_cons.mp hf).2 (ci + 1)
      (if ci > 0 then next + 1 else next)
    rw [lendLoop, if_pos (hf chunk mem_cons_self)]
    simp only [willingHost, ok_bind] at hr ⊢
    rw [hr]
    exact ⟨_, rfl⟩

lemma mapRegion_of_chunks {region : MappedRegion} {index next : Nat} {chunk : LendChunk}
    (hf : region.fileBacked = none) (hl : lends cfg region = true)
    (hc : lendChunks cfg region.size (host.collapse index) = some (chunk :: chunks)) :
    mapRegion cfg host region index next =
      lendLoop (host.ioctl index) index region.guestBase (chunk :: chunks) 0 next := by
  simp [mapRegion, hf, hl, hc]

def largeRegion : MappedRegion :=
  ⟨⟨0x80000000, 0x20000000, .guestMemoryRegion, by decide, by decide⟩, none⟩

def splitMemory : List MappedRegion := [largeRegion]

def addPage : AddArgs := ⟨0x1000, 0x1000, false, 0x1000, none, none⟩

lemma splitMemory_chunks : ∃ first second rest,
    lendChunks chunkedConfig largeRegion.size (willingHost.collapse 0) =
      some (first :: second :: rest) ∧
    ∀ c ∈ first :: second :: rest, largeRegion.guestBase + c.offset < u64Size := by
  obtain ⟨prep, hp⟩ :
      ∃ prep, prepareLendRegion largeRegion.size (willingHost.collapse 0) = some prep :=
    ⟨_, if_pos (by decide)⟩
  obtain ⟨chunks, hchs, ht, hle⟩ := computeLendChunks_prepared hp (by decide)
  have hlen := le_length_mul_of_tiles ht hle
  have hl : lendChunks chunkedConfig largeRegion.size (willingHost.collapse 0) = some chunks := by
    simp [lendChunks, chunkedConfig, hp, hchs]
  simp only [thpSize, lendChunkSize, largeRegion] at hlen
  rcases chunks with _ | ⟨first, _ | ⟨second, rest⟩⟩
  · simp at hlen
  · simp at hlen
  · refine ⟨first, second, rest, hl, fun c hc => ?_⟩
    have hb := (ht.bounds hc).2.2
    simp only [thpSize, u64Size, largeRegion] at hb ⊢
    omega

lemma splitMemory_new : ∃ rs slots, new chunkedConfig willingHost splitMemory =
      .ok ⟨⟨splitMemory, ∅, []⟩, rs⟩ ∧ rs.map Registration.label = 0 :: 1 :: slots := by
  obtain ⟨first, second, rest, hchs, hf⟩ := splitMemory_chunks
  obtain ⟨⟨rs, next⟩, hrs⟩ := @lendLoop_ok (first :: second :: rest) 0 largeRegion.guestBase hf 0 1
  obtain ⟨hl, _⟩ := lendLoop_labels hrs
  have hm : mapRegion chunkedConfig willingHost largeRegion 0 1 = .ok (rs, next) := by
    rw [mapRegion_of_chunks rfl rfl hchs, hrs]
  refine ⟨rs, (range' 2 rest.length).map memSlot, ?_, ?_⟩
  · have hmk : willingHost.createVm = .ok () := rfl
    have hc : willingHost.tryClone = .ok () := rfl
    simp [new, splitMemory, mapRegions, hm, hmk, hc]
  · rw [hl, length_cons, range'_succ, map_cons]
    rfl

/-- Adding a page to a VM with a region of 512 MiB registers it under the slot of
the second chunk. -/
theorem split_region_slot_taken : ∃ s₀ slot s₁,
    new chunkedConfig willingHost splitMemory = .ok s₀ ∧
    s₀.addMemoryRegion addPage = (.ok slot, s₁) ∧ ¬ s₁.labels.Nodup := by
  obtain ⟨rs, slots, hn, hl⟩ := splitMemory_new
  refine ⟨_, 1, ⟨⟨splitMemory, AList.insert 1 0x1000 ∅, []⟩,
    rs ++ [⟨1, 0x1000, 0x1000, .setUserMemoryRegion false⟩]⟩, hn, rfl, ?_⟩
  simp [labels, hl]

end VmState

end GunyahVmm.Hypervisor
