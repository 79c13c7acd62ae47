import GunyahVmm.Disk.CompositeLayout
import GunyahVmm.Lib.Segments

/-! The flat array of a composite disk. An access to a component is one to its bytes there, and a
partial operation does a first part. -/

namespace GunyahVmm.Disk.CompositeDiskFile
open Run Tiling Run.Outcome Disk.BackingMemory List
variable {host : Host} {disk : CompositeDiskFile} {total x n size position : Nat}
  {parts : List ComponentDiskPart} {d e : ComponentDiskPart} {c c' c'' : FileId → List (BitVec 8)}
  {data : List (BitVec 8)} {s s' s'' : ComponentFiles}

/-! ## The flat array -/

/-- The bytes of the disk: those of the components, one after the other. -/
def flat (disk : CompositeDiskFile) (content : FileId → List (BitVec 8)) : List (BitVec 8) :=
  disk.componentDisks.flatMap fun d => (content d.file).take d.length

/-- The component files are different files, and each has the bytes of its range. -/
structure Wired (disk : CompositeDiskFile) (total : Nat) (content : FileId → List (BitVec 8)) :
    Prop where
  covers : Covers 0 disk.componentDisks total
  total_lt : total < u64Size
  distinct : disk.componentDisks.Pairwise fun d1 d2 => d1.file ≠ d2.file
  holds : ∀ d ∈ disk.componentDisks, d.length ≤ (content d.file).length

namespace Wired
variable (hw : Wired disk total c)
include hw

lemma length_part (hd : d ∈ disk.componentDisks) :
    ((c d.file).take d.length).length = d.length := by
  have hh := hw.holds d hd
  rw [length_take]
  omega

lemma consecutive :
    Segments.Consecutive ComponentDiskPart.offset ComponentDiskPart.length 0 disk.componentDisks
      total :=
  (tiles_iff.mp hw.covers).1

lemma length_flat : (disk.flat c).length = total := by
  have hl := Segments.length_flatMap hw.consecutive fun d hd => hw.length_part hd
  rw [flat]
  omega

lemma take_drop_flat (hd : d ∈ disk.componentDisks) (hle : d.offset ≤ x)
    (hend : x + n ≤ d.offset + d.length) :
    ((disk.flat c).drop x).take n = ((c d.file).drop (x - d.offset)).take n := by
  have hp := Segments.take_drop_flatMap hw.consecutive (fun d hd => hw.length_part hd) hd hle hend
  rw [Nat.sub_zero] at hp
  rw [flat, hp, drop_take, take_take, Nat.min_eq_left (by omega)]

end Wired

/-! ## What an operation does -/

/-- The files hold the array with `data` written from `x` on, and are otherwise as before. -/
structure Wrote (disk : CompositeDiskFile) (c c' : FileId → List (BitVec 8)) (x : Nat)
    (data : List (BitVec 8)) : Prop where
  flat : disk.flat c' = patch (disk.flat c) x data
  length : ∀ d ∈ disk.componentDisks, (c' d.file).length = (c d.file).length
  beyond : ∀ d ∈ disk.componentDisks, (c' d.file).drop d.length = (c d.file).drop d.length
  others : ∀ f, (∀ d ∈ disk.componentDisks, d.file ≠ f) → c' f = c f

lemma Wrote.refl (disk : CompositeDiskFile) (c : FileId → List (BitVec 8)) (x : Nat) :
    Wrote disk c c x [] :=
  ⟨patch_nil.symm, fun _ _ => rfl, fun _ _ => rfl, fun _ _ => rfl⟩

lemma Wrote.trans {data' : List (BitVec 8)} (h : Wrote disk c c' x data)
    (h' : Wrote disk c' c'' (x + data.length) data') : Wrote disk c c'' x (data ++ data') where
  flat := by rw [h'.flat, h.flat, patch_patch]
  length := fun d hd => (h'.length d hd).trans (h.length d hd)
  beyond := fun d hd => (h'.beyond d hd).trans (h.beyond d hd)
  others := fun f hf => (h'.others f hf).trans (h.others f hf)

lemma Wired.of_wrote (hw : Wired disk total c) (h : Wrote disk c c' x data) :
    Wired disk total c' :=
  ⟨hw.covers, hw.total_lt, hw.distinct, fun d hd => h.length d hd ▸ hw.holds d hd⟩

def share (d : ComponentDiskPart) (x : Nat) (data : List (BitVec 8)) : List (BitVec 8) :=
  (data.drop (d.offset - x)).take (d.length - (x - d.offset))

lemma Wired.wrote_of_shares (hw : Wired disk total c)
    (hp : ∀ d ∈ disk.componentDisks,
      c' d.file = patch (c d.file) (x - d.offset) (share d x data))
    (ho : ∀ f, (∀ d ∈ disk.componentDisks, d.file ≠ f) → c' f = c f) :
    Wrote disk c c' x data where
  flat := by
    have hpt := Segments.patch_flatMap (x := x) hw.consecutive (fun d hd => hw.length_part hd) data
    rw [Nat.sub_zero, Nat.zero_sub, drop_zero] at hpt
    rw [CompositeDiskFile.flat, CompositeDiskFile.flat, hpt]
    refine flatMap_congr fun d hd => ?_
    rw [hp d hd, take_patch, share, patch_take_left]
    rw [hw.length_part hd]
    omega
  length := fun d hd => by rw [hp d hd, length_patch]
  beyond := fun d hd => by
    rw [hp d hd]
    by_cases hin : x - d.offset ≤ d.length
    · refine drop_patch ?_
      rw [share, length_take]
      omega
    · rw [share, show d.length - (x - d.offset) = 0 by omega, take_zero, patch_nil]
  others := ho

/-- The component and the position in its file of a byte of the array. -/
def address (disk : CompositeDiskFile) (x : Nat) : Option (FileId × Nat) :=
  (disk.componentDisks.find? fun d => d.offset ≤ x ∧ x < d.offset + d.length).map
    fun d => (d.file, x - d.offset)

def touched (accesses : List FileAccess) : List (FileId × Nat) :=
  accesses.flatMap fun a => (List.range' a.position a.count).map fun i => (a.file, i)

def Touches (disk : CompositeDiskFile) (s s' : ComponentFiles) (x n : Nat) : Prop :=
  ∃ new, s'.accesses = s.accesses ++ new ∧
    (touched new).map some = (List.range' x n).map disk.address

lemma Touches.refl (disk : CompositeDiskFile) (s : ComponentFiles) (x : Nat) :
    Touches disk s s x 0 :=
  ⟨[], (append_nil _).symm, rfl⟩

lemma Touches.trans {m : Nat} (h : Touches disk s s' x m) (h' : Touches disk s' s'' (x + m) n) :
    Touches disk s s'' x (m + n) := by
  obtain ⟨new, hn, ht⟩ := h
  obtain ⟨new', hn', ht'⟩ := h'
  refine ⟨new ++ new', by rw [hn', hn, append_assoc], ?_⟩
  rw [touched, flatMap_append, map_append, ← touched, ← touched, ht, ht',
    ← map_append, range'_append_1]

section
variable (hw : Wired disk total c) (hd : d ∈ disk.componentDisks)
include hw hd

/-- A byte of the array lies in one component. -/
lemma Wired.address_eq (hle : d.offset ≤ x) (hlt : x < d.offset + d.length) :
    disk.address x = some (d.file, x - d.offset) := by
  rw [address, hw.covers.find?_eq hd hle hlt, Option.map_some]

lemma Wired.touched_access (hle : d.offset ≤ x) (hend : x + n ≤ d.offset + d.length) :
    (touched [⟨d.file, x - d.offset, n⟩]).map some = (range' x n).map disk.address := by
  rw [touched, flatMap_singleton, map_map, range'_eq_map_range,
    range'_eq_map_range, map_map, map_map]
  refine map_congr_left fun i hi => ?_
  have hlt : i < n := mem_range.mp hi
  simp only [Function.comp_apply]
  rw [hw.address_eq hd (by omega) (by omega), show x - d.offset + i = x + i - d.offset by omega]

/-! ## Accesses to one component -/

lemma Wired.part_lt : d.offset + d.length < u64Size := by
  have hb := hw.covers.bounds hd
  have ht := hw.total_lt
  omega

end

lemma findDisk_eq (h : ∀ d ∈ parts, d.offset + d.length < u64Size) (hd : parts.find?
    (fun d => decide (d.offset ≤ x ∧ x < d.offset + d.length)) = some d) :
    findDisk x parts = .ok d := by
  induction parts with
  | nil => cases hd
  | cons e rest ih =>
    obtain ⟨he, hr⟩ := forall_mem_cons.mp h
    rw [findDisk, addU64_of_lt he, ok_bind]
    by_cases hin : e.offset ≤ x ∧ x < e.offset + e.length
    · rw [find?_cons_of_pos (by simpa using hin)] at hd
      cases hd
      rw [if_pos hin]
    · rw [find?_cons_of_neg (by simpa using hin)] at hd
      rw [if_neg hin, ih hr hd]

lemma Wired.exists_disk (hw : Wired disk total c) (hx : x < total) :
    ∃ d ∈ disk.componentDisks, disk.diskAtOffset x = .ok d ∧ d.offset ≤ x ∧
      x < d.offset + d.length := by
  obtain ⟨d, hd, hle, hlt⟩ := (hw.covers.cover x).mpr ⟨Nat.zero_le _, hx⟩
  exact ⟨d, hd, findDisk_eq (fun _ => hw.part_lt) (hw.covers.find?_eq hd hle hlt), hle, hlt⟩

lemma access_content_self (s : ComponentFiles) (file position count : Nat) :
    (s.access file position count (s.content file)).content = s.content := by
  funext f
  unfold ComponentFiles.access
  dsimp only
  split
  · subst_vars
    rfl
  · rfl

lemma overwrite_eq_patch {content : List (BitVec 8)}
    (h : position + data.length ≤ content.length) :
    overwrite content position data = patch content position data := by
  refine ext_getElem? fun i => ?_
  rw [overwrite, show position - content.length = 0 by omega, replicate_zero, append_nil,
    getElem?_patch, append_assoc]
  by_cases hp : i < position
  · rw [getElem?_append_left (by rw [length_take]; omega), getElem?_take_of_lt hp]
    simp [show ¬ position ≤ i by omega]
  · rw [getElem?_append_right (by rw [length_take]; omega), length_take,
      Nat.min_eq_left (by omega)]
    by_cases hin : i - position < data.length
    · rw [getElem?_append_left hin, getElem?_eq_getElem hin,
        getElem?_eq_getElem (by omega : i < content.length)]
      simp [show position ≤ i by omega]
    · rw [getElem?_append_right (by omega), getElem?_drop,
        getElem?_eq_none (by omega : data.length ≤ i - position)]
      simp only [Option.getD_none, ite_self, Option.map_id']
      congr 1
      omega

section
variable (hw : Wired disk total c) (he : e ∈ disk.componentDisks) (hd : d ∈ disk.componentDisks)
  (hne : e ≠ d)

include hw he hd hne

lemma Wired.apart : e.offset + e.length ≤ d.offset ∨ d.offset + d.length ≤ e.offset := by
  have hpw : disk.componentDisks.Pairwise fun d1 d2 =>
      d1.offset + d1.length ≤ d2.offset ∨ d2.offset + d2.length ≤ d1.offset :=
    hw.covers.pairwise.imp Or.inl
  have : Std.Symm fun d1 d2 : ComponentDiskPart =>
      d1.offset + d1.length ≤ d2.offset ∨ d2.offset + d2.length ≤ d1.offset :=
    ⟨fun _ _ => Or.symm⟩
  exact hpw.forall he hd hne

lemma Wired.file_ne : e.file ≠ d.file := by
  have : Std.Symm fun d1 d2 : ComponentDiskPart => d1.file ≠ d2.file := ⟨fun _ _ => Ne.symm⟩
  exact hw.distinct.forall he hd hne

end

lemma Wired.wrote_part (hw : Wired disk total s.content) (hd : d ∈ disk.componentDisks)
    (hle : d.offset ≤ x) (hend : x + data.length ≤ d.offset + d.length) {count : Nat} :
    Wrote disk s.content
      (s.access d.file position count (patch (s.content d.file) (x - d.offset) data)).content x
      data := by
  refine hw.wrote_of_shares (fun e he => ?_) fun f hf => if_neg fun heq => hf d hd heq.symm
  by_cases hde : e = d
  · subst hde
    rw [share, show e.offset - x = 0 by omega, drop_zero, take_of_length_le (by omega)]
    exact if_pos rfl
  · have hs : share e x data = [] := by
      rw [share]
      rcases hw.apart he hd hde with hp | ha
      · rw [show e.length - (x - e.offset) = 0 by omega, take_zero]
      · rw [drop_of_length_le (by omega), take_nil]
    rw [hs, patch_nil]
    exact if_neg (hw.file_ne he hd hde)

def Works (host : Host) : Prop := ∀ n, host n ≠ none

lemma Wired.subSlice_eq (hw : Wired disk total c) (hd : d ∈ disk.componentDisks)
    (hlt : x < d.offset + d.length) (hsize : x + size ≤ total) :
    subSlice d x size = .ok (min size (d.offset + d.length - x)) := by
  have ht := hw.total_lt
  rw [subSlice, addU64_of_lt (by omega), ok_bind, addU64_of_lt (hw.part_lt hd),
    ok_bind]
  split
  · rw [subU64_of_le (by omega), Nat.min_eq_right (by omega)]
  · rw [Nat.min_eq_left (by omega)]

section
variable (hw : Wired disk total s.content) (hhost : Works host)
include hw hhost
section
variable (hd : d ∈ disk.componentDisks) (hle : d.offset ≤ x)
include hd hle

lemma Wired.readAt_spec (hp : 0 < n) (hend : x + n ≤ d.offset + d.length) :
    ∃ k s', 0 < k ∧ k ≤ n ∧
      s.readAt host d.file (x - d.offset) n = .ok (((disk.flat s.content).drop x).take k, s') ∧
      s'.content = s.content ∧ Touches disk s s' x k := by
  obtain ⟨most, hms⟩ := Option.ne_none_iff_exists'.mp (hhost s.accesses.length)
  have hh := hw.holds d hd
  have hl : (((s.content d.file).drop (x - d.offset)).take (min n (max 1 most))).length =
      min n (max 1 most) := by
    rw [length_take, length_drop]
    omega
  refine ⟨min n (max 1 most), s.access d.file (x - d.offset) (min n (max 1 most))
    (s.content d.file), by omega, by omega, ?_, access_content_self .., ?_⟩
  · rw [ComponentFiles.readAt, hms, hw.take_drop_flat hd hle (by omega)]
    dsimp only
    rw [hl]
  · exact ⟨_, rfl, hw.touched_access hd hle (by omega)⟩

lemma Wired.writeAt_spec (data : List (BitVec 8)) (hp : 0 < data.length)
    (hend : x + data.length ≤ d.offset + d.length) :
    ∃ k s', 0 < k ∧ k ≤ data.length ∧ s.writeAt host d.file (x - d.offset) data = .ok (k, s') ∧
      Wrote disk s.content s'.content x (data.take k) ∧ Touches disk s s' x k := by
  obtain ⟨most, hms⟩ := Option.ne_none_iff_exists'.mp (hhost s.accesses.length)
  have hh := hw.holds d hd
  have hl : (data.take (max 1 most)).length = min (max 1 most) data.length := length_take
  refine ⟨(data.take (max 1 most)).length, s.access d.file (x - d.offset)
    (data.take (max 1 most)).length (patch (s.content d.file) (x - d.offset)
      (data.take (max 1 most))), by omega, by omega, ?_, ?_, ?_⟩
  · rw [ComponentFiles.writeAt, hms]
    dsimp only
    rw [overwrite_eq_patch (by omega)]
  · have ht : data.take (data.take (max 1 most)).length = data.take (max 1 most) := by simp
    rw [ht]
    exact hw.wrote_part hd hle (by omega)
  · exact ⟨_, rfl, hw.touched_access hd hle (by omega)⟩

end

/-! ## Partial operations on the disk -/

lemma Wired.readAtVolatile_spec (hp : 0 < size) (hsize : x + size ≤ total) :
    ∃ k s', 0 < k ∧ k ≤ size ∧
      disk.readAtVolatile host size x s = .ok (((disk.flat s.content).drop x).take k, s') ∧
      s'.content = s.content ∧ Touches disk s s' x k := by
  obtain ⟨d, hd, hf, hle, hlt⟩ := hw.exists_disk (by omega : x < total)
  obtain ⟨k, s', hk, hkn, hr, heff⟩ := hw.readAt_spec hhost hd hle
    (n := min size (d.offset + d.length - x)) (by omega) (by omega)
  refine ⟨k, s', hk, by omega, ?_, heff⟩
  rw [readAtVolatile, hf, ok_bind, hw.subSlice_eq hd hlt hsize, ok_bind,
    subU64_of_le hle, ok_bind, hr]

lemma Wired.writeAtVolatile_spec (hp : 0 < data.length) (hsize : x + data.length ≤ total) :
    ∃ k s', 0 < k ∧ k ≤ data.length ∧ disk.writeAtVolatile host data x s = .ok (k, s') ∧
      Wrote disk s.content s'.content x (data.take k) ∧ Touches disk s s' x k := by
  obtain ⟨d, hd, hf, hle, hlt⟩ := hw.exists_disk (by omega : x < total)
  have hl : (data.take (min data.length (d.offset + d.length - x))).length =
      min data.length (d.offset + d.length - x) := by
    rw [length_take]
    omega
  obtain ⟨k, s', hk, hkn, hwrt, hwr, ht⟩ := hw.writeAt_spec hhost hd hle
    (data.take (min data.length (d.offset + d.length - x))) (by omega) (by omega)
  rw [take_take, Nat.min_eq_left (by omega)] at hwr
  refine ⟨k, s', hk, by omega, ?_, hwr, ht⟩
  rw [writeAtVolatile, hf, ok_bind, hw.subSlice_eq hd hlt hsize, ok_bind,
    subU64_of_le hle, ok_bind, hwrt]

end

/-! ## Asynchronous operations -/

section Async
variable {mem : BackingMemory} {regions : List MemRegion} {m : Nat}

lemma skip_zero : (MemRegionIter.new regions).skip 0 = MemRegionIter.new regions := rfl

lemma skip_skip (h : m + n < u64Size) :
    ((MemRegionIter.new regions).skip m).skip n = (MemRegionIter.new regions).skip (m + n) := by
  simp only [MemRegionIter.skip, MemRegionIter.mk.injEq, true_and]
  omega

lemma enterable_of_holds (h : mem.Holds regions) (m : Nat) :
    MemRegionIter.Enterable regions m := by
  intro r hr skipped _ hlt
  have hheld := h r hr
  have hsize := mem.size_lt
  simp only [holds, decide_eq_true_eq] at hheld
  omega

/-- What is left of the regions after `m` bytes, up to the end of the component. -/
lemma collect_skip (h : mem.Holds regions) (hlen : totalLen regions < u64Size)
    (hm : m < totalLen regions) (remaining : Nat) :
    ∃ rest, (((MemRegionIter.new regions).skip m).takeBytes remaining).collect =
        (.ok rest : Outcome IoError _) ∧ mem.Holds rest ∧
      addresses rest = ((addresses regions).drop m).take remaining ∧
      totalLen rest = min remaining (totalLen regions - m) := by
  have hs : min (0 + m) (u64Size - 1) = m := by omega
  have hl : ((addresses regions).drop m).length ≤ u64Size - 1 - m := by
    rw [length_drop, length_addresses]
    omega
  have ha : addresses (MemRegionIter.cut regions m (min (u64Size - 1 - m) remaining)) =
      ((addresses regions).drop m).take remaining := by
    rw [addresses_cut, Nat.min_comm, ← take_take, take_of_length_le hl]
  refine ⟨_, ?_, h.cut _ _, ha, ?_⟩
  · rw [MemRegionIter.collect_eq]
    · simp only [MemRegionIter.new, MemRegionIter.skip, MemRegionIter.takeBytes, hs]
    · simp only [MemRegionIter.new, MemRegionIter.skip, MemRegionIter.takeBytes, hs]
      exact enterable_of_holds h m
  · rw [← length_addresses, ha, length_take, length_drop, length_addresses]

lemma Wired.remainingDisk_eq (hw : Wired disk total c) (hd : d ∈ disk.componentDisks)
    (hlt : x < d.offset + d.length) : remainingDisk d x = .ok (d.offset + d.length - x) := by
  rw [remainingDisk, addU64_of_lt (hw.part_lt hd), ok_bind, subU64_of_le (by omega)]

variable (hw : Wired disk total s.content) (hhost : Works host) (hheld : mem.Holds regions)
  (hm : m < totalLen regions) (hsize : x + (totalLen regions - m) ≤ total)
  (hlen : totalLen regions < u64Size)

include hw hhost hheld hm hsize hlen

lemma Wired.readToMem_spec :
    ∃ k s', 0 < k ∧ k ≤ totalLen regions - m ∧
      disk.readToMem host x mem ((MemRegionIter.new regions).skip m) s =
        .ok (k, mem.withBytes (put mem.bytes
          (((addresses regions).drop m).zip (((disk.flat s.content).drop x).take k))), s') ∧
      s'.content = s.content ∧ Touches disk s s' x k := by
  obtain ⟨d, hd, hf, hle, hlt⟩ := hw.exists_disk (by omega : x < total)
  obtain ⟨rest, hc, hr, ha, hrm⟩ := collect_skip hheld hlen hm (d.offset + d.length - x)
  obtain ⟨k, s', hk, hkn, hrd, heff⟩ := hw.readAt_spec hhost hd hle
    (n := totalLen rest) (by omega) (by omega)
  have hl : (((disk.flat s.content).drop x).take k).length = k := by
    rw [length_take, length_drop, hw.length_flat]
    omega
  refine ⟨k, s', hk, by omega, ?_, heff⟩
  rw [readToMem, hf, ok_bind, hw.remainingDisk_eq hd hlt, ok_bind,
    subU64_of_le hle, ok_bind, hc, ok_bind, hrd, ok_bind, scatter_eq hr]
  dsimp only
  rw [hl, ha, zip_take_of_length_le (by omega)]

lemma Wired.writeFromMem_spec :
    ∃ k s', 0 < k ∧ k ≤ totalLen regions - m ∧
      disk.writeFromMem host x mem ((MemRegionIter.new regions).skip m) s = .ok (k, s') ∧
      Wrote disk s.content s'.content x (((mem.gather regions).drop m).take k) ∧
      Touches disk s s' x k := by
  obtain ⟨d, hd, hfnd, hle, hlt⟩ := hw.exists_disk (by omega : x < total)
  obtain ⟨rest, hc, hrs, ha, hrm⟩ := collect_skip hheld hlen hm (d.offset + d.length - x)
  have hg : mem.gather rest = ((mem.gather regions).drop m).take (d.offset + d.length - x) := by
    rw [gather_eq, gather_eq, ha, map_take, map_drop]
  have hl : (mem.gather rest).length = totalLen rest := by
    rw [gather_eq, length_map, length_addresses]
  obtain ⟨k, s', hk, hkn, hwrt, hwr, ht⟩ :=
    hw.writeAt_spec hhost hd hle (mem.gather rest) (by omega) (by omega)
  rw [hg, take_take, Nat.min_eq_left (by omega)] at hwr
  have hf : (rest.find? fun r => !mem.holds r) = none := by
    rw [find?_eq_none]
    intro r hr
    simp [hrs r hr]
  refine ⟨k, s', hk, by omega, ?_, hwr, ht⟩
  rw [writeFromMem, hfnd, ok_bind, hw.remainingDisk_eq hd hlt, ok_bind,
    subU64_of_le hle, ok_bind, hc, ok_bind, hf]
  exact hwrt

end Async

/-! ## Operations on ranges -/

section Ranges
variable {change : List (BitVec 8) → Nat → Nat → List (BitVec 8)} {w : Nat → List (BitVec 8)}
  {a b lo hi : Nat}

/-- The operation writes `w n` over `n` bytes of a file, and a part of it over a part. -/
structure ActsAs (change : List (BitVec 8) → Nat → Nat → List (BitVec 8))
    (w : Nat → List (BitVec 8)) : Prop where
  eq_patch : ∀ content position n, position + n ≤ content.length →
    change content position n = patch content position (w n)
  part : ∀ n i k, ((w n).drop i).take k = w (min k (n - i))

lemma ActsAs.zero (h : ActsAs change w) : w 0 = [] := by
  have hp := h.part 0 0 0
  rwa [eq_comm] at hp

lemma allocated_actsAs : ActsAs allocated fun _ => [] where
  eq_patch := fun content position n h => by
    rw [allocated, Nat.sub_eq_zero_of_le h, replicate_zero, append_nil, patch_nil]
  part := fun n i k => by rw [drop_nil, take_nil]

lemma zeros_part (n i k : Nat) :
    ((replicate n (0 : BitVec 8)).drop i).take k = replicate (min k (n - i)) 0 := by
  rw [drop_replicate, take_replicate]

lemma holed_actsAs : ActsAs holed fun n => replicate n 0 where
  eq_patch := fun _ _ _ _ => rfl
  part := zeros_part

lemma zeroed_actsAs : ActsAs zeroed fun n => replicate n 0 where
  eq_patch := fun content position n h => overwrite_eq_patch (by rwa [length_replicate])
  part := zeros_part

lemma range'_split {mid : Nat} (a b : Nat) (hlo : lo ≤ mid) (hhi : mid ≤ hi) :
    range' (max a lo) (min b mid - max a lo) ++ range' (max a mid) (min b hi - max a mid) =
      range' (max a lo) (min b hi - max a lo) := by
  by_cases hb : b ≤ mid
  · rw [show min b hi - max a mid = 0 by omega, range'_zero, append_nil,
      show min b mid - max a lo = min b hi - max a lo by omega]
  by_cases ha : mid ≤ a
  · rw [show min b mid - max a lo = 0 by omega, range'_zero, nil_append,
      show max a mid = max a lo by omega]
  · rw [show max a mid = max a lo + (min b mid - max a lo) by omega, range'_append_1]
    congr 1
    omega

/-- The loop over components from `lo` to `hi`: each gets its part of the range. -/
lemma Wired.forEachInRange_spec (hw : Wired disk total c) (hhost : Works host)
    (hc : ActsAs change w) (hmem : ∀ d ∈ parts, d ∈ disk.componentDisks)
    (hcov : Covers lo parts hi) (hds : parts.Pairwise fun d1 d2 => d1.file ≠ d2.file)
    (hh : ∀ d ∈ parts, d.length ≤ (s.content d.file).length) :
    ∃ s', forEachInRange host change a b parts s = .ok s' ∧
      (∀ d ∈ parts, s'.content d.file = patch (s.content d.file) (a - d.offset)
        (w (min b (d.offset + d.length) - max a d.offset))) ∧
      (∀ f, (∀ d ∈ parts, d.file ≠ f) → s'.content f = s.content f) ∧
      ∃ new, s'.accesses = s.accesses ++ new ∧
        (touched new).map some = (range' (max a lo) (min b hi - max a lo)).map disk.address := by
  induction parts generalizing s lo with
  | nil =>
    have heq : lo = hi := hcov
    refine ⟨s, rfl, forall_mem_nil _, fun _ _ => rfl, [], (append_nil _).symm, ?_⟩
    rw [show min b hi - max a lo = 0 by omega]
    rfl
  | cons d rest ih =>
    obtain ⟨hd, hr⟩ := forall_mem_cons.mp hmem
    obtain ⟨hs, hpos, hc'⟩ := hcov
    obtain ⟨hdf, hd'⟩ := pairwise_cons.mp hds
    obtain ⟨hdh, hh'⟩ := forall_mem_cons.mp hh
    have hle := hc'.le
    rw [forEachInRange, addU64_of_lt (hw.part_lt hd), ok_bind, rangeIntersection]
    by_cases hmt : min b (d.offset + d.length) ≤ max a d.offset
    · rw [if_pos hmt]
      obtain ⟨s', hrun, hp, ho, new, hn, ht⟩ := ih hr hc' hd' hh'
      refine ⟨s', hrun, ?_, fun f hf => ho f (forall_mem_cons.mp hf).2,
        new, hn, ?_⟩
      · refine forall_mem_cons.mpr ⟨?_, hp⟩
        rw [Nat.sub_eq_zero_of_le hmt, hc.zero, patch_nil]
        exact ho _ fun e he => (hdf e he).symm
      · rw [ht, ← range'_split a b (by omega : lo ≤ lo + d.length) hle,
          show min b (lo + d.length) - max a lo = 0 by omega, range'_zero, nil_append]
    · obtain ⟨most, hms⟩ := Option.ne_none_iff_exists'.mp (hhost s.accesses.length)
      rw [if_neg hmt]
      dsimp only
      rw [subU64_of_le (by omega), ok_bind, subU64_of_le (by omega), ok_bind,
        ComponentFiles.onRange, hms, ok_bind]
      have hps : max a d.offset - d.offset = a - d.offset := by omega
      rw [hps, hc.eq_patch _ _ _ (by omega)]
      -- The first component has its part now; the loop goes on with the files that it leaves.
      obtain ⟨s', hrun, hp, ho, new, hn, ht⟩ := ih hr hc' hd'
        (s := s.access d.file (a - d.offset) (min b (d.offset + d.length) - max a d.offset)
          (patch (s.content d.file) (a - d.offset)
            (w (min b (d.offset + d.length) - max a d.offset))))
        (fun e he => (congrArg List.length (if_neg (hdf e he).symm)).symm ▸ hh' e he)
      refine ⟨s', hrun, forall_mem_cons.mpr ⟨?_, fun e he => ?_⟩, fun f hf => ?_,
        [⟨d.file, a - d.offset, min b (d.offset + d.length) - max a d.offset⟩] ++ new, ?_, ?_⟩
      · rw [ho _ fun e he => (hdf e he).symm]
        exact if_pos rfl
      · rw [hp e he]
        exact congrArg (patch · _ _) (if_neg (hdf e he).symm)
      · rw [ho f (forall_mem_cons.mp hf).2]
        exact if_neg fun heq => hf d mem_cons_self heq.symm
      · rw [hn]
        exact append_assoc _ _ _
      · have ha := hw.touched_access (x := max a d.offset)
          (n := min b (d.offset + d.length) - max a d.offset) hd (by omega) (by omega)
        rw [hps] at ha
        rw [touched, flatMap_append, map_append, ← touched, ← touched, ht, ha,
          ← map_append, ← hs, range'_split a b (by omega) (by omega)]

lemma Wired.inRange_spec (hw : Wired disk total s.content) (hhost : Works host)
    (hc : ActsAs change w) (hsize : x + n ≤ total) :
    ∃ s', disk.inRange host change x n s = .ok s' ∧ Wrote disk s.content s'.content x (w n) ∧
      Touches disk s s' x n := by
  obtain ⟨s', hr, hp, ho, new, hn, ht⟩ :=
    hw.forEachInRange_spec (a := x) (b := x + n) hhost hc (fun _ hd => hd) hw.covers hw.distinct
      hw.holds
  refine ⟨s', ?_, hw.wrote_of_shares (fun d hd => ?_) ho, new, hn, ?_⟩
  · rw [inRange, addU64_of_lt (by have := hw.total_lt; omega), ok_bind, hr]
  · rw [hp d hd, share, hc.part]
    congr 2
    omega
  · rw [ht, Nat.max_eq_left (Nat.zero_le x), Nat.min_eq_left hsize, Nat.add_sub_cancel_left]

end Ranges

end GunyahVmm.Disk.CompositeDiskFile
