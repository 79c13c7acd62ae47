import GunyahVmm.Disk.CompositeParts

/-! A composite disk behaves like its flat array when partial operations are repeated. -/

namespace GunyahVmm.Disk.CompositeDiskFile
open Run Run.Outcome Disk.BackingMemory List
variable {host : Host} {disk : CompositeDiskFile} {total x size : Nat}
  {c : FileId → List (BitVec 8)} {data : List (BitVec 8)} {s : ComponentFiles}

/-! ## Repeated operations -/

lemma Wired.readExact_spec (hw : Wired disk total s.content) (hhost : Works host) {fuel : Nat}
    (hf : size ≤ fuel) (hs : x + size ≤ total) :
    ∃ s', disk.readExactAtVolatile host fuel size x s =
        .ok (((disk.flat s.content).drop x).take size, s') ∧
      s'.content = s.content ∧ Touches disk s s' x size := by
  induction fuel generalizing size x s with
  | zero =>
    obtain rfl : size = 0 := by omega
    exact ⟨s, by simp [readExactAtVolatile], rfl, .refl ..⟩
  | succ fuel ih =>
    by_cases hz : size = 0
    · subst hz
      exact ⟨s, by simp [readExactAtVolatile], rfl, .refl ..⟩
    obtain ⟨k, s₁, hk, hks, hr, hc, ht⟩ := hw.readAtVolatile_spec hhost (by omega) hs
    have hl : (((disk.flat s.content).drop x).take k).length = k := by
      rw [length_take, length_drop, hw.length_flat]
      omega
    have hne : ((disk.flat s.content).drop x).take k ≠ [] := by
      intro hn
      rw [hn] at hl
      simp at hl
      omega
    have hsp : size = k + (size - k) := by omega
    have hf' : size - k ≤ fuel := by omega
    obtain ⟨s₂, hrs, hc₂, ht₂⟩ := ih (hc ▸ hw) hf' (by omega : x + k + (size - k) ≤ total)
    refine ⟨s₂, ?_, hc₂.trans hc, ?_⟩
    · rw [readExactAtVolatile, hr, ok_bind]
      · rw [if_neg hne, hl, addU64_of_lt (by have := hw.total_lt; omega), ok_bind,
          hrs, ok_bind, hc]
        conv_rhs => rw [hsp, take_add, drop_drop]
      · omega
    · rw [hsp]
      exact ht.trans ht₂

lemma Wired.writeAll_spec (hw : Wired disk total s.content) (hhost : Works host) {fuel : Nat}
    (hf : data.length ≤ fuel) (hs : x + data.length ≤ total) :
    ∃ s', disk.writeAllAtVolatile host fuel data x s = .ok s' ∧
      Wrote disk s.content s'.content x data ∧ Touches disk s s' x data.length := by
  induction fuel generalizing data x s with
  | zero =>
    obtain rfl : data = [] := eq_nil_of_length_eq_zero (by omega)
    exact ⟨s, by simp [writeAllAtVolatile], .refl .., .refl ..⟩
  | succ fuel ih =>
    by_cases hn : data = []
    · subst hn
      exact ⟨s, by simp [writeAllAtVolatile], .refl .., .refl ..⟩
    have hp := length_pos_of_ne_nil hn
    obtain ⟨k, s₁, hk, hkd, hwrt, hwr, htch⟩ := hw.writeAtVolatile_spec hhost hp hs
    have hd : (data.drop k).length = data.length - k := length_drop
    have ht : (data.take k).length = k := by
      rw [length_take]
      omega
    have hf' : (data.drop k).length ≤ fuel := by omega
    obtain ⟨s₂, hr, hw₂, ht₂⟩ :=
      ih (hw.of_wrote hwr) hf' (by omega : x + k + (data.drop k).length ≤ total)
    refine ⟨s₂, ?_, ?_, ?_⟩
    · rw [writeAllAtVolatile, hwrt, ok_bind]
      · rw [if_neg (by omega), addU64_of_lt (by have := hw.total_lt; omega), ok_bind, hr]
      · exact hn
    · rw [← take_append_drop k data]
      refine hwr.trans ?_
      rwa [ht]
    · rw [show data.length = k + (data.drop k).length by omega]
      exact htch.trans ht₂

section Async
variable {mem : BackingMemory} {regions : List MemRegion} {m : Nat}
variable {count : Nat} (hw : Wired disk total s.content) (hhost : Works host)
  (hheld : mem.Holds regions) (hcount : m + count = totalLen regions)

include hw hhost hheld hcount

lemma Wired.readAllToMem_spec {fuel : Nat} (hf : count ≤ fuel) (hs : x + count ≤ total)
    (hlen : totalLen regions < u64Size) :
    ∃ s', disk.readAllToMem host fuel count x mem ((MemRegionIter.new regions).skip m) s =
        .ok (mem.withBytes (put mem.bytes
          (((addresses regions).drop m).zip (((disk.flat s.content).drop x).take count))), s') ∧
      s'.content = s.content ∧ Touches disk s s' x count := by
  induction fuel generalizing count x mem m s with
  | zero =>
    obtain rfl : count = 0 := by omega
    refine ⟨s, ?_, rfl, .refl ..⟩
    simp [readAllToMem, put, withBytes]
  | succ fuel ih =>
    by_cases hz : count = 0
    · subst hz
      refine ⟨s, ?_, rfl, .refl ..⟩
      simp [readAllToMem, put, withBytes]
    obtain ⟨k, s₁, hk, hks, hr, hc, ht⟩ :=
      hw.readToMem_spec hhost hheld (by omega) (by omega : x + (totalLen regions - m) ≤ total) hlen
    have hl : (((disk.flat s.content).drop x).take k).length = k := by
      rw [length_take, length_drop, hw.length_flat]
      omega
    have hsp : count = k + (count - k) := by omega
    have hh₁ : (mem.withBytes (put mem.bytes (((addresses regions).drop m).zip
        (((disk.flat s.content).drop x).take k)))).Holds regions := hheld
    obtain ⟨s₂, hrs, hc₂, ht₂⟩ :=
      ih (hc ▸ hw) hh₁ (by omega : m + k + (count - k) = totalLen regions)
        (by omega) (by omega : x + k + (count - k) ≤ total)
    refine ⟨s₂, ?_, hc₂.trans hc, ?_⟩
    · rw [readAllToMem, hr, ok_bind]
      · rw [if_neg (by omega), addU64_of_lt (by have := hw.total_lt; omega), ok_bind,
          skip_skip (by omega), hrs, hc]
        conv_rhs => rw [hsp, take_add, zip_append_of_length,
          put_append, hl, drop_drop, drop_drop]
        rfl
      · omega
    · rw [hsp]
      exact ht.trans ht₂

lemma Wired.writeAllFromMem_spec {fuel : Nat} (hf : count ≤ fuel) (hs : x + count ≤ total)
    (hl : totalLen regions < u64Size) :
    ∃ s', disk.writeAllFromMem host fuel count x mem ((MemRegionIter.new regions).skip m) s =
        .ok s' ∧
      Wrote disk s.content s'.content x ((mem.gather regions).drop m) ∧
      Touches disk s s' x count := by
  have hg : (mem.gather regions).length = totalLen regions := by
    rw [gather_eq, length_map, length_addresses]
  induction fuel generalizing count x m s with
  | zero =>
    obtain rfl : count = 0 := by omega
    refine ⟨s, by simp [writeAllFromMem], ?_, .refl ..⟩
    rw [drop_of_length_le (by omega)]
    exact .refl ..
  | succ fuel ih =>
    by_cases hz : count = 0
    · subst hz
      refine ⟨s, by simp [writeAllFromMem], ?_, .refl ..⟩
      rw [drop_of_length_le (by omega)]
      exact .refl ..
    obtain ⟨k, s₁, hk, hks, hwrt, hwr, htch⟩ :=
      hw.writeFromMem_spec hhost hheld (by omega) (by omega : x + (totalLen regions - m) ≤ total)
        hl
    have ht : (((mem.gather regions).drop m).take k).length = k := by
      rw [length_take, length_drop]
      omega
    have hsp : count = k + (count - k) := by omega
    obtain ⟨s₂, hr, hw₂, ht₂⟩ :=
      ih (hw.of_wrote hwr) (by omega : m + k + (count - k) = totalLen regions)
        (by omega) (by omega : x + k + (count - k) ≤ total)
    refine ⟨s₂, ?_, ?_, ?_⟩
    · rw [writeAllFromMem, hwrt, ok_bind]
      · rw [if_neg (by omega), addU64_of_lt (by have := hw.total_lt; omega), ok_bind,
          skip_skip (by omega), hr]
      · omega
    · rw [← take_append_drop k ((mem.gather regions).drop m), drop_drop]
      refine hwr.trans ?_
      rwa [ht]
    · rw [hsp]
      exact htch.trans ht₂

end Async

/-! ## Runs -/

/-- A request to the disk. The asynchronous ones come with the memory and its regions. -/
inductive Request where
  | read (offset size : Nat)
  | write (offset : Nat) (data : List (BitVec 8))
  | readToMem (offset : Nat) (mem : BackingMemory) (regions : List MemRegion)
  | writeFromMem (offset : Nat) (mem : BackingMemory) (regions : List MemRegion)
  | allocate (offset count : Nat)
  | punchHole (offset count : Nat)
  | writeZeroesAt (offset count : Nat)

inductive Reply where
  | data (bytes : List (BitVec 8))
  | memory (mem : BackingMemory)
  | done

namespace Request

def offset : Request → Nat
  | read offset _ | write offset _ | readToMem offset _ _ | writeFromMem offset _ _ => offset
  | allocate offset _ | punchHole offset _ | writeZeroesAt offset _ => offset

def count : Request → Nat
  | read _ size => size
  | write _ data => data.length
  | readToMem _ _ regions | writeFromMem _ _ regions => totalLen regions
  | allocate _ count | punchHole _ count | writeZeroesAt _ count => count

/-- The request lies in the disk, and its regions in the memory. -/
def Within (total : Nat) (r : Request) : Prop :=
  r.offset + r.count ≤ total ∧
    match r with
    | readToMem _ mem regions | writeFromMem _ mem regions => mem.Holds regions
    | _ => True

def reply (array : List (BitVec 8)) : Request → Reply
  | read offset size => .data ((array.drop offset).take size)
  | readToMem offset mem regions =>
    match mem.scatter regions ((array.drop offset).take (totalLen regions)) with
    | .ok mem => .memory mem
    | .error _ => .done
  | _ => .done

def written : Request → List (BitVec 8)
  | write _ data => data
  | writeFromMem _ mem regions => mem.gather regions
  | punchHole _ count | writeZeroesAt _ count => List.replicate count 0
  | read _ _ | readToMem _ _ _ | allocate _ _ => []

end Request

/-- Do a request on the composite disk, with partial operations repeated until they are done. -/
def perform (host : Host) (disk : CompositeDiskFile) (s : ComponentFiles) :
    Request → Outcome IoError (Reply × ComponentFiles)
  | .read offset size => do
    let got ← disk.readExactAtVolatile host size size offset s
    .ok (.data got.1, got.2)
  | .write offset data => do
    let s ← disk.writeAllAtVolatile host data.length data offset s
    .ok (.done, s)
  | .readToMem offset mem regions => do
    let got ← disk.readAllToMem host (totalLen regions) (totalLen regions)
      offset mem (.new regions) s
    .ok (.memory got.1, got.2)
  | .writeFromMem offset mem regions => do
    let s ← disk.writeAllFromMem host (totalLen regions) (totalLen regions) offset mem
      (.new regions) s
    .ok (.done, s)
  | .allocate offset count => do
    let s ← disk.allocate host offset count s
    .ok (.done, s)
  | .punchHole offset count => do
    let s ← disk.punchHole host offset count s
    .ok (.done, s)
  | .writeZeroesAt offset count => do
    let s ← disk.writeZeroesAt host offset count s
    .ok (.done, s)

lemma Wired.perform_spec (hw : Wired disk total s.content) (hhost : Works host) {r : Request}
    (hr : r.Within total) :
    ∃ s', disk.perform host s r = .ok (r.reply (disk.flat s.content), s') ∧
      Wrote disk s.content s'.content r.offset r.written ∧
      Touches disk s s' r.offset r.count := by
  obtain ⟨hs, hm⟩ := hr
  have htot := hw.total_lt
  cases r with
  | read offset size =>
    change offset + size ≤ total at hs
    obtain ⟨s', hrd, hc, ht⟩ := hw.readExact_spec hhost (Nat.le_refl _) hs
    refine ⟨s', ?_, ?_, ht⟩
    · rw [perform, hrd]
      rfl
    · rw [hc]
      exact .refl ..
  | write offset data =>
    change offset + data.length ≤ total at hs
    obtain ⟨s', hwr, heff⟩ := hw.writeAll_spec hhost (Nat.le_refl _) hs
    refine ⟨s', ?_, heff⟩
    rw [perform, hwr]
    rfl
  | readToMem offset mem regions =>
    change offset + totalLen regions ≤ total at hs
    obtain ⟨s', hrd, hc, ht⟩ := hw.readAllToMem_spec hhost (m := 0) hm
      (Nat.zero_add _) (Nat.le_refl _) hs (by omega)
    refine ⟨s', ?_, ?_, ht⟩
    · rw [perform, ← skip_zero, hrd, Request.reply, scatter_eq hm]
      rfl
    · rw [hc]
      exact .refl ..
  | writeFromMem offset mem regions =>
    change offset + totalLen regions ≤ total at hs
    obtain ⟨s', hwr, heff⟩ := hw.writeAllFromMem_spec hhost (m := 0) hm
      (Nat.zero_add _) (Nat.le_refl _) hs (by omega)
    refine ⟨s', ?_, heff⟩
    rw [perform, ← skip_zero, hwr]
    rfl
  | allocate offset count =>
    change offset + count ≤ total at hs
    obtain ⟨s', hrun, heff⟩ := hw.inRange_spec hhost allocated_actsAs hs
    refine ⟨s', ?_, heff⟩
    rw [perform, CompositeDiskFile.allocate, hrun]
    rfl
  | punchHole offset count =>
    change offset + count ≤ total at hs
    obtain ⟨s', hrun, heff⟩ := hw.inRange_spec hhost holed_actsAs hs
    refine ⟨s', ?_, heff⟩
    rw [perform, CompositeDiskFile.punchHole, hrun]
    rfl
  | writeZeroesAt offset count =>
    change offset + count ≤ total at hs
    obtain ⟨s', hrun, heff⟩ := hw.inRange_spec hhost zeroed_actsAs hs
    refine ⟨s', ?_, heff⟩
    rw [perform, CompositeDiskFile.writeZeroesAt, hrun]
    rfl

def performAll (host : Host) (disk : CompositeDiskFile) :
    List Request → ComponentFiles → Outcome IoError (List Reply × ComponentFiles)
  | [], s => .ok ([], s)
  | r :: rest, s => do
    let got ← disk.perform host s r
    let later ← performAll host disk rest got.2
    .ok (got.1 :: later.1, later.2)

def flatRun : List Request → List (BitVec 8) → List Reply × List (BitVec 8)
  | [], array => ([], array)
  | r :: rest, array =>
    let later := flatRun rest (patch array r.offset r.written)
    (r.reply array :: later.1, later.2)

/-- The effect of a run: that on the flat array, each requested byte touched once, no other. -/
structure RunsFlat (disk : CompositeDiskFile) (requests : List Request) (s s' : ComponentFiles)
    (replies : List Reply) : Prop where
  flat : (replies, disk.flat s'.content) = flatRun requests (disk.flat s.content)
  touches : ∃ new, s'.accesses = s.accesses ++ new ∧
    (touched new).map some =
      requests.flatMap fun r => (List.range' r.offset r.count).map disk.address
  beyond : ∀ d ∈ disk.componentDisks,
    (s'.content d.file).drop d.length = (s.content d.file).drop d.length
  others : ∀ f, (∀ d ∈ disk.componentDisks, d.file ≠ f) → s'.content f = s.content f

lemma Wired.performAll_spec (hw : Wired disk total s.content) (hhost : Works host)
    {requests : List Request} (hrq : ∀ r ∈ requests, r.Within total) :
    ∃ replies s', disk.performAll host requests s = .ok (replies, s') ∧
      RunsFlat disk requests s s' replies := by
  induction requests generalizing s with
  | nil => exact ⟨[], s, rfl, rfl, ⟨[], (append_nil _).symm, rfl⟩, fun _ _ => rfl, fun _ _ => rfl⟩
  | cons r rest ih =>
    obtain ⟨hr, hrs⟩ := forall_mem_cons.mp hrq
    obtain ⟨s₁, hp, hwr, new, hn, ht⟩ := hw.perform_spec hhost hr
    obtain ⟨replies, s₂, hl, hrn⟩ := ih (hw.of_wrote hwr) hrs
    obtain ⟨new', hn', ht'⟩ := hrn.touches
    refine ⟨r.reply (disk.flat s.content) :: replies, s₂, ?_, ?_, ⟨new ++ new', ?_, ?_⟩,
      fun d hd => (hrn.beyond d hd).trans (hwr.beyond d hd),
      fun f hf => (hrn.others f hf).trans (hwr.others f hf)⟩
    · rw [performAll, hp, ok_bind, hl, ok_bind]
    · rw [flatRun, ← hwr.flat, ← hrn.flat]
    · rw [hn', hn, append_assoc]
    · rw [touched, flatMap_append, map_append, ← touched, ← touched, ht, ht',
        flatMap_cons]

lemma Accepted.wired {proto : CompositeDisk} (h : Accepted proto disk)
    (hf : ∀ d, disk.componentDisks.head? = some d → d.offset = 0)
    (hln : disk.length = .ok total)
    (hd : disk.componentDisks.Pairwise fun d1 d2 => d1.file ≠ d2.file)
    (hh : ∀ d ∈ disk.componentDisks, d.length ≤ (c d.file).length) : Wired disk total c := by
  obtain ⟨first, rest, hl, hc⟩ := h.covers
  obtain ⟨last, hls⟩ : ∃ last, disk.componentDisks.getLast? = some last :=
    ⟨_, by rw [hl, getLast?_cons]⟩
  rw [length, hls] at hln
  obtain ⟨hlt, ht⟩ := addIn_eq_ok.mp hln
  rw [h.end_last hls] at hlt ht
  rw [hf first (by rw [hl, head?_cons]), ← ht] at hc
  exact ⟨hc, ht ▸ hlt, hd, hh⟩

/-- **Refinement.** On an accepted disk that starts at 0, with different component files that have
all the bytes of their ranges and a host that lets the accesses through, every run of requests
within the disk is the run of the same requests on the flat array. -/
theorem runs_as_flat_array {env : Environment} {params : DiskFileParams}
    {content : List (BitVec 8)} (h : fromFile env content params = .ok disk)
    (hfirst : ∀ d, disk.componentDisks.head? = some d → d.offset = 0)
    (hlength : disk.length = .ok total)
    (hdistinct : disk.componentDisks.Pairwise fun d1 d2 => d1.file ≠ d2.file)
    (hholds : ∀ d ∈ disk.componentDisks, d.length ≤ (s.content d.file).length)
    (hhost : Works host) {requests : List Request} (hrequests : ∀ r ∈ requests, r.Within total) :
    ∃ replies s', disk.performAll host requests s = .ok (replies, s') ∧
      RunsFlat disk requests s s' replies := by
  obtain ⟨proto, -, ha⟩ := fromFile_eq_ok h
  exact (ha.wired hfirst hlength hdistinct hholds).performAll_spec hhost hrequests

def twoFiles : ComponentFiles := ⟨fun f => if f = 2 then [1, 2, 3, 4] else [5, 6, 7, 8, 9], []⟩

/-- Two components of four bytes at 0 and 4, from files that the environment tells apart. -/
def twoComponents : CompositeDisk := ⟨2, [⟨⟨false, ["a"]⟩, 0, 1⟩, ⟨⟨false, ["b", "c"]⟩, 4, 1⟩], 8⟩

theorem runs_as_flat_array_twoFiles :
    ∃ disk, fromFile (openingEnvironment twoComponents) cdiskMagic plainParams = .ok disk ∧
      ∃ replies s', disk.performAll (fun _ => some 1)
          [.write 2 [11, 12, 13], .punchHole 3 3, .read 1 6] twoFiles = .ok (replies, s') ∧
        RunsFlat disk [.write 2 [11, 12, 13], .punchHole 3 3, .read 1 6] twoFiles s' replies := by
  refine ⟨⟨[⟨2, 0, 4⟩, ⟨3, 4, 4⟩]⟩, by decide, ?_⟩
  have ho : fromFile (openingEnvironment twoComponents) cdiskMagic plainParams =
      .ok ⟨[⟨2, 0, 4⟩, ⟨3, 4, 4⟩]⟩ := by decide
  have hl : length ⟨[⟨2, 0, 4⟩, ⟨3, 4, 4⟩]⟩ = .ok 8 := by decide
  refine runs_as_flat_array ho ?_ hl (by decide) (by decide) (fun n => by simp) ?_
  · rintro d hd
    cases hd
    rfl
  · intro r hr
    simp only [mem_cons, not_mem_nil, or_false] at hr
    rcases hr with rfl | rfl | rfl <;> exact ⟨by decide, trivial⟩

/-- Two accepted disks that are no flat array: one whose component file is shorter than its range,
so that a read of the range never gets to its end, and one that has a file twice, so that a write
to its first half shows in the second. -/
theorem no_flat_array :
    (∃ disk, fromFile (openingEnvironment ⟨2, [⟨⟨false, ["a"]⟩, 0, 1⟩], 8⟩) cdiskMagic plainParams =
        .ok disk ∧
      disk.performAll (fun _ => some 8) [.read 0 8] twoFiles = .err .unexpectedEof) ∧
    ∃ disk, fromFile (openingEnvironment ⟨2, [⟨⟨false, ["a"]⟩, 0, 1⟩, ⟨⟨false, ["b"]⟩, 4, 1⟩], 8⟩)
        cdiskMagic plainParams = .ok disk ∧
      (disk.performAll (fun _ => some 8) [.write 0 [9]] twoFiles).okAnd
        (fun got => disk.flat got.2.content = [9, 2, 3, 4, 9, 2, 3, 4]) = true ∧
      (flatRun [.write 0 [9]] (disk.flat twoFiles.content)).2 = [9, 2, 3, 4, 1, 2, 3, 4] := by
  refine ⟨⟨⟨[⟨2, 0, 8⟩]⟩, by decide, rfl⟩, ⟨⟨[⟨2, 0, 4⟩, ⟨2, 4, 4⟩]⟩, by decide, by decide,
    by decide⟩⟩

end GunyahVmm.Disk.CompositeDiskFile
