import GunyahVmm.Swap.SlotInvariant

/-! Writing pages to the swap file, and what the file holds after any calls. -/

namespace GunyahVmm.Swap
open Run PageState List Option Nat
namespace SwapFile
variable {host : Host} {n p k : Nat} {s : SwapFile} {m : SlotMap Nat}
  {last : Nat → Option (List (BitVec 8))} {E : Stop → SwapFile → Prop}

/-! ## Slots for the pages -/

lemma allocatePage_ends (hp : p < n) (hm : s.Represents host n m) :
    Ends (allocatePage p s) (fun _ s' => ∃ m', s'.Represents host n m' ∧ s'.file = s.file ∧
      m'.slot p ≠ none ∧ ∀ q ≠ p, m'.slot q = m.slot q) E := by
  obtain ⟨state, hg⟩ := hm.exists_state hp
  have hfew := hm.few
  rw [allocatePage, get_bind_apply, hg]
  dsimp only
  cases hs : m.slot p with
  | none =>
    have hn : state.isNone = true := by rwa [isNone_iff, hm.slot_eq hg]
    have hl : (m.allocate p hs).owner.length ≤ n := by
      cases hf : m.free with
      | nil =>
        have hlt := m.length_lt_card hf
          (fun q k hq => Finset.mem_range.mpr (hm.page_lt hq)) (Finset.mem_range.mpr hp) hs
        rw [Finset.card_range] at hlt
        exact m.length_ownerWith_le.trans hlt
      | cons j rest =>
        have hset : (m.allocate p hs).owner = m.owner.set j (some p) := by
          simp only [SlotMap.allocate, SlotMap.ownerWith, hf]
        rw [hset, length_set]
        exact hm.length_le
    have hnew : (m.allocate p hs).slot p = some m.next := by simp [SlotMap.allocate]
    have hnx := (m.allocate p hs).slot_lt hnew
    obtain ⟨fs, ha, ht⟩ := hm.table.allocate (by omega) hs
    obtain ⟨state', hu, hnamed, hs'⟩ := update_spec (k := m.next) (by omega)
    rw [if_pos hn, ha]
    change Ends ((lift (update m.next) >>= _) s) _ _
    rw [hu]
    refine ⟨m.allocate p hs, ?_, rfl, ?_, ?_⟩
    · exact hm.setPage hnamed hp (by rw [hs']; rfl) ht hl m.length_le_ownerWith
    · rw [hnew]
      simp
    · intro q hq
      simp [SlotMap.allocate, hq]
  | some k =>
    have hsm : ¬state.isNone = true := by
      rw [isNone_iff, hm.slot_eq hg, hs]
      simp
    have hst : state.slot = some k := (hm.slot_eq hg).trans hs
    obtain ⟨hnamed, hs'⟩ := markAsPresent_spec (hm.named state (mem_of_getElem? hg)) hst
    rw [if_neg hsm]
    refine ⟨m, hm.setState hnamed hp (hs'.trans hs.symm), rfl, ?_, fun q _ => rfl⟩
    rw [hs]
    simp

lemma allocatePages_ends {pages : List Nat} (hp : ∀ p ∈ pages, p < n)
    (hm : s.Represents host n m) :
    Ends (pages.forM allocatePage s) (fun _ s' => ∃ m', s'.Represents host n m' ∧
      s'.file = s.file ∧ (∀ q ∈ pages, m'.slot q ≠ none) ∧
      ∀ q, q ∉ pages → m'.slot q = m.slot q) E := by
  induction pages generalizing s m with
  | nil => exact ⟨m, hm, rfl, by simp, fun _ _ => rfl⟩
  | cons p rest ih =>
    refine ends_bind (allocatePage_ends (hp p mem_cons_self) hm) ?_
    rintro _ s₁ ⟨m₁, hm₁, hf, hs, hoth⟩
    refine (ih (fun q hq => hp q (mem_cons_of_mem p hq)) hm₁).mono ?_ fun _ _ he => he
    rintro _ s₂ ⟨m₂, hm₂, hf₂, hin, ho⟩
    refine ⟨m₂, hm₂, hf₂.trans hf, ?_, ?_⟩
    all_goals intro q hq
    · by_cases hr : q ∈ rest
      · exact hin q hr
      rw [mem_cons, or_iff_left hr] at hq
      rw [ho q hr, hq]
      exact hs
    · rw [mem_cons, not_or] at hq
      rw [ho q hq.2, hoth q hq.1]

/-! ## Bytes for the slots -/

def withFile (s : SwapFile) (file : Memory) (calls : Nat) : SwapFile := { s with file, calls }

lemma Represents.withFile (h : s.Represents host n m) (file : Memory) (calls : Nat) :
    (s.withFile file calls).Represents host n m :=
  ⟨h.few, h.pages, h.mapping, h.named, h.slots, h.table, h.length_le, h.cursor_le, h.min_le⟩

/-- The bytes that a write gives to a page; a slice that is not made of whole pages is refused. -/
def written (host : Host) (idxPage : Nat) (memSlice : List (BitVec 8)) (p : Nat) :
    Option (List (BitVec 8)) :=
  if host.isPageAligned memSlice.length ∧ idxPage ≤ p ∧
      p < idxPage + host.bytesToPages memSlice.length then
    some (Memory.chunk host.pageSize memSlice (p - idxPage))
  else none

lemma slots_of_pages (hm : s.Represents host n m) {start count : Nat} (hle : start + count ≤ n)
    (hs : ∀ p ∈ range' start count, m.slot p ≠ none) :
    ∃ slots : List Nat, slots.length = count ∧ slots.Nodup ∧ (∀ k ∈ slots, k ≤ maxPageIdx) ∧
      ((s.pageStates.drop start).take count).map slot = slots.map some ∧
      ∀ i < count, m.slot (start + i) = slots[i]? := by
  have hg : ∀ p ∈ range' start count, m.slot p = some ((m.slot p).getD 0) := by
    intro p hp
    obtain ⟨k, hk⟩ := ne_none_iff_exists'.mp (hs p hp)
    rw [hk, getD_some]
  have hat : ∀ i < count, ((range' start count).map fun p => (m.slot p).getD 0)[i]? =
      m.slot (start + i) := by
    intro i hi
    rw [getElem?_map, getElem?_range' hi, one_mul, map_some]
    exact (hg _ (mem_range'_1.mpr ⟨by omega, by omega⟩)).symm
  refine ⟨(range' start count).map fun p => (m.slot p).getD 0, ?_, ?_, ?_, ?_, ?_⟩
  · rw [length_map, length_range']
  · refine List.Nodup.map_on (fun p hp q hq hpq => ?_) nodup_range'
    exact m.slot_inj (hg p hp) (hpq ▸ hg q hq)
  · exact forall_mem_map.mpr fun p hp => ((hm.slot_lt (hg p hp)).trans_le hm.few).le
  · refine ext_getElem? fun i => ?_
    rw [getElem?_map, getElem?_map, getElem?_take, getElem?_drop]
    split_ifs with hi
    · obtain ⟨state, hst⟩ := hm.exists_state (by omega : start + i < n)
      rw [hat i hi, hst, map_some, hm.slot_eq hst]
      rw [hg (start + i) (mem_range'_1.mpr ⟨by omega, by omega⟩)]
      rfl
    · rw [getElem?_eq_none (by rw [length_map, length_range']; omega)]
      rfl
  · exact fun i hi => (hat i hi).symm

lemma Stored.write {m' : SlotMap Nat} {file : Memory} {idxPage count : Nat}
    {memSlice : List (BitVec 8)} {slots : List Nat} (hsto : Stored host m last file)
    (hal : host.isPageAligned memSlice.length = true)
    (hc : host.bytesToPages memSlice.length = count)
    (hl : memSlice.length = slots.length * host.pageSize) (hnd : slots.Nodup)
    (hslots : slots.length = count) (hat : ∀ i < count, m'.slot (idxPage + i) = slots[i]?)
    (hout : ∀ q, q ∉ range' idxPage count → m'.slot q = m.slot q) :
    Stored host m' (fun p => (written host idxPage memSlice p).or (last p))
      (file.storeBlocks host.pageSize slots memSlice) := by
  intro p k hk
  dsimp only
  by_cases hp : idxPage ≤ p ∧ p < idxPage + count
  · have hs := hat (p - idxPage) (by omega)
    rw [Nat.add_sub_cancel' hp.1, hk] at hs
    rw [written, hc, if_pos ⟨hal, hp⟩, some_or,
      Memory.block_storeBlocks hnd hl hs.symm]
  · have ho : k ∉ slots := by
      intro hm
      obtain ⟨i, hi⟩ := mem_iff_getElem?.mp hm
      have hlt : i < count := hslots ▸ (List.getElem?_eq_some_iff.mp hi).1
      obtain rfl := m'.slot_inj hk ((hat i hlt).trans hi)
      exact hp ⟨Nat.le_add_right _ _, Nat.add_lt_add_left hlt _⟩
    rw [hout p (by rwa [mem_range'_1])] at hk
    rw [written, hc, if_neg (fun h => hp h.2), none_or,
      Memory.block_storeBlocks_of_notMem ho]
    exact hsto p k hk

section Writes
variable (hgood : ∀ i, host.fails i = none) {mem : List (BitVec 8)} {states : List PageState}
  {slots : List Nat}

include hgood

lemma writePending_eq {pages : Nat} (hk : k ≤ maxPageIdx) (hp : pages ≤ maxPageIdx)
    (hl : pages * host.pageSize ≤ mem.length) :
    writePending host k pages mem s = .ok (mem.drop (pages * host.pageSize))
      (s.withFile (s.file.storeBlocks host.pageSize (range' k pages)
        (mem.take (pages * host.pageSize))) (s.calls + 1)) := by
  have ht : (mem.take (pages * host.pageSize)).length = pages * host.pageSize := by
    rw [length_take]
    omega
  rw [Memory.storeBlocks_range' ht, writePending, host.pagesToBytes_eq hp,
    host.pagesToBytes_eq hk, if_neg (by omega)]
  refine bind_of_ok (b := ()) ?_
  rw [writeAllAt, get_bind_apply, hgood]
  rfl

section
variable (hnamed : ∀ state ∈ states, state.Named) (hslots : states.map slot = slots.map some)
  (hin : ∀ j ∈ slots, j ≤ maxPageIdx)

include hnamed hslots hin

lemma writePages_some_eq {pages : Nat} (hk : k ≤ maxPageIdx)
    (hp : pages + slots.length ≤ maxPageIdx)
    (hln : mem.length = (pages + slots.length) * host.pageSize) :
    ∃ calls, writePages host states (some k) pages mem s = .ok []
      (s.withFile (s.file.storeBlocks host.pageSize (range' k pages ++ slots) mem) calls) := by
  induction states generalizing slots k pages mem s with
  | nil =>
    obtain rfl : slots = [] := by simpa using hslots.symm
    rw [length_nil, add_zero] at hp hln
    refine ⟨s.calls + 1, ?_⟩
    rw [writePages, writePending_eq hgood hk hp hln.ge, ← hln, drop_length,
      take_length, append_nil]
  | cons state rest ih =>
    cases slots with
    | nil => simp at hslots
    | cons j slots =>
      rw [map_cons, map_cons, cons.injEq] at hslots
      rw [length_cons] at hp hln
      have hr : ∀ state ∈ rest, state.Named := fun state hst =>
        hnamed state (mem_cons_of_mem _ hst)
      have hin' : ∀ i ∈ slots, i ≤ maxPageIdx := (forall_mem_cons.mp hin).2
      have hj := hin j mem_cons_self
      rw [writePages, idxFile_eq (hnamed state mem_cons_self), hslots.1]
      change ∃ calls, (if j = k + pages then _ else _ : Call _) s = _
      split_ifs with hn
      · -- the page joins the pending ones
        have hjn : mem.length = (pages + 1 + slots.length) * host.pageSize := by
          rw [hln, add_assoc, add_comm 1]
        have hwr := ih (s := s) hr hslots.2 hin' hk (by omega) hjn
        rwa [range'_1_concat, append_assoc, ← hn] at hwr
      · have hle : pages * host.pageSize ≤ mem.length := by
          rw [hln]
          exact mul_le_mul_right _ (le_add_right _ _)
        have hl : (mem.drop (pages * host.pageSize)).length =
            (1 + slots.length) * host.pageSize := by
          rw [length_drop, hln, ← Nat.sub_mul, Nat.add_sub_cancel_left, Nat.add_comm 1]
        rw [bind_of_ok (writePending_eq hgood hk (by omega) hle), Memory.storeBlocks_append,
          length_range']
        exact ih hr hslots.2 hin' hj (by omega) hl

lemma writePages_eq (hp : slots.length ≤ maxPageIdx)
    (hl : mem.length = slots.length * host.pageSize) :
    ∃ calls, writePages host states none 0 mem s = .ok []
      (s.withFile (s.file.storeBlocks host.pageSize slots mem) calls) := by
  cases states with
  | nil =>
    obtain rfl : slots = [] := by simpa using hslots.symm
    rw [length_nil, zero_mul] at hl
    obtain rfl := length_eq_zero_iff.mp hl
    exact ⟨s.calls, rfl⟩
  | cons state rest =>
    cases slots with
    | nil => simp at hslots
    | cons j slots =>
      rw [map_cons, map_cons, cons.injEq] at hslots
      rw [length_cons, add_comm] at hp hl
      rw [writePages, idxFile_eq (hnamed state mem_cons_self), hslots.1]
      exact writePages_some_eq hgood (forall_mem_cons.mp hnamed).2
        hslots.2 (forall_mem_cons.mp hin).2 (hin j mem_cons_self) hp
        hl

end

lemma writeToFile_ends {idxPage : Nat} {memSlice : List (BitVec 8)}
    (hle : idxPage + host.bytesToPages memSlice.length ≤ n) (hs : s.Holds host n last) :
    Ends (writeToFile host idxPage memSlice s)
      (fun _ s' => s'.Holds host n fun p => (written host idxPage memSlice p).or (last p))
      fun stop s' => stop ≠ .abort ∧
        s'.Holds host n fun p => (written host idxPage memSlice p).or (last p) := by
  obtain ⟨m, hm, hsto⟩ := hs
  rw [writeToFile]
  cases hal : host.isPageAligned memSlice.length with
  | false =>
    have hn : ∀ p, written host idxPage memSlice p = none := by
      intro p
      simp [written, hal]
    simp only [hn, none_or]
    exact ⟨by simp, m, hm, hsto⟩
  | true =>
    have hsz := host.bytesToPages_eq memSlice.length
    have hl : memSlice.length = host.bytesToPages memSlice.length * host.pageSize := by
      rw [hsz]
      exact (Nat.div_mul_cancel (Nat.dvd_of_mod_eq_zero (host.isPageAligned_iff.mp hal))).symm
    generalize hc : host.bytesToPages memSlice.length = count at hle hl
    have hfew := hm.few
    have ha : (addU64 idxPage count : Outcome Error Nat) = .ok (idxPage + count) :=
      addU64_of_lt (by rw [maxPageIdx] at hfew; rw [u64Size]; omega)
    change Ends ((lift (addU64 idxPage count) >>= _) s) _ _
    rw [ha]
    change Ends ((if s.pageStates.length < idxPage + count then _ else _ : Call _) s) _ _
    rw [if_neg (by rw [hm.pages]; omega), set_bind_apply]
    have hpgs : ∀ p ∈ range' idxPage count, p < n := by
      intro p hp
      rw [mem_range'_1] at hp
      omega
    refine ends_bind (allocatePages_ends hpgs (hm.withMin (zero_le _))) ?_
    rintro _ s₁ ⟨m₁, hm₁, hf, hin, ho⟩
    obtain ⟨slots, hlen, hnd, hslots, hmap, hat⟩ := slots_of_pages hm₁ hle hin
    have hnamed : ∀ state ∈ (s₁.pageStates.drop idxPage).take count, state.Named :=
      fun state hst => hm₁.named state (mem_of_mem_drop (mem_of_mem_take hst))
    obtain ⟨calls, hw⟩ := writePages_eq (s := s₁) hgood hnamed hmap hslots (by omega)
      (hlen.symm ▸ hl)
    rw [get_bind_apply, bind_of_ok hw]
    exact ⟨m₁, hm₁.withFile _ _, Stored.write (hf ▸ hsto) hal hc
      (hlen.symm ▸ hl) hnd hlen hat ho⟩

end Writes

end SwapFile

/-! ## Whole runs -/

namespace Request

def InRange (host : Host) (n : Nat) : Request → Prop
  | .writeToFile idxPage memSlice => idxPage + host.bytesToPages memSlice.length ≤ n
  | .clearRange start stop => start ≤ stop ∧ stop ≤ n
  | .markAsPresent idxPage => idxPage < n
  | .freeRange start stop => start ≤ stop ∧ stop ≤ n
  | .firstDataRange _ | .lockAndAsyncPrefetch _ | .clearMlock => True

instance (host : Host) (n : Nat) : (r : Request) → Decidable (r.InRange host n)
  | .writeToFile _ _ => inferInstanceAs (Decidable (_ ≤ _))
  | .clearRange _ _ => inferInstanceAs (Decidable (_ ∧ _))
  | .markAsPresent _ => inferInstanceAs (Decidable (_ < _))
  | .freeRange _ _ => inferInstanceAs (Decidable (_ ∧ _))
  | .firstDataRange _ | .lockAndAsyncPrefetch _ | .clearMlock => inferInstanceAs (Decidable True)

def written (host : Host) (p : Nat) : Request → Option (List (BitVec 8))
  | .writeToFile idxPage memSlice => SwapFile.written host idxPage memSlice p
  | _ => none

end Request

def lastWritten (host : Host) (requests : List Request) (p : Nat) : Option (List (BitVec 8)) :=
  requests.reverse.findSome? (Request.written host p)

lemma lastWritten_concat (host : Host) (requests : List Request) (r : Request) (p : Nat) :
    lastWritten host (requests ++ [r]) p = (r.written host p).or (lastWritten host requests p) := by
  rw [lastWritten, reverse_append, reverse_singleton, singleton_append, findSome?_cons]
  cases r.written host p <;> rfl

namespace SwapFile
variable {host : Host} {n : Nat} {s : SwapFile} {last : Nat → Option (List (BitVec 8))}
  {m : SlotMap Nat}

def slotOf (s : SwapFile) (p : Nat) : Option Nat :=
  match s.pageStates[p]?.map idxFile with
  | some (.ok slot) => slot
  | _ => none

/-- Inverse tables, a free list of the freed slots, and present pages with the bytes written last.
-/
structure KeepsPages (host : Host) (n : Nat) (requests : List Request) (s : SwapFile) : Prop where
  distinct : ∀ p q k, s.slotOf p = some k → s.slotOf q = some k → p = q
  record : ∀ p k, s.slotOf p = some k ↔ s.fileStates.states[k]?.bind FilePageState.idxPage = some p
  freeList : ∃ free, free.Nodup ∧
    Visits (fun k => s.fileStates.states[k]?.bind FilePageState.nextFileFreedIdx)
      s.fileStates.firstIdxFileFreed free ∧
    ∀ k, k ∈ free ↔ ∃ state, s.fileStates.states[k]? = some state ∧ state.isFreed = true
  few : s.fileStates.len ≤ n
  reads : ∀ p allowCleared, s.pageContent host p allowCleared ≠ .panic
  content : ∀ p state, s.pageStates[p]? = some state → state.isPresent = true →
    ∃ bytes, lastWritten host requests p = some bytes ∧
      s.pageContent host p false = .ok (some bytes)

lemma Represents.slotOf_eq (h : s.Represents host n m) (p : Nat) : s.slotOf p = m.slot p := by
  rw [slotOf]
  cases hg : s.pageStates[p]? with
  | none => rw [← h.slots, hg]; rfl
  | some state => rw [map_some, h.idxFile_eq hg]

lemma pageContent_eq (h : s.Represents host n m) {p k : Nat} {state : PageState}
    {allowCleared : Bool} (hg : s.pageStates[p]? = some state) (hs : m.slot p = some k)
    (hsh : (allowCleared || state.isPresent) = true) :
    s.pageContent host p allowCleared = .ok (some (s.file.block host.pageSize k)) := by
  have hsm : state.isNone = false := by
    rw [← Bool.not_eq_true, isNone_iff, h.slot_eq hg, hs]
    simp
  have hk := h.slot_lt hs
  have hf := h.few
  have hby := host.pagesToBytes_add_le (by omega : k + 1 ≤ n) hf
  have hlt := host.pagesToBytes_lt n
  rw [pageContent, hg]
  simp only [hsm, hsh, Bool.not_false, Bool.and_self, if_true, h.idxFile_eq hg, hs,
    Outcome.ok_bind, Outcome.expect]
  rw [mmapSlice, if_neg (by omega), if_neg (by rw [h.mapping]; omega),
    host.pagesToBytes_eq (by omega), host.pagesToBytes_eq (by rw [maxPageIdx]; omega), one_mul]
  rfl

lemma Holds.keepsPages {requests : List Request}
    (h : s.Holds host n (lastWritten host requests)) : s.KeepsPages host n requests := by
  obtain ⟨m, hm, hsto⟩ := h
  have ho : ∀ k : Nat, s.fileStates.states[k]?.map FilePageState.idxPage = m.owner[k]? := by
    intro k
    rw [← hm.table.owner, getElem?_map]
  constructor
  · intro p q k hp hq
    rw [hm.slotOf_eq] at hp hq
    exact m.slot_inj hp hq
  · intro p k
    rw [hm.slotOf_eq, m.slot_iff, ← ho]
    cases s.fileStates.states[k]? <;> simp
  · refine ⟨m.free, m.free_nodup, hm.table.visits, fun k => ?_⟩
    rw [m.mem_free, ← ho]
    cases s.fileStates.states[k]? with
    | none => simp
    | some state => simp [FilePageState.isFreed_eq_isNone]
  · exact hm.table.len_eq ▸ hm.length_le
  · intro p allowCleared
    cases hg : s.pageStates[p]? with
    | none => simp [pageContent, hg]
    | some state =>
      by_cases hs : (!state.isNone && (allowCleared || state.isPresent)) = true
      · simp only [Bool.and_eq_true, Bool.not_eq_true'] at hs
        obtain ⟨k, hk⟩ : ∃ k, m.slot p = some k := by
          rw [← ne_none_iff_exists', ← hm.slot_eq hg, Ne, ← isNone_iff]
          simp [hs.1]
        rw [pageContent_eq hm hg hk hs.2]
        simp
      · simp [pageContent, hg, hs]
  · intro p state hg hpr
    obtain ⟨k, hk⟩ := ne_none_iff_exists'.mp (slot_ne_none_of_isPresent hpr)
    rw [hm.slot_eq hg] at hk
    exact ⟨_, hsto p k hk, pageContent_eq hm hg hk (by simp [hpr])⟩

lemma after_of_ends {α : Type} {call : Call α} {P : SwapFile → Prop}
    (h : Ends (call s) (fun _ s' => P s') fun stop s' => stop ≠ .abort ∧ P s') :
    ∃ s', after call s = some s' ∧ P s' := by
  rw [after]
  cases hc : call s with
  | ok a s' =>
    rw [hc] at h
    exact ⟨s', rfl, h⟩
  | error stop s' =>
    rw [hc] at h
    cases stop with
    | returned e => exact ⟨s', rfl, h.2⟩
    | abort => exact absurd rfl h.1

lemma step_holds (hgood : ∀ i, host.fails i = none) {r : Request} (hr : r.InRange host n)
    (hs : s.Holds host n last) :
    ∃ s', step host s r = some s' ∧ s'.Holds host n fun p => (r.written host p).or (last p) := by
  cases r with
  | writeToFile idxPage memSlice => exact after_of_ends (writeToFile_ends hgood hr hs)
  | clearRange start stop => exact after_of_ends (clearRange_keeps hgood hr.1 hr.2 hs)
  | markAsPresent idxPage => exact after_of_ends (markAsPresent_keeps hs)
  | freeRange start stop => exact after_of_ends (freeRange_keeps hgood hr.1 hr.2 hs)
  | firstDataRange maxPages => exact after_of_ends (firstDataRange_keeps hs)
  | lockAndAsyncPrefetch maxPages => exact after_of_ends (lockAndAsyncPrefetch_keeps hgood hs)
  | clearMlock => exact after_of_ends (clearMlock_keeps hgood hs)

/-- A swap file of any size keeps its pages through any requests in range, as long as no system call
fails. -/
theorem requests_keep_pages (host : Host) (file : Memory) (n : Nat) (requests : List Request)
    (hn : n ≤ maxPageIdx) (hgood : ∀ i, host.fails i = none)
    (hrange : ∀ r ∈ requests, r.InRange host n) :
    ∃ s₀ s, new host file n = .ok s₀ ∧ Run.run (step host) requests s₀ = some s ∧
      s.KeepsPages host n requests := by
  have hst : ∀ past s, ∀ r ∈ requests, s.Holds host n (lastWritten host past) →
      ∃ s', step host s r = some s' ∧ s'.Holds host n (lastWritten host (past ++ [r])) := by
    intro past s r hr hs
    rw [funext (lastWritten_concat host past r)]
    exact step_holds hgood (hrange r hr) hs
  obtain ⟨s₀, hnew, hs₀⟩ := holds_new file hn (hgood 0)
  obtain ⟨s, hrun, hs⟩ := Run.run_completes _
    (fun past s => s.Holds host n (lastWritten host past)) _ hst [] s₀ hs₀
  exact ⟨s₀, s, hnew, hrun, hs.keepsPages⟩

lemma calmHost_shift : 12 ≤ 32 := by decide

/-- A host with pages of 4 KiB whose system calls do not fail. -/
def calmHost : Host := ⟨12, calmHost_shift, fun _ => none⟩

/-- Two pages are written, the first one is freed, and the third one gets its slot. -/
def reuseSlot : List Request :=
  [.writeToFile 0 (List.replicate 8192 1), .freeRange 0 1, .writeToFile 2 (List.replicate 4096 3),
    .clearRange 1 2, .markAsPresent 1, .firstDataRange 8]

theorem requests_keep_pages_reuse :
    ∃ s₀ s, new calmHost (fun _ => 0) 3 = .ok s₀ ∧
      Run.run (step calmHost) reuseSlot s₀ = some s ∧ s.KeepsPages calmHost 3 reuseSlot :=
  requests_keep_pages calmHost (fun _ => 0) 3 reuseSlot (by decide) (fun _ => rfl)
    (by decide +kernel)

end SwapFile

end GunyahVmm.Swap
