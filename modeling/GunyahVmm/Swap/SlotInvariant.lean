import GunyahVmm.Swap.SlotTables
import GunyahVmm.Swap.SwapFile

/-! The swap file stands for a map from pages to slots with the last bytes, if no system call fails.
-/

namespace GunyahVmm.Swap
open Run PageState List Nat

/-! ## Pages and bytes -/

namespace Host
variable (host : Host)

def pageSize : Nat := 2 ^ host.shift

lemma pagesToBytes_eq {k : Nat} (hk : k ≤ maxPageIdx) :
    host.pagesToBytes k = k * host.pageSize := by
  have hsize : host.pageSize ≤ 2 ^ 32 := Nat.pow_le_pow_right (by decide) host.shift_le
  have hm := Nat.mul_le_mul hk hsize
  rw [pagesToBytes, shiftLeft_eq]
  exact mod_eq_of_lt (by rw [u64Size]; exact lt_of_le_of_lt hm (by decide))

lemma pagesToBytes_lt (k : Nat) : host.pagesToBytes k < u64Size := mod_lt _ (by decide)

lemma pagesToBytes_add_le {a b c : Nat} (h : a + b ≤ c) (hc : c ≤ maxPageIdx) :
    host.pagesToBytes a + host.pagesToBytes b ≤ host.pagesToBytes c := by
  rw [host.pagesToBytes_eq (by omega), host.pagesToBytes_eq (by omega), host.pagesToBytes_eq hc,
    ← add_mul]
  exact mul_le_mul_right _ h

lemma isPageAligned_iff {v : Nat} : host.isPageAligned v = true ↔ v % host.pageSize = 0 := by
  rw [isPageAligned, beq_iff_eq, one_shiftLeft, and_two_pow_sub_one_eq_mod]
  rfl

lemma bytesToPages_eq (v : Nat) : host.bytesToPages v = v / host.pageSize :=
  shiftRight_eq_div_pow _ _

end Host

namespace SwapFile
variable {host : Host} {n p k : Nat} {s : SwapFile} {m : SlotMap Nat}
  {last : Nat → Option (List (BitVec 8))}

/-- The file after calls to the host that change nothing else. -/
def withCalls (s : SwapFile) (calls : Nat) : SwapFile := { s with calls }

/-- The two tables stand for a map from pages to slots, and the cursors are in the file. -/
structure Represents (host : Host) (n : Nat) (s : SwapFile) (m : SlotMap Nat) : Prop where
  few : n ≤ maxPageIdx
  pages : s.pageStates.length = n
  mapping : s.mmapSize = host.pagesToBytes n
  named : ∀ state ∈ s.pageStates, state.Named
  slots : ∀ p, s.pageStates[p]?.bind slot = m.slot p
  table : s.fileStates.Represents m
  length_le : m.owner.length ≤ n
  cursor_le : s.cursorMlock ≤ m.owner.length
  min_le : s.minPossiblePresentIdxFile ≤ m.owner.length

def Stored (host : Host) (m : SlotMap Nat) (last : Nat → Option (List (BitVec 8)))
    (file : Memory) : Prop :=
  ∀ p k, m.slot p = some k → last p = some (file.block host.pageSize k)

def Holds (host : Host) (n : Nat) (last : Nat → Option (List (BitVec 8))) (s : SwapFile) : Prop :=
  ∃ m, s.Represents host n m ∧ Stored host m last s.file

lemma holds_new (file : Memory) (hn : n ≤ maxPageIdx) (hc : host.fails 0 = none) :
    ∃ s, new host file n = .ok s ∧ s.Holds host n fun _ => none := by
  refine ⟨_, by rw [new, if_neg (not_lt.mpr hn), hc], SlotMap.empty, ?_, ?_⟩
  · constructor
    · exact hn
    · exact length_replicate
    · rfl
    · intro state hst
      rw [(mem_replicate.mp hst).2]
      exact named_free
    · intro p
      cases hg : (replicate n (⟨0⟩ : PageState))[p]? with
      | none => rfl
      | some state =>
        rw [(mem_replicate.mp (mem_of_getElem? hg)).2]
        rfl
    · exact FilePageStates.represents_new
    · exact zero_le _
    · exact le_rfl
    · exact le_rfl
  · intro p k hs
    cases hs

namespace Represents
variable (h : s.Represents host n m)
include h
variable {state : PageState}

lemma slot_eq (hst : s.pageStates[p]? = some state) : state.slot = m.slot p := by
  rw [← h.slots, hst, Option.bind_some]

lemma idxFile_eq (hst : s.pageStates[p]? = some state) : state.idxFile = .ok (m.slot p) := by
  rw [PageState.idxFile_eq (h.named _ (mem_of_getElem? hst)), h.slot_eq hst]

lemma exists_state (hp : p < n) : ∃ state, s.pageStates[p]? = some state :=
  ⟨_, getElem?_eq_getElem (h.pages ▸ hp)⟩

lemma page_lt (hs : m.slot p = some k) : p < n := by
  rw [← h.slots] at hs
  obtain ⟨state, hst, -⟩ := Option.bind_eq_some_iff.mp hs
  exact h.pages ▸ (List.getElem?_eq_some_iff.mp hst).1

lemma slot_lt (hs : m.slot p = some k) : k < n := (m.slot_lt hs).trans_le h.length_le

lemma known : FilePageStates.Known s.pageStates s.fileStates.states := by
  intro state hst p hp
  obtain ⟨k, hk⟩ := mem_iff_getElem?.mp hst
  have ho := h.table.idxPage_eq hk
  rw [hp, ← m.slot_iff] at ho
  exact h.pages ▸ h.page_lt ho

lemma withCalls (calls : Nat) : (s.withCalls calls).Represents host n m :=
  ⟨h.few, h.pages, h.mapping, h.named, h.slots, h.table, h.length_le, h.cursor_le, h.min_le⟩

lemma withCursor {cursor : Nat} (hle : cursor ≤ m.owner.length) :
    { s with cursorMlock := cursor }.Represents host n m :=
  ⟨h.few, h.pages, h.mapping, h.named, h.slots, h.table, h.length_le, hle, h.min_le⟩

lemma withMin {first : Nat} (hle : first ≤ m.owner.length) :
    { s with minPossiblePresentIdxFile := first }.Represents host n m :=
  ⟨h.few, h.pages, h.mapping, h.named, h.slots, h.table, h.length_le, h.cursor_le, hle⟩

lemma setPage {m' : SlotMap Nat} {fileStates : FilePageStates} (hnm : state.Named)
    (hp : p < n) (hs : m'.slot = Function.update m.slot p state.slot)
    (ht : fileStates.Represents m') (hle : m'.owner.length ≤ n)
    (hg : m.owner.length ≤ m'.owner.length) :
    { s with pageStates := s.pageStates.set p state, fileStates }.Represents host n m' := by
  constructor
  · exact h.few
  · exact length_set.trans h.pages
  · exact h.mapping
  · intro other ho
    rcases mem_or_eq_of_mem_set ho with hold | rfl
    · exact h.named other hold
    · exact hnm
  · intro q
    rw [hs]
    by_cases hqp : q = p
    · rw [hqp, getElem?_set_self (h.pages ▸ hp), Function.update_self, Option.bind_some]
    · rw [getElem?_set_ne (Ne.symm hqp), Function.update_of_ne hqp]
      exact h.slots q
  · exact ht
  · exact hle
  · exact h.cursor_le.trans hg
  · exact h.min_le.trans hg

lemma setState (hnm : state.Named) (hp : p < n) (hs : state.slot = m.slot p) :
    { s with pageStates := s.pageStates.set p state }.Represents host n m :=
  h.setPage hnm hp (by rw [hs, Function.update_eq_self]) h.table h.length_le le_rfl

lemma clearPages (start stop : Nat) :
    { s with
      pageStates := s.pageStates.mapIdx fun i (state : PageState) =>
        if start ≤ i ∧ i < stop then state.clear else state }.Represents host n m := by
  have hc : ∀ (i : Nat) (state : PageState), state ∈ s.pageStates →
      (if start ≤ i ∧ i < stop then state.clear else state).Named ∧
        (if start ≤ i ∧ i < stop then state.clear else state).slot = state.slot := by
    intro i state hst
    split_ifs
    · exact clear_spec (h.named state hst)
    · exact ⟨h.named state hst, rfl⟩
  constructor
  · exact h.few
  · exact length_mapIdx.trans h.pages
  · exact h.mapping
  · intro state hst
    obtain ⟨i, hi⟩ := mem_iff_getElem?.mp hst
    rw [getElem?_mapIdx] at hi
    obtain ⟨old, ho, rfl⟩ := Option.map_eq_some_iff.mp hi
    exact (hc i old (mem_of_getElem? ho)).1
  · intro p
    rw [← h.slots, getElem?_mapIdx]
    cases hg : s.pageStates[p]? with
    | none => rfl
    | some state => exact (hc p state (mem_of_getElem? hg)).2
  · exact h.table
  · exact h.length_le
  · exact h.cursor_le
  · exact h.min_le

end Represents

/-! ## Calls to the host -/

section Calls
variable (hgood : ∀ i, host.fails i = none)

lemma ends_lift {α : Type} {x : Outcome Error α} {P : α → Prop} (h : x.Yields P) :
    Ends (lift x s) (fun a s' => P a ∧ s' = s) (fun stop s' => stop ≠ .abort ∧ s' = s) := by
  cases x with
  | ok a => exact ⟨h, rfl⟩
  | err e => exact ⟨by simp, rfl⟩
  | panic => exact h.elim

include hgood
section
variable (hn : n ≤ maxPageIdx) (hsize : s.mmapSize = host.pagesToBytes n)
include hn hsize

lemma mappingCall_eq {operation : String} {start pages : Nat} (hle : start + pages ≤ n) :
    mappingCall host operation (host.pagesToBytes start) (host.pagesToBytes pages) s =
      .ok () (s.withCalls (s.calls + 1)) := by
  have hby := host.pagesToBytes_add_le hle hn
  have hlt := host.pagesToBytes_lt n
  have hin : host.pagesToBytes start + host.pagesToBytes pages < u64Size ∧
      host.pagesToBytes start + host.pagesToBytes pages ≤ s.mmapSize :=
    ⟨hby.trans_lt hlt, hsize ▸ hby⟩
  rw [mappingCall, get_bind_apply, if_pos hin, set_bind_apply, hgood]
  rfl

lemma unlockSlots_eq {start stop : Nat} (hle : start ≤ stop) (hs : stop ≤ n) :
    unlockSlots host start stop s = .ok () (s.withCalls (s.calls + 1)) := by
  rw [unlockSlots, subU64_of_le hle]
  exact mappingCall_eq hgood hn hsize (by omega)

end

end Calls

/-! ## Ranges of pages -/

lemma checkConsecutive_yields (h : s.Represents host n m) (idxs : List Nat) {head : Nat}
    (hh : head < m.owner.length) :
    (s.checkConsecutive idxs head).Yields fun _ => head + idxs.length < m.owner.length := by
  induction idxs generalizing head with
  | nil => exact hh
  | cons idx rest ih =>
    rw [checkConsecutive]
    cases hg : s.pageStates[idx]? with
    | none => trivial
    | some state =>
      dsimp only
      split_ifs with hb
      · trivial
      · rw [h.idxFile_eq hg, Outcome.ok_bind]
        cases hs : m.slot idx with
        | none =>
          rw [← h.slot_eq hg, ← isNone_iff] at hs
          simp [hs] at hb
        | some slot =>
          change Outcome.Yields (if slot ≠ head + 1 then _ else _) _
          split_ifs with hnx
          · trivial
          · rw [not_not] at hnx
            refine (ih (hnx ▸ m.slot_lt hs)).mono fun _ hlt => ?_
            rw [length_cons]
            omega

lemma convert_yields (h : s.Represents host n m) {start stop : Nat} (hle : start ≤ stop)
    (hst : stop ≤ n) :
    (s.convertIdxPageRangeToIdxFile start stop).Yields fun range =>
      range.2 = range.1 + (stop - start) ∧ range.2 ≤ m.owner.length := by
  rw [convertIdxPageRangeToIdxFile]
  cases hg : s.pageStates[start]? with
  | none => trivial
  | some state =>
    dsimp only
    split_ifs with hb
    · trivial
    · rw [h.idxFile_eq hg, Outcome.ok_bind]
      cases hs : m.slot start with
      | none =>
        rw [← h.slot_eq hg, ← isNone_iff] at hs
        simp [hs] at hb
      | some head =>
        have hh := m.slot_lt hs
        have hf := h.few
        have hl := h.length_le
        rw [maxPageIdx] at hf
        have ha : (addU64 head stop : Outcome Error Nat) = .ok (head + stop) :=
          addU64_of_lt (by rw [u64Size]; omega)
        have hsub : (subU64 (head + stop) start : Outcome Error Nat) = .ok (head + stop - start) :=
          subU64_of_le (by omega)
        refine (checkConsecutive_yields h _ hh).bind fun _ hlt => ?_
        rw [ha, Outcome.ok_bind, hsub, Outcome.ok_bind]
        rw [length_range'] at hlt
        refine ⟨by dsimp only; omega, by dsimp only; omega⟩

/-! ## Calls that leave the slots as they are -/

/-- The call does not abort, and the file holds what it held. -/
def Keeps (host : Host) (n : Nat) (last : Nat → Option (List (BitVec 8))) {α : Type}
    (call : Call α) (s : SwapFile) : Prop :=
  Ends (call s) (fun _ s' => s'.Holds host n last) fun stop s' =>
    stop ≠ .abort ∧ s'.Holds host n last

lemma Keeps.lift_bind {α β : Type} {x : Outcome Error α} {P : α → Prop} {f : α → Call β}
    (hs : s.Holds host n last) (hx : x.Yields P) (hf : ∀ a, P a → Keeps host n last (f a) s) :
    Keeps host n last (lift x >>= f) s := by
  refine ends_bind (R := fun a s' => P a ∧ s' = s)
    ((ends_lift hx).mono (fun _ _ hok => hok) fun stop s' herr => ?_) fun a s' ha => ?_
  · exact ⟨herr.1, herr.2 ▸ hs⟩
  · obtain ⟨hP, rfl⟩ := ha
    exact hf a hP

lemma markAsPresent_keeps {idxPage : Nat} (hs : s.Holds host n last) :
    Keeps host n last (markAsPresent idxPage) s := by
  obtain ⟨m, hm, hsto⟩ := hs
  rw [Keeps, markAsPresent, get_bind_apply]
  cases hg : s.pageStates[idxPage]? with
  | none => exact ⟨by simp, m, hm, hsto⟩
  | some state =>
    dsimp only
    split_ifs with hst
    · cases hsl : m.slot idxPage with
      | none =>
        rw [← hm.slot_eq hg, ← isNone_iff] at hsl
        simp [hsl] at hst
      | some k =>
        have hnm := hm.named state (mem_of_getElem? hg)
        rw [← hm.slot_eq hg] at hsl
        obtain ⟨hn', hs'⟩ := markAsPresent_spec hnm hsl
        rw [set_bind_apply, idxFile_eq hn', hs']
        rw [hm.slot_eq hg] at hsl
        have hset := hm.setState hn' (hm.page_lt hsl) (hs'.trans hsl.symm)
        exact ⟨m, hset.withMin ((min_le_right _ _).trans hm.min_le), hsto⟩
    · exact ⟨by simp, m, hm, hsto⟩

lemma firstDataRange_keeps {maxPages : Nat} (hs : s.Holds host n last) :
    Keeps host n last (firstDataRange maxPages) s := by
  obtain ⟨m, hm, hsto⟩ := hs
  have hl := hm.table.len_eq
  obtain ⟨found, hf, hr⟩ := FilePageStates.findPresentPagesRange_spec maxPages true
    hm.known (hm.min_le.trans hl.ge)
  rw [Keeps, firstDataRange, get_bind_apply, hf]
  cases found with
  | none => exact ⟨m, hm.withMin hl.le, hsto⟩
  | some range =>
    obtain ⟨⟨a, b⟩, head⟩ := range
    obtain ⟨hab, hb, hpr⟩ := hr a b head rfl
    -- the head is a page, so the sums are small
    have hh : head < n := by
      obtain ⟨_, p, -, ⟨-, page, hpg, -⟩, hp⟩ := hpr 0 (by omega)
      rw [← hm.pages, ← add_zero head, ← hp rfl]
      exact (List.getElem?_eq_some_iff.mp hpg).1
    have hfew := hm.few
    have hle := hm.length_le
    rw [maxPageIdx] at hfew
    have ha : (addU64 head b : Outcome Error Nat) = .ok (head + b) :=
      addU64_of_lt (by rw [u64Size]; omega)
    have hsub : (subU64 (head + b) a : Outcome Error Nat) = .ok (head + b - a) :=
      subU64_of_le (by omega)
    change Ends ((lift (addU64 head b) >>= _) _) _ _
    rw [ha]
    change Ends ((lift (subU64 (head + b) a) >>= _) _) _ _
    rw [hsub]
    exact ⟨m, hm.withMin (hab.le.trans (hl ▸ hb)), hsto⟩

section Kept
variable (hgood : ∀ i, host.fails i = none)
include hgood
variable {start stop idxFile : Nat} {locked : Nat × Option (Nat × Nat)}

lemma unlockDropped_eq (h : s.Represents host n m) (hle : start ≤ stop) (hs : stop ≤ n) :
    ∃ pages calls, unlockDropped host start stop s = .ok pages (s.withCalls calls) := by
  rw [unlockDropped, get_bind_apply]
  split_ifs with hl
  · have hm : start ≤ min stop s.cursorMlock := le_min hle hl.le
    rw [subU64_of_le hm]
    exact ⟨_, _, bind_of_ok (mappingCall_eq hgood h.few h.mapping (by omega))⟩
  · exact ⟨0, s.calls, rfl⟩

lemma clearRange_keeps (hle : start ≤ stop) (hst : stop ≤ n) (hs : s.Holds host n last) :
    Keeps host n last (clearRange host start stop) s := by
  obtain ⟨m, hm, hsto⟩ := hs
  refine Keeps.lift_bind ⟨m, hm, hsto⟩ (convert_yields hm hle hst) fun range hr => ?_
  have hin : ¬(stop < start ∨ s.pageStates.length < stop) := by
    rw [hm.pages]
    omega
  have hl := hm.length_le
  have hc := hm.clearPages start stop
  obtain ⟨pages, calls, hu⟩ := unlockDropped_eq hgood hc (by omega : range.1 ≤ range.2)
    (by omega)
  have hd : dropPageCache host (host.pagesToBytes range.1)
      (host.pagesToBytes (range.2 - range.1)) _ = .ok () _ :=
    mappingCall_eq hgood hc.few (hc.withCalls calls).mapping (by omega)
  rw [Keeps, if_neg hin, set_bind_apply, bind_of_ok hu, subU64_of_le (by omega)]
  change Ends ((dropPageCache host _ _ >>= _) _) _ _
  rw [bind_of_ok hd]
  exact ⟨m, (hc.withCalls calls).withCalls _, hsto⟩

lemma lockAndAsyncPrefetch_keeps {maxPages : Nat} (hs : s.Holds host n last) :
    Keeps host n last (lockAndAsyncPrefetch host maxPages) s := by
  obtain ⟨m, hm, hsto⟩ := hs
  have hlen := hm.table.len_eq
  obtain ⟨found, hf, hr⟩ := FilePageStates.findPresentPagesRange_spec maxPages false
    hm.known (hm.cursor_le.trans hlen.ge)
  rw [Keeps, lockAndAsyncPrefetch, get_bind_apply, hf]
  cases found with
  | none => exact ⟨m, hm.withCursor hlen.le, hsto⟩
  | some range =>
    obtain ⟨⟨a, b⟩, head⟩ := range
    obtain ⟨hab, hb, -⟩ := hr a b head rfl
    have hle := hm.length_le
    have hl : lockOnFault host (host.pagesToBytes a) (host.pagesToBytes (b - a)) _ = .ok () _ :=
      mappingCall_eq hgood hm.few hm.mapping (by omega)
    have hp : asyncPrefetch host (host.pagesToBytes a) (host.pagesToBytes (b - a)) _ =
        .ok () _ :=
      mappingCall_eq hgood hm.few (hm.withCalls (s.calls + 1)).mapping (by omega)
    change Ends ((lift (subU64 b a) >>= _) s) _ _
    rw [subU64_of_le hab.le]
    change Ends ((lockOnFault host _ _ >>= _) s) _ _
    rw [bind_of_ok hl, bind_of_ok hp]
    exact ⟨m, ((hm.withCalls _).withCalls _).withCursor (hlen ▸ hb), hsto⟩

lemma clearMlock_keeps (hs : s.Holds host n last) : Keeps host n last (clearMlock host) s := by
  obtain ⟨m, hm, hsto⟩ := hs
  rw [Keeps, clearMlock, get_bind_apply]
  split_ifs with hl
  · have hu : unlock host (host.pagesToBytes 0) (host.pagesToBytes s.cursorMlock) s =
        .ok () _ :=
      mappingCall_eq hgood hm.few hm.mapping (by have := hm.cursor_le; have := hm.length_le; omega)
    rw [host.pagesToBytes_eq (zero_le _), zero_mul] at hu
    rw [bind_of_ok hu]
    exact ⟨m, (hm.withCalls _).withCursor (zero_le _), hsto⟩
  · exact ⟨m, hm.withCursor (zero_le _), hsto⟩

/-! ## Freeing -/

def LockedIn (len : Nat) (locked : Nat × Option (Nat × Nat)) : Prop :=
  ∀ start stop, locked.2 = some (start, stop) → start ≤ stop ∧ stop ≤ len

omit hgood in
lemma lockedIn_single {len count : Nat} (hlt : idxFile < len) :
    LockedIn len (count, some (idxFile, idxFile + 1)) := by
  rintro start stop ⟨⟩
  exact ⟨le_succ _, hlt⟩

lemma noteFreed_eq (cursor : Nat) (state : PageState) {len : Nat} (hl : LockedIn len locked)
    (hlen : len ≤ n) (hlt : idxFile < len) (hn : n ≤ maxPageIdx)
    (hsize : s.mmapSize = host.pagesToBytes n) :
    ∃ locked' calls, noteFreed host cursor state idxFile locked s =
      .ok locked' (s.withCalls calls) ∧ LockedIn len locked' := by
  obtain ⟨count, range⟩ := locked
  rw [noteFreed]
  split_ifs with hc
  · cases range with
    | none => exact ⟨_, s.calls, rfl, lockedIn_single hlt⟩
    | some range =>
      obtain ⟨start, stop⟩ := range
      obtain ⟨hle, hs⟩ := hl start stop rfl
      rw [noteLocked]
      split_ifs with hp hb
      · refine ⟨_, s.calls, rfl, ?_⟩
        rintro start stop ⟨⟩
        exact ⟨by omega, hs⟩
      · refine ⟨_, s.calls, rfl, ?_⟩
        rintro start stop ⟨⟩
        exact ⟨by omega, by omega⟩
      · have hu := unlockSlots_eq hgood hn hsize hle (hs.trans hlen)
        exact ⟨_, s.calls + 1, bind_of_ok hu, lockedIn_single hlt⟩
  · exact ⟨_, s.calls, rfl, hl⟩

def Freeing (host : Host) (n : Nat) (last : Nat → Option (List (BitVec 8)))
    (locked : Nat × Option (Nat × Nat)) (s : SwapFile) : Prop :=
  ∃ m, s.Represents host n m ∧ Stored host m last s.file ∧ LockedIn m.owner.length locked

lemma freePage_ends {cur : Nat} (hc : cur < n) {E : Stop → SwapFile → Prop}
    (hs : Freeing host n last locked s) :
    Ends (freePage host locked cur s) (Freeing host n last) E := by
  obtain ⟨m, hm, hsto, hlc⟩ := hs
  obtain ⟨state, hg⟩ := hm.exists_state hc
  rw [freePage, get_bind_apply, hg]
  dsimp only
  cases hsl : m.slot cur with
  | none =>
    have hnn : state.isNone = true := by rwa [isNone_iff, hm.slot_eq hg]
    rw [if_pos hnn]
    have hset := hm.setState named_free hc (slot_free.trans hsl.symm)
    exact ⟨m, hset, hsto, hlc⟩
  | some k =>
    have hsm : ¬state.isNone = true := by
      rw [isNone_iff, hm.slot_eq hg, hsl]
      simp
    have hl := hm.length_le
    obtain ⟨fs, hf, ht⟩ := hm.table.free (hl.trans hm.few) hsl
    rw [if_neg hsm, hm.idxFile_eq hg, hsl]
    change Ends ((lift (s.fileStates.free k) >>= _) s) _ _
    rw [hf]
    obtain ⟨locked', calls, hnt, hl'⟩ := noteFreed_eq (s := { s with fileStates := fs })
      hgood s.cursorMlock state hlc hl (m.slot_lt hsl) hm.few hm.mapping
    change Ends ((noteFreed host _ _ _ _ >>= _) _) _ _
    rw [bind_of_ok hnt]
    refine ⟨m.release cur k hsl, ?_, ?_, ?_⟩
    · have hlen : (m.release cur k hsl).owner.length = m.owner.length := length_set
      exact (hm.setPage named_free hc rfl ht (hlen ▸ hl) hlen.ge).withCalls calls
    · intro p j hj
      by_cases hp : p = cur
      · subst hp
        simp [SlotMap.release] at hj
      · exact hsto p j (by simpa [SlotMap.release, hp] using hj)
    · intro start stop hr
      have hlen : (m.release cur k hsl).owner.length = m.owner.length := length_set
      rw [hlen]
      exact hl' start stop hr

lemma freeRange_keeps (hle : start ≤ stop) (hstp : stop ≤ n) (hs : s.Holds host n last) :
    Keeps host n last (freeRange host start stop) s := by
  obtain ⟨m, hm, hsto⟩ := hs
  rw [Keeps, freeRange, get_bind_apply, if_neg (by rw [hm.pages]; omega), if_neg (by omega)]
  have hst : Freeing host n last (0, none) s := ⟨m, hm, hsto, by simp [LockedIn]⟩
  refine ends_bind (ends_foldlM hst ?_) ?_
  · intro cur hc locked s hs
    rw [mem_range'_1] at hc
    exact freePage_ends hgood (by omega) hs
  · rintro ⟨count, range⟩ s' ⟨m', hm', hs', hl⟩
    cases range with
    | none => exact ⟨m', hm', hs'⟩
    | some range =>
      obtain ⟨a, b⟩ := range
      obtain ⟨hab, hb⟩ := hl a b rfl
      have hu := unlockSlots_eq hgood hm'.few hm'.mapping hab (hb.trans hm'.length_le)
      change Ends ((unlockSlots host a b >>= _) s') _ _
      rw [bind_of_ok hu]
      exact ⟨m', hm'.withCalls _, hs'⟩

end Kept

end SwapFile

end GunyahVmm.Swap
