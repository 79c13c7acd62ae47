import GunyahVmm.Swap.PageStates

/-! What the packed words stand for: the slot table and its free list are a map from pages to slots.
-/

namespace GunyahVmm.Swap
open Run Run.Outcome FilePageState List Nat

/-! ## The top bit and the others -/

variable (w : BitVec 32)

lemma toNat_and_low : (w &&& 0x7fffffff#32).toNat = w.toNat % 2 ^ 31 := by
  rw [BitVec.toNat_and]
  exact and_two_pow_sub_one_eq_mod w.toNat 31

lemma and_top_ne_zero : (w &&& 0x80000000#32 != 0) = decide (2 ^ 31 ≤ w.toNat) := by
  rw [show (0x80000000#32) = BitVec.twoPow 32 31 from rfl, BitVec.and_twoPow, BitVec.getLsbD,
    testBit_eq_decide_div_mod_eq]
  have := w.isLt
  by_cases h : 2 ^ 31 ≤ w.toNat
  · rw [decide_eq_true h, decide_eq_true (by omega)]
    rfl
  · rw [decide_eq_false h, decide_eq_false (by omega)]
    rfl

lemma toNat_or_top : (w ||| 0x80000000#32).toNat = 2 ^ 31 + w.toNat % 2 ^ 31 := by
  have hm : w.toNat % 2 ^ 31 < 2 ^ 31 := mod_lt _ (by decide)
  have hl : 2 ^ 31 + w.toNat % 2 ^ 31 = 2 ^ 31 ||| w.toNat % 2 ^ 31 := by
    simpa using two_pow_add_eq_or_of_lt hm 1
  rw [BitVec.toNat_or, show (0x80000000#32).toNat = 2 ^ 31 from rfl, hl, Nat.or_comm]
  have := w.isLt
  rcases lt_or_ge w.toNat (2 ^ 31) with hlt | hge
  · rw [mod_eq_of_lt hlt]
  have hw : w.toNat = 2 ^ 31 ||| w.toNat % 2 ^ 31 := by omega
  conv_lhs => rw [hw]
  rw [← Nat.or_assoc, Nat.or_self]

lemma addU32_one {k : Nat} (hk : k ≤ maxPageIdx) :
    (addU32 (k % u32Size) 1 : Outcome Error Nat) = .ok (k + 1) := by
  rw [maxPageIdx] at hk
  rw [u32Size, mod_eq_of_lt (by omega)]
  exact addIn_of_lt (by rw [u32Size]; omega)

/-! ## Words of slots -/

namespace FilePageState
variable (state : FilePageState)

lemma isFreed_eq : state.isFreed = decide (2 ^ 31 ≤ state.word.toNat) := and_top_ne_zero _

lemma nextFileFreedIdx_eq (h : 2 ^ 31 ≤ state.word.toNat) :
    state.nextFileFreedIdx =
      some (if state.word.toNat % 2 ^ 31 = 0 then none
        else some (state.word.toNat % 2 ^ 31 - 1)) := by
  have hl : (~~~freedBitMask &&& state.word).toNat = state.word.toNat % 2 ^ 31 := by
    rw [BitVec.and_comm]
    exact toNat_and_low _
  have hz : ~~~freedBitMask &&& state.word = 0 ↔ state.word.toNat % 2 ^ 31 = 0 := by
    rw [← hl]
    exact BitVec.toNat_inj.symm
  rw [nextFileFreedIdx, isFreed_eq, if_pos (decide_eq_true h)]
  simp only [hz, hl]
  split_ifs <;> rfl

lemma nextFileFreedIdx_eq_none {state : FilePageState} (h : state.word.toNat < 2 ^ 31) :
    state.nextFileFreedIdx = none := by
  rw [nextFileFreedIdx, isFreed_eq, decide_eq_false (by omega)]
  rfl

lemma idxPage_eq :
    state.idxPage = if 2 ^ 31 ≤ state.word.toNat then none else some state.word.toNat := by
  rw [idxPage, isFreed_eq]
  simp

lemma freedState_spec {first : Option Nat} (h : ∀ k, first = some k → k ≤ maxPageIdx) :
    ∃ state, freedState first = .ok state ∧ state.idxPage = none ∧
      state.nextFileFreedIdx = some first := by
  cases first with
  | none =>
    refine ⟨_, rfl, ?_, ?_⟩
    all_goals decide
  | some k =>
    have hk : k ≤ 2 ^ 31 - 2 := h k rfl
    have hw : (freedBitMask ||| BitVec.ofNat 32 (k + 1)).toNat = 2 ^ 31 + (k + 1) := by
      rw [BitVec.or_comm]
      refine (toNat_or_top _).trans ?_
      rw [BitVec.toNat_ofNat]
      omega
    refine ⟨⟨freedBitMask ||| BitVec.ofNat 32 (k + 1)⟩, ?_, ?_, ?_⟩
    · simp [freedState, addU32_one (h k rfl)]
    · rw [idxPage_eq, if_pos (by rw [hw]; omega)]
    · rw [nextFileFreedIdx_eq _ (by rw [hw]; omega), hw, if_neg (by omega)]
      congr 2
      omega

lemma allocatedState_spec {p : Nat} (hp : p ≤ maxPageIdx) :
    ∃ state, allocatedState p = some state ∧ state.idxPage = some p ∧
      state.nextFileFreedIdx = none := by
  have hlt : p ≤ 2 ^ 31 - 2 := hp
  have hw : (BitVec.ofNat 32 p).toNat = p := by
    rw [BitVec.toNat_ofNat]
    omega
  refine ⟨⟨BitVec.ofNat 32 p⟩, if_pos hp, ?_, ?_⟩
  · rw [idxPage_eq, hw, if_neg (by omega)]
  · exact nextFileFreedIdx_eq_none (by rw [hw]; omega)

lemma isFreed_eq_isNone : state.isFreed = state.idxPage.isNone := by
  rw [idxPage]
  split <;> simp [*]

end FilePageState

/-! ## Words of pages -/

namespace PageState

def slot (state : PageState) : Option Nat :=
  if state.word.toNat = 0 then none else some (state.word.toNat % 2 ^ 31 - 1)

def Named (state : PageState) : Prop := state.word.toNat = 0 ∨ 0 < state.word.toNat % 2 ^ 31

variable {state : PageState} {k : Nat}

lemma slot_eq_none : state.slot = none ↔ state.word.toNat = 0 := by
  rw [slot]
  split_ifs with h <;> simp [h]

lemma toNat_of_slot (h : state.Named) (hs : state.slot = some k) :
    state.word.toNat % 2 ^ 31 = k + 1 := by
  rw [slot] at hs
  split_ifs at hs with hz
  cases hs
  have := h.resolve_left hz
  omega

lemma slot_of_toNat (h : state.word.toNat % 2 ^ 31 = k + 1) :
    state.Named ∧ state.slot = some k := by
  refine ⟨.inr (by omega), ?_⟩
  rw [slot, if_neg (by omega), h, Nat.add_sub_cancel]

lemma word_eq_zero : state.word = 0 ↔ state.word.toNat = 0 := BitVec.toNat_inj.symm

lemma isNone_iff : state.isNone = true ↔ state.slot = none := by
  rw [isNone, beq_iff_eq, word_eq_zero, slot_eq_none]

lemma idxFile_eq (h : state.Named) : state.idxFile = .ok state.slot := by
  simp only [idxFile, slot, ne_eq, word_eq_zero, ite_not]
  split_ifs with hz
  · rfl
  · have hl : (state.word &&& idxFileMask).toNat = state.word.toNat % 2 ^ 31 := toNat_and_low _
    rw [hl, subU64_of_le (h.resolve_left hz)]
    rfl

lemma isPresent_eq (state : PageState) : state.isPresent = decide (2 ^ 31 ≤ state.word.toNat) :=
  and_top_ne_zero _

lemma slot_ne_none_of_isPresent (h : state.isPresent = true) : state.slot ≠ none := by
  rw [isPresent_eq, decide_eq_true_eq] at h
  rw [Ne, slot_eq_none]
  omega

lemma named_free : free.Named := .inl rfl

lemma slot_free : free.slot = none := rfl

lemma clear_spec (h : state.Named) : state.clear.Named ∧ state.clear.slot = state.slot := by
  have hw : state.clear.word.toNat = state.word.toNat % 2 ^ 31 := toNat_and_low _
  cases hs : state.slot with
  | none =>
    rw [slot_eq_none] at hs
    have hz : state.clear.word.toNat = 0 := by rw [hw, hs, zero_mod]
    exact ⟨.inl hz, slot_eq_none.mpr hz⟩
  | some k =>
    refine slot_of_toNat ?_
    rw [hw, mod_mod, toNat_of_slot h hs]

lemma markAsPresent_spec (h : state.Named) (hs : state.slot = some k) :
    state.markAsPresent.Named ∧ state.markAsPresent.slot = some k := by
  refine slot_of_toNat ?_
  rw [markAsPresent, presentBitMask, toNat_or_top, ← toNat_of_slot h hs]
  omega

lemma update_spec (hk : k ≤ maxPageIdx) :
    ∃ state, update k = .ok state ∧ state.Named ∧ state.slot = some k := by
  have hk' : k ≤ 2 ^ 31 - 2 := hk
  refine ⟨⟨BitVec.ofNat 32 (k + 1) ||| presentBitMask⟩, ?_, slot_of_toNat ?_⟩
  · rw [update, addU32_one hk, ok_bind]
  · rw [presentBitMask, toNat_or_top, BitVec.toNat_ofNat]
    omega

end PageState

/-! ## The table of the slots -/

namespace FilePageStates

/-- Each slot names the page that has it, and the free list visits the free slots. -/
structure Represents (fs : FilePageStates) (m : SlotMap Nat) : Prop where
  owner : fs.states.map idxPage = m.owner
  visits : Visits (fun k => fs.states[k]?.bind nextFileFreedIdx)
    fs.firstIdxFileFreed m.free

variable {fs : FilePageStates} {m : SlotMap Nat} {p k : Nat}

lemma represents_new : new.Represents SlotMap.empty := ⟨rfl, .nil⟩

section
variable (h : fs.Represents m)
include h

lemma Represents.len_eq : fs.len = m.owner.length := by
  rw [← h.owner, length_map, len]

lemma Represents.idxPage_eq {state : FilePageState}
    (hst : fs.states[k]? = some state) : m.owner[k]? = some state.idxPage := by
  rw [← h.owner, getElem?_map, hst, Option.map_some]

lemma Represents.allocate (hp : p ≤ maxPageIdx) (hnn : m.slot p = none) :
    ∃ fs', fs.allocate p = .ok (m.next, fs') ∧ fs'.Represents (m.allocate p hnn) := by
  obtain ⟨state, hst, hidx, -⟩ := allocatedState_spec hp
  have hnd := m.free_nodup
  have hv := h.visits
  cases hfst : fs.firstIdxFileFreed with
  | none =>
    rw [hfst] at hv
    generalize hf : m.free = free at hv
    cases hv
    refine ⟨⟨none, fs.states ++ [state]⟩, ?_, ?_, ?_⟩
    · simp only [FilePageStates.allocate, hfst, hst, Outcome.expect, ok_bind,
        SlotMap.next, hf, headD_nil, h.len_eq]
    · simp only [SlotMap.allocate, SlotMap.ownerWith, hf, map_append, h.owner, hidx,
        map_cons, map_nil]
    · simp only [SlotMap.allocate, hf, tail_nil]
      exact .nil
  | some j =>
    rw [hfst] at hv
    generalize hf : m.free = free at hv hnd
    cases hv with
    | @cons _ next rest hn hr =>
      obtain ⟨freed, hfr, hn⟩ := Option.bind_eq_some_iff.mp hn
      refine ⟨⟨next, fs.states.set j state⟩, ?_, ?_, ?_⟩
      · simp only [FilePageStates.allocate, hfst, hfr, hn, hst, Outcome.expect,
          ok_bind, SlotMap.next, hf, headD_cons]
      · simp only [SlotMap.allocate, SlotMap.ownerWith, hf, map_set, h.owner, hidx]
      · simp only [SlotMap.allocate, hf, tail_cons]
        refine hr.congr fun i hi => ?_
        have hij : j ≠ i := by
          rintro rfl
          exact (nodup_cons.mp hnd).1 hi
        rw [getElem?_set_ne hij]

lemma Represents.free (hfew : m.owner.length ≤ maxPageIdx) (hs : m.slot p = some k) :
    ∃ fs', fs.free k = .ok fs' ∧ fs'.Represents (m.release p k hs) := by
  have hfst : ∀ j, fs.firstIdxFileFreed = some j → j ≤ maxPageIdx := by
    intro j hj
    have hv := h.visits
    rw [hj] at hv
    generalize hf : m.free = free at hv
    cases hv
    exact ((m.lt_of_mem_free (hf ▸ mem_cons_self)).trans_le hfew).le
  obtain ⟨state, hst, hidx, hn⟩ := freedState_spec hfst
  have hk : k < fs.len := h.len_eq ▸ m.slot_lt hs
  refine ⟨⟨some k, fs.states.set k state⟩, ?_, ?_, ?_⟩
  · rw [FilePageStates.free, hst, ok_bind, if_pos hk]
  · simp only [SlotMap.release, map_set, h.owner, hidx]
  · refine .cons ?_ (h.visits.congr fun i hi => ?_)
    · rw [getElem?_set_self hk, Option.bind_some, hn]
    · have hki : k ≠ i := by
        rintro rfl
        exact m.slot_notMem_free hs hi
      rw [getElem?_set_ne hki]

end

/-! ## Ranges of present pages -/

section Search
variable {pageStates : List PageState}
section
variable (pageStates : List PageState)

def Known (states : List FilePageState) : Prop :=
  ∀ state ∈ states, ∀ p, state.idxPage = some p → p < pageStates.length

def PresentAt (state : FilePageState) (p : Nat) : Prop :=
  state.idxPage = some p ∧ ∃ page, pageStates[p]? = some page ∧ page.isPresent = true

/-- The first `n` slots are those of present pages: from `head` on, if they have to be consecutive.
-/
def PresentFrom (consecutive : Bool) (states : List FilePageState) (head n : Nat) : Prop :=
  ∀ i < n, ∃ state p, states[i]? = some state ∧ PresentAt pageStates state p ∧
    (consecutive = true → p = head + i)

end

section PresentFrom
variable {consecutive : Bool} {state : FilePageState} {states : List FilePageState} {head n : Nat}

lemma presentFrom_zero : PresentFrom pageStates consecutive states head 0 := by
  simp [PresentFrom]

lemma PresentFrom.cons (h : PresentFrom pageStates consecutive states (head + 1) n)
    (hp : PresentAt pageStates state p) (hn : consecutive = true → p = head) :
    PresentFrom pageStates consecutive (state :: states) head (n + 1) := by
  intro i hi
  cases i with
  | zero => exact ⟨state, p, rfl, hp, hn⟩
  | succ i =>
    obtain ⟨other, q, ho, hq, hqi⟩ := h i (by omega)
    refine ⟨other, q, ho, hq, fun hc => ?_⟩
    rw [hqi hc]
    omega

lemma PresentFrom.le_length (h : PresentFrom pageStates consecutive states head n) :
    n ≤ states.length := by
  rcases Nat.eq_zero_or_pos n with rfl | hp
  · exact zero_le _
  obtain ⟨state, -, hst, -⟩ := h (n - 1) (by omega)
  have := (List.getElem?_eq_some_iff.mp hst).1
  omega

end PresentFrom

lemma isPresentSlot_spec {state : FilePageState}
    (h : ∀ p, state.idxPage = some p → p < pageStates.length) :
    ∃ b, isPresentSlot pageStates state = .ok b ∧
      (b = true → ∃ p, PresentAt pageStates state p) := by
  rw [isPresentSlot, isFreed_eq_isNone]
  cases hi : state.idxPage with
  | none => exact ⟨false, rfl, by simp⟩
  | some p =>
    obtain ⟨page, hg⟩ : ∃ page, pageStates[p]? = some page := ⟨_, getElem?_eq_getElem (h p hi)⟩
    refine ⟨page.isPresent, ?_, fun hp => ⟨p, hi, page, hg, hp⟩⟩
    simp [Outcome.expect, hg]

lemma position_spec {states : List FilePageState} (h : Known pageStates states) :
    ∃ found, position pageStates states = .ok found ∧
      ∀ i, found = some i → ∃ state p, states[i]? = some state ∧ PresentAt pageStates state p := by
  induction states with
  | nil => exact ⟨none, rfl, by simp⟩
  | cons state rest ih =>
    obtain ⟨b, hb, hpr⟩ := isPresentSlot_spec (h state mem_cons_self)
    obtain ⟨found, hf, hr⟩ := ih (forall_mem_cons.mp h).2
    rw [position, hb, ok_bind]
    cases b with
    | true =>
      refine ⟨some 0, rfl, fun i hi => ?_⟩
      cases hi
      obtain ⟨p, hp⟩ := hpr rfl
      exact ⟨state, p, rfl, hp⟩
    | false =>
      refine ⟨found.map (· + 1), ?_, fun i hi => ?_⟩
      · rw [hf]
        rfl
      · obtain ⟨j, hj, rfl⟩ := Option.map_eq_some_iff.mp hi
        rw [getElem?_cons_succ]
        exact hr j hj

lemma countPresent_spec {head maxPages : Nat} {consecutive : Bool} {states : List FilePageState}
    (h : Known pageStates states) (pages : Nat) :
    ∃ n, countPresent pageStates head maxPages consecutive states pages = .ok (pages + n) ∧
      PresentFrom pageStates consecutive states (head + pages) n := by
  induction states generalizing pages with
  | nil => exact ⟨0, rfl, presentFrom_zero⟩
  | cons state rest ih =>
    have hk := h state mem_cons_self
    rw [countPresent, isFreed_eq_isNone]
    cases hi : state.idxPage with
    | none => exact ⟨0, rfl, presentFrom_zero⟩
    | some p =>
      obtain ⟨page, hg⟩ : ∃ page, pageStates[p]? = some page := ⟨_, getElem?_eq_getElem (hk p hi)⟩
      simp only [Option.isNone_some, Bool.false_eq_true, if_false, Outcome.expect, hg, ok_bind]
      by_cases hs : (!page.isPresent || (consecutive && p != head + pages)) = true
      · exact ⟨0, if_pos hs, presentFrom_zero⟩
      rw [if_neg hs]
      simp only [Bool.or_eq_true, Bool.not_eq_true', Bool.and_eq_true, bne_iff_ne, not_or,
        Bool.not_eq_false, not_and, not_not] at hs
      have hat : PresentAt pageStates state p := ⟨hi, page, hg, hs.1⟩
      split_ifs with hm
      · exact ⟨1, rfl, presentFrom_zero.cons hat hs.2⟩
      · obtain ⟨n, hn, hr⟩ := ih (forall_mem_cons.mp h).2
          (pages + 1)
        refine ⟨n + 1, ?_, hr.cons hat hs.2⟩
        rw [hn, add_assoc, add_comm 1]

lemma findPresentPagesRange_spec (maxPages : Nat) (consecutive : Bool) {start : Nat}
    (hk : Known pageStates fs.states) (hs : start ≤ fs.len) :
    ∃ found, fs.findPresentPagesRange start pageStates maxPages consecutive = .ok found ∧
      ∀ a b head, found = some ((a, b), head) → a < b ∧ b ≤ fs.len ∧
        PresentFrom pageStates consecutive (fs.states.drop a) head (b - a) := by
  have hd : ∀ n, Known pageStates (fs.states.drop n) := fun n state hst =>
    hk state (mem_of_mem_drop hst)
  obtain ⟨found, hf, hat⟩ := position_spec (hd start)
  rw [findPresentPagesRange, if_neg (not_lt.mpr hs), hf, ok_bind]
  cases found with
  | none => exact ⟨none, rfl, by simp⟩
  | some offset =>
    obtain ⟨state, p, hst, hp⟩ := hat offset rfl
    rw [getElem?_drop] at hst
    simp only [hst, hp.1, Outcome.expect, ok_bind]
    generalize start + offset = a at hst ⊢
    obtain ⟨hlt, rfl⟩ := List.getElem?_eq_some_iff.mp hst
    -- the range has the head and `n` more slots
    have hrng : ∀ n, PresentFrom pageStates consecutive (fs.states.drop (a + 1)) (p + 1) n →
        a < a + (1 + n) ∧ a + (1 + n) ≤ fs.len ∧
          PresentFrom pageStates consecutive (fs.states.drop a) p (a + (1 + n) - a) := by
      intro n hr
      have hl := hr.le_length
      rw [length_drop] at hl
      refine ⟨by omega, by rw [len]; omega, ?_⟩
      rw [drop_eq_getElem_cons hlt, Nat.add_sub_cancel_left, Nat.add_comm 1]
      exact hr.cons hp fun _ => rfl
    split_ifs with hm
    · obtain ⟨n, hn, hr⟩ := countPresent_spec (hd (a + 1)) 1
      refine ⟨_, by rw [hn, ok_bind], fun b c head hf => ?_⟩
      cases hf
      exact hrng n hr
    · refine ⟨_, rfl, fun b c head hf => ?_⟩
      cases hf
      exact hrng 0 presentFrom_zero

end Search

end FilePageStates

end GunyahVmm.Swap
