import GunyahVmm.Lib.Patch
import GunyahVmm.Lib.Run
import Mathlib.Algebra.Ring.Nat
import Mathlib.Data.List.Count

/-! The list of present pages (`swap/src/present_list.rs`), searched from a cached index. -/

namespace GunyahVmm.Swap
open Run Run.Outcome List

/-- Which pages are present, and an index to start a search at. -/
structure PresentList where
  list : List Bool
  minPossibleIdx : Nat

namespace PresentList

def new (numOfPages : Nat) : PresentList := ⟨replicate numOfPages false, numOfPages⟩

/-- There is no slice to update if the range does not lie in the list. -/
def update (s : PresentList) (start stop : Nat) (value : Bool) : Bool × PresentList :=
  if start ≤ stop ∧ stop ≤ s.list.length then
    (true, { s with list := patch s.list start (replicate (stop - start) value) })
  else (false, s)

def markAsPresent (s : PresentList) (start stop : Nat) : Bool × PresentList :=
  let (result, s) := s.update start stop true
  (result, { s with minPossibleIdx := 0 })

def clearRange (s : PresentList) (start stop : Nat) : Bool × PresentList :=
  let (result, s) := s.update start stop false
  if result ∧ start ≤ s.minPossibleIdx ∧ s.minPossibleIdx < stop then
    (result, { s with minPossibleIdx := stop })
  else (result, s)

/-- Indexing by a range that does not lie in the list aborts. -/
def slice (l : List Bool) (start stop : Nat) : Outcome Empty (List Bool) :=
  if start ≤ stop ∧ stop ≤ l.length then .ok ((l.take stop).drop start) else .panic

def findDataRange (s : PresentList) (headIdx maxPages : Nat) :
    Outcome Empty (Option (Nat × Nat)) := do
  let pages ← slice s.list headIdx s.list.length
  match pages.findIdx? id with
  | none => .ok none
  | some pos =>
    let headIdx := headIdx + pos
    let tailIdx := min (s.list.length - headIdx) maxPages + headIdx
    let pages ← slice s.list (headIdx + 1) tailIdx
    .ok (some (headIdx, (pages.findIdx? not).elim tailIdx (· + headIdx + 1)))

def firstDataRange (s : PresentList) (maxPages : Nat) :
    Outcome Empty (Option (Nat × Nat) × PresentList) := do
  match ← s.findDataRange s.minPossibleIdx maxPages with
  | some idxRange => .ok (some idxRange, { s with minPossibleIdx := idxRange.1 })
  | none => .ok (none, { s with minPossibleIdx := s.list.length })

def allPresentPages (s : PresentList) : Outcome Empty Nat := do
  let pages ← slice s.list s.minPossibleIdx s.list.length
  .ok (pages.map Bool.toNat).sum

inductive Op where
  | markAsPresent (start stop : Nat)
  | clearRange (start stop : Nat)
  | firstDataRange (maxPages : Nat) (h : 0 < maxPages)

/-- The list after a call; `none` when the process was aborted. -/
def step (s : PresentList) : Op → Option PresentList
  | .markAsPresent start stop => some (s.markAsPresent start stop).2
  | .clearRange start stop => some (s.clearRange start stop).2
  | .firstDataRange maxPages _ =>
    match s.firstDataRange maxPages with
    | .ok (_, s) => some s
    | _ => none

/-! ## What the calls are for -/

def Present (s : PresentList) (i : Nat) : Prop := s.list[i]? = some true

/-- The lowest run of present pages, cut to `maxPages`. -/
def FirstRun (s : PresentList) (maxPages : Nat) : Option (Nat × Nat) → Prop
  | none => ∀ i, ¬ s.Present i
  | some (a, b) => a < b ∧ b ≤ a + maxPages ∧ (∀ i < a, ¬ s.Present i) ∧
      (∀ i, a ≤ i → i < b → s.Present i) ∧ (b = a + maxPages ∨ ¬ s.Present b)

/-- No page below the index is present. -/
structure Inv (s : PresentList) : Prop where
  le : s.minPossibleIdx ≤ s.list.length
  below : ∀ i < s.minPossibleIdx, ¬ s.Present i

structure Exact (s : PresentList) : Prop extends s.Inv where
  first : ∀ maxPages > 0, ∃ r i, s.firstDataRange maxPages =
    .ok (r, { s with minPossibleIdx := i }) ∧ s.FirstRun maxPages r
  all : s.allPresentPages = .ok (s.list.count true)
  outside : ∀ start stop, s.list.length < stop →
    (s.markAsPresent start stop).2.list = s.list ∧ (s.clearRange start stop).2.list = s.list

/-! ## The invariant -/

variable {s : PresentList} {start stop maxPages i : Nat}

lemma Present.lt (h : s.Present i) : i < s.list.length := (List.getElem?_eq_some_iff.mp h).1

lemma getElem?_cleared {l : List Bool}
    (h : (patch l start (replicate (stop - start) false))[i]? = some true) :
    l[i]? = some true ∧ ¬(start ≤ i ∧ i < stop) := by
  rw [getElem?_patch] at h
  obtain ⟨x, hx, hv⟩ := Option.map_eq_some_iff.mp h
  rw [getElem?_replicate] at hv
  split_ifs at hv
  · cases hv
  all_goals exact ⟨hx.trans (congrArg some hv), by omega⟩

lemma Inv.clearRange (h : s.Inv) : (s.clearRange start stop).2.Inv := by
  unfold PresentList.clearRange update
  by_cases hr : start ≤ stop ∧ stop ≤ s.list.length
  · rw [if_pos hr]
    dsimp only
    split
    case isTrue hc =>
      refine ⟨by simpa using hr.2, fun i hi hp => ?_⟩
      obtain ⟨hp, hout⟩ := getElem?_cleared hp
      -- below the old index no page was present, and from there on the pages were cleared
      by_cases hlt : i < s.minPossibleIdx
      · exact h.below i hlt hp
      · exact hout ⟨by omega, hi⟩
    case isFalse =>
      exact ⟨by simpa using h.le, fun i hi hp => h.below i hi (getElem?_cleared hp).1⟩
  · rw [if_neg hr]
    simpa using h

/-! ## The search -/

lemma slice_of_le {l : List Bool} (h : start ≤ stop) (hl : stop ≤ l.length) :
    slice l start stop = .ok ((l.take stop).drop start) := if_pos ⟨h, hl⟩

/-- **Search.** From `m` on, `p` fails below the place that is found and holds there. -/
lemma findIdx?_drop (p : Bool → Bool) {l : List Bool} {m : Nat} (hm : m ≤ l.length) :
    ∃ b, m ≤ b ∧ b ≤ l.length ∧
      (l.drop m).findIdx? p = (if b < l.length then some (b - m) else none) ∧
      (∀ i x, m ≤ i → i < b → l[i]? = some x → p x = false) ∧ ∀ x, l[b]? = some x → p x = true := by
  have hle := (l.drop m).findIdx_le_length (p := p)
  rw [length_drop] at hle
  refine ⟨m + (l.drop m).findIdx p, by omega, by omega, ?_, fun i x hi hlt hx => ?_, fun x hx => ?_⟩
  · simp only [findIdx?_eq_guard_findIdx_lt, Option.guard, length_drop, decide_eq_true_eq,
      Nat.add_sub_cancel_left, show ∀ k, k < l.length - m ↔ m + k < l.length by omega]
  all_goals try obtain ⟨j, rfl⟩ := Nat.exists_eq_add_of_le hi
  all_goals
    rw [← getElem?_drop] at hx
    obtain ⟨_, rfl⟩ := List.getElem?_eq_some_iff.mp hx
  · exact not_of_lt_findIdx (by omega)
  · exact findIdx_getElem

lemma Inv.findDataRange (h : s.Inv) (hm : 0 < maxPages) :
    ∃ r, s.findDataRange s.minPossibleIdx maxPages = .ok r ∧ s.FirstRun maxPages r := by
  obtain ⟨a, hma, hal, hf, habs, hpres⟩ := findIdx?_drop id h.le
  have hlow : ∀ i < a, ¬ s.Present i := fun i hi hp =>
    (Nat.lt_or_ge i s.minPossibleIdx).elim (fun hlt => h.below i hlt hp)
      fun hge => nomatch habs i true hge hi hp
  rw [PresentList.findDataRange, slice_of_le h.le le_rfl, ok_bind, take_length, hf]
  split_ifs with hlt
  · dsimp only
    rw [Nat.add_sub_cancel' hma]
    generalize ht : min (s.list.length - a) maxPages + a = t
    have htl : (s.list.take t).length = t := by
      rw [length_take]
      omega
    obtain ⟨b, hab, hbt, hf, hrun, hend⟩ :=
      findIdx?_drop not (l := s.list.take t) (m := a + 1) (by omega)
    rw [htl] at hbt hf
    rw [slice_of_le (by omega) (by omega), ok_bind, hf]
    refine ⟨_, rfl, ?_⟩
    rw [show (if b < t then some (b - (a + 1)) else none).elim t (· + a + 1) = b by
      split_ifs <;> simp only [Option.elim] <;> omega]
    refine ⟨by omega, by omega, hlow, fun i hai hi => ?_, ?_⟩
    · have hil : i < s.list.length := by omega
      rw [Present, getElem?_eq_getElem hil]
      obtain rfl | hai := Nat.eq_or_lt_of_le hai
      · exact congrArg some (hpres _ (getElem?_eq_getElem hil))
      · have hx := hrun i s.list[i] hai hi
        rw [getElem?_take_of_lt (by omega)] at hx
        simpa using hx (getElem?_eq_getElem hil)
    · obtain hbt | rfl := Nat.lt_or_eq_of_le hbt
      · have hx := hend true
        rw [getElem?_take_of_lt hbt] at hx
        exact .inr fun hp => nomatch hx hp
      · by_cases hb : b = s.list.length
        · exact .inr fun hp => absurd hp.lt (by omega)
        · exact .inl (by omega)
  · exact ⟨none, rfl, fun i hp => hlow i (by have := hp.lt; omega) hp⟩

/-! ## Whole runs -/

lemma Inv.firstDataRange (h : s.Inv) (hm : 0 < maxPages) :
    ∃ r i, s.firstDataRange maxPages = .ok (r, { s with minPossibleIdx := i }) ∧
      s.FirstRun maxPages r ∧ ({ s with minPossibleIdx := i } : PresentList).Inv := by
  obtain ⟨r, hr, hrun⟩ := h.findDataRange hm
  rw [PresentList.firstDataRange, hr]
  match r, hrun with
  | none, hrun => exact ⟨none, _, rfl, hrun, le_rfl, fun i _ => hrun i⟩
  | some (a, b), hrun =>
    exact ⟨_, a, rfl, hrun, Nat.le_of_lt (hrun.2.2.2.1 a le_rfl hrun.1).lt,
      hrun.2.2.1⟩

lemma sum_map_toNat (l : List Bool) : (l.map Bool.toNat).sum = l.count true := by
  induction l with
  | nil => rfl
  | cons b l ih => cases b <;> simp [ih, Nat.add_comm]

lemma Inv.exact (h : s.Inv) : s.Exact where
  toInv := h
  first maxPages hm := by
    obtain ⟨r, i, hr, hrun, -⟩ := h.firstDataRange hm
    exact ⟨r, i, hr, hrun⟩
  all := by
    have h0 : (s.list.take s.minPossibleIdx).count true = 0 := by
      refine count_eq_zero.mpr fun hm => ?_
      obtain ⟨i, hi⟩ := mem_iff_getElem?.mp hm
      rw [getElem?_take] at hi
      split at hi
      · exact h.below i ‹_› hi
      · cases hi
    rw [allPresentPages, slice_of_le h.le le_rfl, ok_bind, take_length, sum_map_toNat]
    conv_rhs => rw [← take_append_drop s.minPossibleIdx s.list, count_append, h0, Nat.zero_add]
  outside start stop hlt := by
    have hn : ¬(start ≤ stop ∧ stop ≤ s.list.length) := by omega
    simp [PresentList.markAsPresent, PresentList.clearRange, update, hn]

lemma Inv.step (h : s.Inv) (op : Op) : ∃ t, s.step op = some t ∧ t.Inv := by
  cases op with
  | markAsPresent start stop => exact ⟨_, rfl, Nat.zero_le _, nofun⟩
  | clearRange start stop => exact ⟨_, rfl, h.clearRange⟩
  | firstDataRange maxPages hm =>
    obtain ⟨r, i, hr, -, hi⟩ := h.firstDataRange hm
    exact ⟨_, by rw [PresentList.step, hr], hi⟩

/-- **Every history.** -/
theorem calls_exact (numOfPages : Nat) (ops : List Op) :
    ∃ s, run step ops (new numOfPages) = some s ∧ s.Exact := by
  obtain ⟨s, hr, hs⟩ := run_completes step (fun _ s => s.Inv) ops
    (fun _ s op _ hs => hs.step op) [] (new numOfPages)
    ⟨by simp [new], fun i _ => by simp [new, Present, getElem?_replicate]⟩
  exact ⟨s, hr, hs.exact⟩

end PresentList

end GunyahVmm.Swap
