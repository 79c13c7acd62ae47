import Mathlib.Data.Finset.Card
import Mathlib.Data.List.Nodup
import Mathlib.Logic.Function.Basic

/-! Keys in numbered slots. The slot freed last is used first, and a new one only when none is free.
Free slots may be threaded through the table. -/

namespace GunyahVmm
open List

/-- The slot of each key, the key of each slot, and the free slots. -/
structure SlotMap (κ : Type) where
  slot : κ → Option Nat
  owner : List (Option κ)
  free : List Nat
  slot_iff : ∀ x k, slot x = some k ↔ owner[k]? = some (some x)
  free_nodup : free.Nodup
  mem_free : ∀ k, k ∈ free ↔ owner[k]? = some none

namespace SlotMap
variable {κ : Type} (m : SlotMap κ) {x y : κ} {k : Nat}

lemma slot_inj (hx : m.slot x = some k) (hy : m.slot y = some k) : x = y := by
  rw [m.slot_iff] at hx hy
  cases hx.symm.trans hy
  rfl

lemma slot_lt (hx : m.slot x = some k) : k < m.owner.length :=
  (List.getElem?_eq_some_iff.mp ((m.slot_iff x k).mp hx)).1

lemma lt_of_mem_free (hk : k ∈ m.free) : k < m.owner.length :=
  (List.getElem?_eq_some_iff.mp ((m.mem_free k).mp hk)).1

lemma slot_notMem_free (hx : m.slot x = some k) : k ∉ m.free := by
  intro hk
  rw [m.mem_free] at hk
  rw [m.slot_iff] at hx
  cases hk.symm.trans hx

def empty : SlotMap κ where
  slot _ := none
  owner := []
  free := []
  slot_iff := by simp
  free_nodup := List.nodup_nil
  mem_free := by simp

lemma length_lt_card [DecidableEq κ] {keys : Finset κ} (hf : m.free = [])
    (hky : ∀ y k, m.slot y = some k → y ∈ keys) (hx : x ∈ keys) (hn : m.slot x = none) :
    m.owner.length < keys.card := by
  have hs : Finset.range m.owner.length ⊆
      (keys.erase x).image fun y => (m.slot y).getD 0 := by
    intro k hk
    rw [Finset.mem_range] at hk
    obtain ⟨y, hy⟩ : ∃ y, m.owner[k]? = some (some y) := by
      cases ho : m.owner[k] with
      | none =>
        have hm := (m.mem_free k).mpr (List.getElem?_eq_some_iff.mpr ⟨hk, ho⟩)
        rw [hf] at hm
        cases hm
      | some y => exact ⟨y, List.getElem?_eq_some_iff.mpr ⟨hk, ho⟩⟩
    rw [← m.slot_iff] at hy
    have hyx : y ≠ x := by
      rintro rfl
      cases hn.symm.trans hy
    exact Finset.mem_image.mpr
      ⟨y, Finset.mem_erase.mpr ⟨hyx, hky y k hy⟩, by rw [hy, Option.getD_some]⟩
  have hc := (Finset.card_le_card hs).trans Finset.card_image_le
  rw [Finset.card_range, Finset.card_erase_of_mem hx] at hc
  have := Finset.card_pos.mpr ⟨x, hx⟩
  omega

/-! ## Taking a slot -/

def next : Nat := m.free.headD m.owner.length

lemma slot_ne_next (hx : m.slot x = some k) : k ≠ m.next := by
  unfold next
  cases hf : m.free with
  | nil => exact (m.slot_lt hx).ne
  | cons j rest =>
    rintro rfl
    exact m.slot_notMem_free hx (hf ▸ mem_cons_self)

/-- The table with `x` in the next slot. -/
def ownerWith (x : κ) : List (Option κ) :=
  match m.free with
  | [] => m.owner ++ [some x]
  | k :: _ => m.owner.set k (some x)

lemma length_ownerWith_le : (m.ownerWith x).length ≤ m.owner.length + 1 := by
  unfold ownerWith
  split <;> simp

lemma length_le_ownerWith : m.owner.length ≤ (m.ownerWith x).length := by
  unfold ownerWith
  split <;> simp

lemma getElem?_ownerWith (x : κ) (k : Nat) :
    (m.ownerWith x)[k]? = if k = m.next then some (some x) else m.owner[k]? := by
  unfold ownerWith next
  cases hf : m.free with
  | nil =>
    rw [headD_nil]
    split_ifs with hk
    · rw [hk, getElem?_concat_length]
    · rcases Nat.lt_or_gt_of_ne hk with hlt | hgt
      · exact getElem?_append_left hlt
      · rw [getElem?_eq_none hgt.le, getElem?_eq_none]
        simpa using Nat.succ_le_of_lt hgt
  | cons j rest =>
    rw [headD_cons, getElem?_set]
    have hj := m.lt_of_mem_free (hf ▸ mem_cons_self)
    split_ifs with hjk hkj hkj
    · rfl
    · exact absurd hjk.symm hkj
    · exact absurd hkj.symm hjk
    · rfl

variable [DecidableEq κ]

def allocate (x : κ) (hx : m.slot x = none) : SlotMap κ where
  slot := Function.update m.slot x (some m.next)
  owner := m.ownerWith x
  free := m.free.tail
  slot_iff y k := by
    rw [getElem?_ownerWith, Function.update_apply]
    split_ifs with hyx hk hk
    · simp [hyx, hk]
    · rw [← m.slot_iff, hyx, hx]
      simp [Ne.symm hk]
    · rw [hk]
      constructor
      · intro hy
        exact absurd rfl (m.slot_ne_next hy)
      · intro h
        cases h
        exact absurd rfl hyx
    · exact m.slot_iff y k
  free_nodup := m.free_nodup.tail
  mem_free k := by
    rw [getElem?_ownerWith]
    have hnodup := m.free_nodup
    have hmem := m.mem_free k
    unfold next
    cases hfree : m.free with
    | nil =>
      rw [hfree] at hmem
      rw [List.headD_nil, List.tail_nil, hmem]
      split_ifs with hk
      · simp [hk]
      · rfl
    | cons j rest =>
      rw [hfree] at hmem hnodup
      rw [List.headD_cons, List.tail_cons]
      split_ifs with hk
      · simpa [hk] using (List.nodup_cons.mp hnodup).1
      · rw [← hmem, List.mem_cons, or_iff_right hk]

/-! ## Giving a slot back -/

def release (x : κ) (k : Nat) (hx : m.slot x = some k) : SlotMap κ where
  slot := Function.update m.slot x none
  owner := m.owner.set k none
  free := k :: m.free
  slot_iff y j := by
    have hk := m.slot_lt hx
    rw [Function.update_apply, List.getElem?_set]
    split_ifs with hyx hkj hkj
    · simp
    · rw [← m.slot_iff, hyx, hx]
      simp [hkj]
    · constructor
      · intro hy
        exact absurd (m.slot_inj (hkj ▸ hy) hx) hyx
      · simp
    · exact m.slot_iff y j
  free_nodup := List.nodup_cons.mpr ⟨m.slot_notMem_free hx, m.free_nodup⟩
  mem_free j := by
    have hk := m.slot_lt hx
    rw [List.mem_cons, List.getElem?_set]
    split_ifs with hkj
    · simp [hkj]
    · rw [m.mem_free, or_iff_right (Ne.symm hkj)]

end SlotMap

/-! ## Lists threaded through a table -/

/-- From `first` on, each entry names the next one; the entries visited are those of the list. -/
inductive Visits {ι : Type} (next : ι → Option (Option ι)) : Option ι → List ι → Prop
  | nil : Visits next none []
  | cons {i : ι} {n : Option ι} {rest : List ι} :
      next i = some n → Visits next n rest → Visits next (some i) (i :: rest)

namespace Visits
variable {ι : Type} {next next' : ι → Option (Option ι)} {first : Option ι} {l : List ι}

lemma congr (h : Visits next first l) (hs : ∀ i ∈ l, next' i = next i) :
    Visits next' first l := by
  induction h with
  | nil => exact .nil
  | cons hn _ ih =>
    refine .cons ((hs _ mem_cons_self).trans hn) (ih fun i hi => ?_)
    exact hs i (mem_cons_of_mem _ hi)

end Visits

end GunyahVmm
