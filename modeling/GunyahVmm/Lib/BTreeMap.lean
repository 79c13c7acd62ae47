import Mathlib.Data.List.Nodup
import Mathlib.Order.Lattice

/-! Ordered maps as lists of entries with strictly increasing keys. -/

namespace GunyahVmm
open List

/-- A map whose entries are kept in the order of their keys. -/
structure BTreeMap (κ β : Type) [LinearOrder κ] where
  entries : List (κ × β)
  sorted : entries.Pairwise fun a b => a.1 < b.1

namespace BTreeMap
variable {κ β : Type} [LinearOrder κ] {key : κ} {l : List (κ × β)}

def empty : BTreeMap κ β := ⟨[], .nil⟩

/-- The value of a key that is already there is replaced. -/
def insertList (k : κ) (v : β) : List (κ × β) → List (κ × β)
  | [] => [(k, v)]
  | e :: es =>
    if k < e.1 then (k, v) :: e :: es
    else if k = e.1 then (k, v) :: es
    else e :: insertList k v es

lemma mem_insertList_of_mem {k : κ} {v : β} {x : κ × β} (h : x ∈ insertList k v l) :
    x = (k, v) ∨ x ∈ l := by
  induction l with
  | nil => simpa [insertList] using h
  | cons e es ih =>
    simp only [insertList] at h
    split at h
    · simpa using h
    split at h
    · rcases mem_cons.mp h with h | h
      · exact .inl h
      · exact .inr (mem_cons_of_mem _ h)
    · rcases mem_cons.mp h with rfl | h
      · exact .inr mem_cons_self
      · exact (ih h).imp_right (mem_cons_of_mem _)

lemma insertList_sorted (k : κ) (v : β) (h : l.Pairwise fun a b => a.1 < b.1) :
    (insertList k v l).Pairwise fun a b => a.1 < b.1 := by
  induction h with
  | nil => simp [insertList]
  | @cons e es he hes ih =>
    simp only [insertList]
    split
    · rename_i hlt
      refine .cons ?_ (.cons he hes)
      exact forall_mem_cons.mpr ⟨hlt, fun x hx => lt_trans hlt (he x hx)⟩
    · split
      · rename_i heq
        exact .cons (fun x hx => heq ▸ he x hx) hes
      · rename_i hge hne
        refine .cons ?_ ih
        intro x hx
        rcases mem_insertList_of_mem hx with rfl | hx
        · exact lt_of_le_of_ne (not_lt.mp hge) (Ne.symm hne)
        · exact he x hx

section
variable (m : BTreeMap κ β)

def insert (k : κ) (v : β) : BTreeMap κ β :=
  ⟨insertList k v m.entries, insertList_sorted k v m.sorted⟩

def get (k : κ) : Option β := (m.entries.find? fun e => e.1 = k).map Prod.snd

def contains (k : κ) : Bool := m.entries.any fun e => e.1 = k

def remove (k : κ) : BTreeMap κ β :=
  ⟨m.entries.filter fun e => e.1 ≠ k, m.sorted.sublist List.filter_sublist⟩

def retain (p : κ × β → Bool) : BTreeMap κ β :=
  ⟨m.entries.filter p, m.sorted.sublist List.filter_sublist⟩

def below (hi : κ) : List (κ × β) := m.entries.filter fun e => e.1 < hi

end

variable {m : BTreeMap κ β} {k : κ} {v : β} {x : κ × β}

lemma nodup_keys (m : BTreeMap κ β) : (m.entries.map Prod.fst).Nodup :=
  pairwise_map.mpr (m.sorted.imp fun h => ne_of_lt h)

lemma eq_of_key_eq {y : κ × β} (hx : x ∈ m.entries) (hy : y ∈ m.entries) (h : x.1 = y.1) :
    x = y :=
  inj_on_of_nodup_map m.nodup_keys hx hy h

lemma mem_insert_self (m : BTreeMap κ β) (k : κ) (v : β) : (k, v) ∈ (m.insert k v).entries := by
  obtain ⟨l, hl⟩ := m
  simp only [insert]
  clear hl
  induction l with
  | nil => exact mem_singleton_self _
  | cons e es ih =>
    simp only [insertList]
    split
    · exact mem_cons_self
    split
    · exact mem_cons_self
    · exact mem_cons_of_mem _ ih

lemma mem_insert_of_mem {w : β} (hne : key ≠ k) (h : (key, w) ∈ m.entries) :
    (key, w) ∈ (m.insert k v).entries := by
  obtain ⟨l, hl⟩ := m
  simp only [insert] at h ⊢
  clear hl
  induction l with
  | nil => cases h
  | cons e es ih =>
    simp only [insertList]
    split
    · exact mem_cons_of_mem _ h
    split
    · rename_i hk
      rcases mem_cons.mp h with rfl | h
      · exact absurd hk.symm hne
      · exact mem_cons_of_mem _ h
    · rcases mem_cons.mp h with rfl | h
      · exact mem_cons_self
      · exact mem_cons_of_mem _ (ih h)

lemma mem_insert (hk : ∀ e ∈ m.entries, e.1 ≠ k) :
    x ∈ (m.insert k v).entries ↔ x = (k, v) ∨ x ∈ m.entries := by
  refine ⟨mem_insertList_of_mem, ?_⟩
  rintro (rfl | hx)
  · exact mem_insert_self m k v
  · exact mem_insert_of_mem (hk x hx) hx

/-- An entry is the new one, or an old one with another key. -/
lemma eq_or_mem_of_mem_insert (h : x ∈ (m.insert k v).entries) :
    x = (k, v) ∨ x.1 ≠ k ∧ x ∈ m.entries := by
  by_cases hk : x.1 = k
  · exact .inl (eq_of_key_eq h (mem_insert_self m k v) hk)
  · refine (mem_insertList_of_mem h).imp_right fun hx => ⟨hk, hx⟩

lemma entries_insert_of_lt (m : BTreeMap κ β) (v : β) (h : ∀ e ∈ m.entries, e.1 < k) :
    (m.insert k v).entries = m.entries ++ [(k, v)] := by
  obtain ⟨l, hl⟩ := m
  simp only [insert] at h ⊢
  clear hl
  induction l with
  | nil => rfl
  | cons e es ih =>
    have he := h e mem_cons_self
    rw [insertList, if_neg (not_lt.mpr he.le), if_neg (ne_of_gt he),
      ih (forall_mem_cons.mp h).2, cons_append]

lemma get_of_mem (h : (k, v) ∈ m.entries) : m.get k = some v := by
  unfold get
  cases hf : m.entries.find? fun e => e.1 = k with
  | none => exact absurd (by simp) (find?_eq_none.mp hf (k, v) h)
  | some e =>
    have hk : e.1 = k := by simpa using find?_some hf
    rw [eq_of_key_eq (mem_of_find?_eq_some hf) h hk, Option.map_some]

lemma mem_of_get (h : m.get k = some v) : (k, v) ∈ m.entries := by
  obtain ⟨e, he, rfl⟩ := Option.map_eq_some_iff.mp h
  have hk : e.1 = k := by simpa using find?_some he
  rw [← hk]
  exact mem_of_find?_eq_some he

lemma get_eq_none : m.get k = none ↔ ∀ e ∈ m.entries, e.1 ≠ k := by
  constructor
  · intro h e he hk
    subst hk
    rw [get_of_mem he] at h
    cases h
  · intro h
    rw [Option.eq_none_iff_forall_ne_some]
    intro v hv
    exact h _ (mem_of_get hv) rfl

lemma perm_insert (v : β) (h : m.get k = none) :
    (m.insert k v).entries.Perm ((k, v) :: m.entries) := by
  have hk := get_eq_none.mp h
  have hn : ((k, v) :: m.entries).Nodup := by
    refine nodup_cons.mpr ⟨fun hm => hk _ hm rfl, ?_⟩
    exact m.nodup_keys.of_map
  rw [perm_ext_iff_of_nodup (m.insert k v).nodup_keys.of_map hn]
  intro e
  rw [mem_insert hk, mem_cons]

lemma get_insert (m : BTreeMap κ β) (k : κ) (v : β) (key : κ) :
    (m.insert k v).get key = if key = k then some v else m.get key := by
  split
  all_goals rename_i hk
  · rw [hk]
    exact get_of_mem (mem_insert_self m k v)
  · cases hg : m.get key with
    | none =>
      refine get_eq_none.mpr fun e he hek => ?_
      rcases eq_or_mem_of_mem_insert he with rfl | ⟨-, ho⟩
      · exact hk hek.symm
      · exact get_eq_none.mp hg e ho hek
    | some w => exact get_of_mem (mem_insert_of_mem hk (mem_of_get hg))

lemma get_insert_eq_some {w : β} :
    (m.insert k v).get key = some w ↔ key = k ∧ v = w ∨ key ≠ k ∧ m.get key = some w := by
  rw [get_insert]
  split <;> simp_all

/-- A relation between the entries in order goes over to a new entry. -/
lemma pairwise_insert {R : κ × β → κ × β → Prop} (h : m.entries.Pairwise R)
    (hlt : ∀ e ∈ m.entries, e.1 < k → R e (k, v)) (hgt : ∀ e ∈ m.entries, k < e.1 → R (k, v) e) :
    (m.insert k v).entries.Pairwise R := by
  have ho : ∀ a ∈ m.entries, ∀ b ∈ m.entries, a.1 < b.1 → R a b := by
    intro a ha b hb hab
    obtain ⟨i, hi, rfl⟩ := mem_iff_getElem.mp ha
    obtain ⟨j, hj, rfl⟩ := mem_iff_getElem.mp hb
    rcases lt_trichotomy i j with hij | rfl | hji
    · exact pairwise_iff_getElem.mp h i j hi hj hij
    · exact absurd hab (lt_irrefl _)
    · exact absurd hab (lt_asymm (pairwise_iff_getElem.mp m.sorted j i hj hi hji))
  refine (m.insert k v).sorted.imp_of_mem fun {a b} ha hb hab => ?_
  rcases eq_or_mem_of_mem_insert ha with rfl | ⟨-, ha⟩
  · rcases eq_or_mem_of_mem_insert hb with rfl | ⟨-, hb⟩
    · exact absurd hab (lt_irrefl _)
    · exact hgt b hb hab
  · rcases eq_or_mem_of_mem_insert hb with rfl | ⟨-, hb⟩
    · exact hlt a ha hab
    · exact ho a ha b hb hab

lemma rel_getLast {α : Type} {R : α → α → Prop} {l : List α} {a b : α} (h : l.Pairwise R)
    (hl : l.getLast? = some b) (ha : a ∈ l) : a = b ∨ R a b := by
  obtain ⟨l', rfl⟩ := getLast?_eq_some_iff.mp hl
  rcases mem_append.mp ha with ha | ha
  · exact .inr ((pairwise_append.mp h).2.2 a ha b (mem_singleton_self b))
  · exact .inl (mem_singleton.mp ha)

@[simp] lemma mem_remove : x ∈ (m.remove k).entries ↔ x ∈ m.entries ∧ x.1 ≠ k := by
  simp [remove]

lemma get_remove (m : BTreeMap κ β) (k key : κ) :
    (m.remove k).get key = if key = k then none else m.get key := by
  split
  all_goals rename_i hk
  · rw [get_eq_none]
    intro e he
    rw [hk]
    exact (mem_remove.mp he).2
  · cases hg : m.get key with
    | none =>
      rw [get_eq_none] at hg ⊢
      exact fun e he => hg e (mem_remove.mp he).1
    | some w => exact get_of_mem (mem_remove.mpr ⟨mem_of_get hg, hk⟩)

lemma get_remove_eq_some : (m.remove k).get key = some v ↔ key ≠ k ∧ m.get key = some v := by
  rw [get_remove]
  split <;> simp_all

lemma contains_iff : m.contains k = true ↔ ∃ v, m.get k = some v := by
  constructor
  · intro h
    obtain ⟨e, he, hk⟩ := any_eq_true.mp h
    refine ⟨e.2, get_of_mem ?_⟩
    rw [← of_decide_eq_true hk]
    exact he
  · rintro ⟨v, hv⟩
    exact any_eq_true.mpr ⟨(k, v), mem_of_get hv, decide_eq_true rfl⟩

lemma contains_eq_false_iff : m.contains k = false ↔ m.get k = none := by
  rw [← Bool.not_eq_true, contains_iff, Option.eq_none_iff_forall_ne_some, not_exists]

@[simp] lemma mem_below {hi : κ} : x ∈ m.below hi ↔ x ∈ m.entries ∧ x.1 < hi := by
  simp [below]

lemma below_reverse_sorted (m : BTreeMap κ β) (hi : κ) :
    (m.below hi).reverse.Pairwise fun a b => b.1 < a.1 :=
  pairwise_reverse.mpr (m.sorted.sublist filter_sublist)

end BTreeMap

end GunyahVmm
