import Mathlib.Data.List.Nodup

/-! Maps that remember the order in which their keys were first inserted. -/

namespace GunyahVmm
open List

/-- A map whose entries stand in the order of insertion. -/
structure IndexMap (κ β : Type) where
  entries : List (κ × β)
  nodup : (entries.map Prod.fst).Nodup

namespace IndexMap
variable {κ β : Type} [DecidableEq κ] {l : List (κ × β)}

def empty : IndexMap κ β := ⟨[], .nil⟩

/-- The value of a key that is there is replaced; a new key comes last. -/
def insertList (k : κ) (v : β) : List (κ × β) → List (κ × β)
  | [] => [(k, v)]
  | e :: es => if e.1 = k then (k, v) :: es else e :: insertList k v es

lemma keys_insertList (k : κ) (v : β) (l : List (κ × β)) :
    (insertList k v l).map Prod.fst =
      if k ∈ l.map Prod.fst then l.map Prod.fst else l.map Prod.fst ++ [k] := by
  induction l with
  | nil => simp [insertList]
  | cons e es ih =>
    by_cases he : e.1 = k
    · simp [insertList, he]
    · simp only [insertList, if_neg he, map_cons, ih, mem_cons, Ne.symm he, false_or]
      split <;> rfl

lemma nodup_keys_insertList {k : κ} {v : β} (h : (l.map Prod.fst).Nodup) :
    ((insertList k v l).map Prod.fst).Nodup := by
  rw [keys_insertList]
  split
  · exact h
  rename_i hk
  exact nodup_append.mpr ⟨h, nodup_singleton k, by
    rintro a ha _ hb rfl
    exact hk (mem_singleton.mp hb ▸ ha)⟩

section
variable (m : IndexMap κ β)

def insert (k : κ) (v : β) : IndexMap κ β :=
  ⟨insertList k v m.entries, nodup_keys_insertList m.nodup⟩

def get (k : κ) : Option β := (m.entries.find? fun e => e.1 = k).map Prod.snd

def contains (k : κ) : Bool := m.entries.any fun e => e.1 = k

def keys : List κ := m.entries.map Prod.fst

end

variable {m : IndexMap κ β} {k : κ} {v : β}

lemma mem_insertList {x : κ × β} (h : x ∈ insertList k v l) : x = (k, v) ∨ x ∈ l := by
  induction l with
  | nil => simpa [insertList] using h
  | cons e es ih =>
    simp only [insertList] at h
    split at h
    · rcases mem_cons.mp h with h | h
      · exact .inl h
      · exact .inr (mem_cons_of_mem _ h)
    · rcases mem_cons.mp h with rfl | h
      · exact .inr mem_cons_self
      · exact (ih h).imp_right (mem_cons_of_mem _)

lemma mem_insert {x : κ × β} (h : x ∈ (m.insert k v).entries) : x = (k, v) ∨ x ∈ m.entries :=
  mem_insertList h

lemma insertList_of_not_mem (h : k ∉ l.map Prod.fst) : insertList k v l = l ++ [(k, v)] := by
  induction l with
  | nil => rfl
  | cons e es ih =>
    simp only [map_cons, mem_cons, not_or] at h
    rw [insertList, if_neg (Ne.symm h.1), ih h.2, cons_append]

lemma mem_of_get (h : m.get k = some v) : (k, v) ∈ m.entries := by
  obtain ⟨e, he, rfl⟩ := Option.map_eq_some_iff.mp h
  have hk : e.1 = k := by simpa using find?_some he
  rw [← hk]
  exact mem_of_find?_eq_some he

end IndexMap

end GunyahVmm
