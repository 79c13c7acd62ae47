import Mathlib.Data.List.Basic

/-! Pathnames as lists of components over any alphabet with a separator and a dot. Empty and
single-dot components say nothing, and a double dot drops the last one kept.

`resolveFrom` reads on from the middle of a component. -/

namespace GunyahVmm.PathComponents
open List

/-- The components kept so far, and whether a double dot had nothing to drop. -/
structure Resolved (α : Type) where
  kept : List (List α)
  escaped : Bool

section Texts
variable {α : Type} (sep dot : α)

/-- The text of a directory, every component followed by a separator. -/
def directoryText (kept : List (List α)) : List α := sep :: kept.flatMap (· ++ [sep])

/-- The text of a path without a separator at its end, the root apart. -/
def pathText : List (List α) → List α
  | [] => [sep]
  | c :: kept => (c :: kept).flatMap (sep :: ·)

structure Plain (c : List α) : Prop where
  ne_nil : c ≠ []
  ne_dot : c ≠ [dot]
  ne_dotDot : c ≠ [dot, dot]
  sep_notMem : sep ∉ c

variable {sep dot}
variable {kept : List (List α)}

@[simp] lemma directoryText_nil : directoryText sep [] = [sep] := rfl

lemma directoryText_concat (sep : α) (kept : List (List α)) (c : List α) :
    directoryText sep (kept ++ [c]) = directoryText sep kept ++ c ++ [sep] := by
  simp [directoryText]

lemma pathText_of_ne_nil (h : kept ≠ []) : pathText sep kept = kept.flatMap (sep :: ·) := by
  cases kept with
  | nil => contradiction
  | cons c kept => rfl

lemma directoryText_eq (h : kept ≠ []) : directoryText sep kept = pathText sep kept ++ [sep] := by
  rw [pathText_of_ne_nil h]
  clear h
  induction kept with
  | nil => rfl
  | cons c kept ih =>
    simp only [directoryText, flatMap_cons] at ih ⊢
    simp [ih]

lemma pathText_concat (kept : List (List α)) (c : List α) :
    pathText sep (kept ++ [c]) = directoryText sep kept ++ c := by
  have h := directoryText_concat sep kept c
  rw [directoryText_eq (by simp)] at h
  exact append_cancel_right h

lemma pathText_head? (sep : α) (kept : List (List α)) : (pathText sep kept).head? = some sep := by
  cases kept <;> rfl

lemma pathText_getLast? (h : ∀ c ∈ kept, Plain sep dot c)
    (hl : (pathText sep kept).getLast? = some sep) : pathText sep kept = [sep] := by
  rcases eq_nil_or_concat' kept with rfl | ⟨init, c, rfl⟩
  · rfl
  have hc := h c (by simp)
  rw [pathText_of_ne_nil (by simp), flatMap_append, flatMap_singleton,
    getLast?_append_cons, getLast?_cons,
    getLast?_eq_some_getLast hc.ne_nil, Option.getD_some] at hl
  have hm := getLast_mem hc.ne_nil
  rw [Option.some.inj hl] at hm
  exact absurd hm hc.sep_notMem

lemma splitOn_pathText [DecidableEq α] (h : ∀ c ∈ kept, Plain sep dot c) (hne : kept ≠ []) :
    (pathText sep kept).splitOn sep = [] :: kept := by
  have hj : kept.flatMap (sep :: ·) = [sep].intercalate ([] :: kept) := by
    clear h hne
    induction kept with
    | nil => rfl
    | cons c kept ih =>
      rw [flatMap_cons, ih]
      cases kept <;> simp [intercalate]
  rw [pathText_of_ne_nil hne, hj]
  refine splitOn_intercalate sep ?_ (by simp)
  exact forall_mem_cons.mpr ⟨by simp, fun c hc => (h c hc).sep_notMem⟩

lemma Plain.of_ne {c : List α} (h1 : ¬ (c = [] ∨ c = [dot])) (h2 : c ≠ [dot, dot])
    (h3 : sep ∉ c) : Plain sep dot c where
  ne_nil := fun h => h1 (.inl h)
  ne_dot := fun h => h1 (.inr h)
  ne_dotDot := h2
  sep_notMem := h3

end Texts

section Resolve
variable {α : Type} [DecidableEq α] (sep dot : α)

def resolve (r : Resolved α) (c : List α) : Resolved α :=
  if c = [] ∨ c = [dot] then r
  else if c = [dot, dot] then
    if r.kept.isEmpty then { r with escaped := true } else { r with kept := r.kept.dropLast }
  else { r with kept := r.kept ++ [c] }

/-- **What a path denotes**: the components that are left once all of them are read. -/
def resolvePath (p : List α) : Resolved α := (p.splitOn sep).foldl (resolve dot) ⟨[], false⟩

/-- Read the rest of a path, `cur` being what was read of the current component. -/
def resolveFrom (r : Resolved α) (cur p : List α) : Resolved α :=
  ((p.splitOn sep).modifyHead (cur ++ ·)).foldl (resolve dot) r

variable {sep dot} {r : Resolved α} {cur p : List α}
variable {P : α → Prop}

lemma resolvePath_eq : resolvePath sep dot p = resolveFrom sep dot ⟨[], false⟩ [] p := by
  have hid : (([] : List α) ++ ·) = id := by
    funext l
    rfl
  unfold resolvePath resolveFrom
  rw [hid]
  cases p.splitOn sep <;> rfl

lemma resolveFrom_nil : resolveFrom sep dot r cur [] = resolve dot r cur := by
  simp [resolveFrom]

lemma resolveFrom_sep :
    resolveFrom sep dot r cur (sep :: p) = resolveFrom sep dot (resolve dot r cur) [] p := by
  have hs : (sep :: p).splitOn sep = [] :: p.splitOn sep := by
    simp [splitOn_eq_splitOnP, splitOnP_cons_eq_if_modifyHead]
  have hid : (([] : List α) ++ ·) = id := by
    funext l
    rfl
  unfold resolveFrom
  rw [hs, hid, modifyHead_cons, append_nil, foldl_cons]
  cases p.splitOn sep <;> rfl

lemma resolveFrom_char {c : α} (h : c ≠ sep) :
    resolveFrom sep dot r cur (c :: p) = resolveFrom sep dot r (cur ++ [c]) p := by
  have hs : (c :: p).splitOn sep = (p.splitOn sep).modifyHead (cons c) := by
    simp [splitOn_eq_splitOnP, splitOnP_cons_eq_if_modifyHead, h]
  unfold resolveFrom
  rw [hs, modifyHead_modifyHead]
  congr 2
  funext l
  simp

/-! ## The components kept -/

section
variable (hr : ∀ c ∈ r.kept, Plain sep dot c) (hcur : sep ∉ cur)
include hr hcur

lemma resolve_plain : ∀ c ∈ (resolve dot r cur).kept, Plain sep dot c := by
  unfold resolve
  split
  · exact hr
  split
  · split
    · exact hr
    · exact fun c hc => hr c (dropLast_subset _ hc)
  · rename_i h1 h2
    exact forall_mem_append.mpr ⟨hr, forall_mem_singleton.mpr (Plain.of_ne h1 h2 hcur)⟩

lemma resolveFrom_plain : ∀ c ∈ (resolveFrom sep dot r cur p).kept, Plain sep dot c := by
  induction p generalizing r cur with
  | nil =>
    rw [resolveFrom_nil]
    exact resolve_plain hr hcur
  | cons a p ih =>
    by_cases ha : a = sep
    · subst ha
      rw [resolveFrom_sep]
      exact ih (resolve_plain hr hcur) not_mem_nil
    · rw [resolveFrom_char ha]
      refine ih hr ?_
      simp [hcur, Ne.symm ha]

end

section
variable (hr : ∀ c ∈ r.kept, ∀ a ∈ c, P a) (hcur : ∀ a ∈ cur, P a)
include hr hcur

/-- What holds of the characters of a path holds of the characters kept of it. -/
lemma resolve_chars : ∀ c ∈ (resolve dot r cur).kept, ∀ a ∈ c, P a := by
  unfold resolve
  split
  · exact hr
  split
  · split
    · exact hr
    · exact fun c hc => hr c (dropLast_subset _ hc)
  · exact forall_mem_append.mpr ⟨hr, forall_mem_singleton.mpr hcur⟩

lemma resolveFrom_chars
    (hp : ∀ a ∈ p, P a) : ∀ c ∈ (resolveFrom sep dot r cur p).kept, ∀ a ∈ c, P a := by
  induction p generalizing r cur with
  | nil =>
    rw [resolveFrom_nil]
    exact resolve_chars hr hcur
  | cons a p ih =>
    obtain ⟨ha, hp⟩ := forall_mem_cons.mp hp
    by_cases hs : a = sep
    · subst hs
      rw [resolveFrom_sep]
      exact ih (resolve_chars hr hcur) (fun b hb => by cases hb) hp
    · rw [resolveFrom_char hs]
      exact ih hr (forall_mem_append.mpr ⟨hcur, forall_mem_singleton.mpr ha⟩) hp

end

lemma resolvePath_chars (sep dot : α) (hp : ∀ a ∈ p, P a) :
    ∀ c ∈ (resolvePath sep dot p).kept, ∀ a ∈ c, P a := by
  rw [resolvePath_eq]
  exact resolveFrom_chars (fun c hc => by cases hc) (fun a ha => by cases ha) hp

lemma resolvePath_plain (sep dot : α) (p : List α) :
    ∀ c ∈ (resolvePath sep dot p).kept, Plain sep dot c := by
  rw [resolvePath_eq]
  exact resolveFrom_plain (fun c hc => by cases hc) not_mem_nil

end Resolve

end GunyahVmm.PathComponents
