import Mathlib.Data.Nat.Basic

/-! First fit in one pass: the run restarts after a used place and stops when it is long enough. -/

namespace GunyahVmm.FirstFit

/-- `n` free places from `s` on, below `total`. A request for none still needs a free one. -/
structure FreeRun (used : Nat → Bool) (total n s : Nat) : Prop where
  le : s + max n 1 ≤ total
  free : ∀ p, s ≤ p → p < s + max n 1 → used p = false

/-- The pass over the last `remaining` places, from place `i` on. -/
def scan (used : Nat → Bool) (n : Nat) : (remaining i runStart runLen : Nat) → Option Nat
  | 0, _, _, _ => none
  | remaining + 1, i, runStart, runLen =>
    if used i then scan used n remaining (i + 1) (i + 1) 0
    else if runLen + 1 ≥ n then some runStart
    else scan used n remaining (i + 1) runStart (runLen + 1)

/-- What a pass may return: the lowest free run, or nothing when there is none. -/
def IsFirst (used : Nat → Bool) (total n : Nat) : Option Nat → Prop
  | none => ∀ s, ¬ FreeRun used total n s
  | some s => FreeRun used total n s ∧ ∀ s' < s, ¬ FreeRun used total n s'

variable {used : Nat → Bool} {total n : Nat}

/-- No free run starts at or before a used place that the current run, still too
short, reaches. -/
lemma not_freeRun_of_used {i runStart runLen : Nat} (hr : runStart + runLen = i)
    (hsh : runLen < max n 1) (hu : used i = true)
    (hn : ∀ s < runStart, ¬ FreeRun used total n s) : ∀ s < i + 1, ¬ FreeRun used total n s := by
  intro s hs hf
  by_cases hl : s < runStart
  · exact hn s hl hf
  have hi := hf.free i (by omega) (by omega)
  rw [hu] at hi
  contradiction

/-- The lowest run is found. Before `i` the current run is free and short, and none starts earlier.
-/
lemma scan_isFirst :
    ∀ remaining i runStart runLen, i + remaining = total → runStart + runLen = i →
      runLen < max n 1 → (∀ p, runStart ≤ p → p < i → used p = false) →
      (∀ s < runStart, ¬ FreeRun used total n s) →
      IsFirst used total n (scan used n remaining i runStart runLen) := by
  intro remaining
  induction remaining with
  | zero =>
    intro i runStart runLen ht hr hs _ hn s hf
    have hle := hf.le
    exact hn s (by omega) hf
  | succ remaining ih =>
    intro i runStart runLen ht hr hs hf hn
    rw [scan]
    cases hu : used i with
    | true =>
      exact ih (i + 1) (i + 1) 0 (by omega) rfl (by omega) (fun p h1 h2 => by omega)
        (not_freeRun_of_used hr hs hu hn)
    | false =>
      have hf' : ∀ p, runStart ≤ p → p < i + 1 → used p = false := by
        intro p h1 h2
        by_cases hp : p = i
        · rw [hp, hu]
        · exact hf p h1 (by omega)
      simp only [Bool.false_eq_true, ↓reduceIte]
      split_ifs with hl
      · exact ⟨⟨by omega, fun p h1 h2 => hf' p h1 (by omega)⟩, hn⟩
      · exact ih (i + 1) runStart (runLen + 1) (by omega) (by omega) (by omega) hf' hn

def firstFit (used : Nat → Bool) (total n : Nat) : Option Nat := scan used n total 0 0 0

lemma firstFit_isFirst (used : Nat → Bool) (total n : Nat) :
    IsFirst used total n (firstFit used total n) :=
  scan_isFirst total 0 0 0 (by omega) rfl (by omega) (fun p _ h => by omega)
    (fun s h => by omega)

lemma firstFit_eq_some {s : Nat} (h : FreeRun used total n s)
    (hl : ∀ s' < s, ¬ FreeRun used total n s') : firstFit used total n = some s := by
  have hf := firstFit_isFirst used total n
  cases hr : firstFit used total n with
  | none =>
    rw [hr] at hf
    exact absurd h (hf s)
  | some s' =>
    rw [hr] at hf
    obtain ⟨hrun, hm⟩ := hf
    have h1 : ¬ s < s' := fun hlt => hm s hlt h
    have h2 : ¬ s' < s := fun hlt => hl s' hlt hrun
    rw [show s' = s by omega]

end GunyahVmm.FirstFit
