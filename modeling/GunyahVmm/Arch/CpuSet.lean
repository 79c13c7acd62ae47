import GunyahVmm.Lib.Arith
import Mathlib.Data.List.Range

/-! Sets of CPU indices (`arch/src/lib.rs`), written as sequences of integers and texts `a-b`. -/

namespace GunyahVmm.Arch
open Run Run.Outcome List

inductive CpuSetValue where
  | single (cpu : Nat)
  | range (text : List Char)

/-- A decimal `usize`, possibly with a `+` in front. -/
def parseCpu (s : List Char) : Outcome String Nat :=
  let digits := if s.head? = some '+' then s.drop 1 else s
  if digits ≠ [] ∧ digits.all Char.isDigit ∧ Nat.ofDigitChars 10 digits 0 < u64Size then
    .ok (Nat.ofDigitChars 10 digits 0)
  else
    .err ("invalid CPU index " ++ String.ofList s ++ " - index must be a non-negative integer")

/-- The texts before and after the first separator. -/
def splitOnce (s : List Char) (sep : Char) : Option (List Char × List Char) :=
  if sep ∈ s then some (s.takeWhile (· ≠ sep), (s.dropWhile (· ≠ sep)).tail) else none

def parseCpuRange (s : List Char) (cpuset : List Nat) : Outcome String (List Nat) := do
  let (firstCpu, lastCpu) ←
    match splitOnce s '-' with
    | some (firstCpu, lastCpu) => do
      let firstCpu ← parseCpu firstCpu
      let lastCpu ← parseCpu lastCpu
      if lastCpu < firstCpu then
        .err ("invalid CPU range " ++ String.ofList s ++ " - ranges must be from low to high")
      else .ok (firstCpu, lastCpu)
    | none => do
      let cpu ← parseCpu s
      .ok (cpu, cpu)
  .ok (cpuset ++ range' firstCpu (lastCpu + 1 - firstCpu))

def visitValue (cpus : List Nat) : CpuSetValue → Outcome String (List Nat)
  | .single cpu => .ok (cpus ++ [cpu])
  | .range text => parseCpuRange text cpus

def deserialize (seq : List CpuSetValue) : Outcome String (List Nat) := seq.foldlM visitValue []

def serializeRange (start stop : Nat) : CpuSetValue :=
  if start = stop then .single start
  else .range (Nat.toDigits 10 start ++ '-' :: Nat.toDigits 10 stop)

/-- One turn of the loop: what was written so far, and the current range. -/
def serializeCore (st : List CpuSetValue × Option (Nat × Nat)) (core : Nat) :
    Outcome String (List CpuSetValue × Option (Nat × Nat)) :=
  match st.2 with
  | none => .ok (st.1, some (core, core))
  | some (start, stop) => do
    -- the guard of the second arm is evaluated whatever the core is
    let before ← subU64 core 1
    if stop = before then .ok (st.1, some (start, core))
    else .ok (st.1 ++ [serializeRange start stop], some (core, core))

def serialize (cpus : List Nat) : Outcome String (List CpuSetValue) := do
  let (seq, range) ← cpus.foldlM serializeCore ([], none)
  .ok (seq ++ (range.map fun r => serializeRange r.1 r.2).toList)

/-! ## Reading back one element -/

instance {ε : Type} : LawfulMonad (Outcome ε) :=
  LawfulMonad.mk' _ (by rintro _ (_ | _ | _) <;> rfl) (fun _ _ => rfl)
    (by rintro _ _ _ (_ | _ | _) _ _ <;> rfl)

variable {seq : List CpuSetValue} {cpus l : List Nat} {a b n : Nat}

lemma parseCpu_toDigits (hn : n < u64Size) : parseCpu (Nat.toDigits 10 n) = .ok n := by
  have hd : ∀ c ∈ Nat.toDigits 10 n, c.isDigit = true := fun c hc =>
    Nat.isDigit_of_mem_toDigits (by decide) (by decide) hc
  have hp : (Nat.toDigits 10 n).head? ≠ some '+' := by
    intro h
    exact absurd (hd '+' (mem_of_mem_head? h)) (by decide)
  simp only [parseCpu, if_neg hp]
  rw [if_pos ⟨Nat.toDigits_ne_nil, all_eq_true.mpr hd, by simpa using hn⟩]
  simp

lemma splitOnce_toDigits (s : List Char) :
    splitOnce (Nat.toDigits 10 n ++ '-' :: s) '-' = some (Nat.toDigits 10 n, s) := by
  have hd : ∀ c ∈ Nat.toDigits 10 n, decide (c ≠ '-') = true := by
    intro c hc
    have hc := Nat.isDigit_of_mem_toDigits (by decide) (by decide) hc
    exact decide_eq_true fun h => absurd (h ▸ hc) (by decide)
  rw [splitOnce, if_pos (by simp), takeWhile_append_of_pos hd, dropWhile_append_of_pos hd]
  simp

lemma visitValue_serializeRange (h : a ≤ b) (hb : b < u64Size) :
    visitValue l (serializeRange a b) = .ok (l ++ range' a (b + 1 - a)) := by
  unfold serializeRange
  split
  case isTrue h =>
    subst h
    simp [visitValue]
  case isFalse =>
    simp only [visitValue, parseCpuRange, splitOnce_toDigits, parseCpu_toDigits hb,
      parseCpu_toDigits (h.trans_lt hb), ok_bind, if_neg (Nat.not_lt.mpr h)]

lemma deserialize_append (hs : deserialize seq = .ok l) (h : a ≤ b) (hb : b < u64Size) :
    deserialize (seq ++ [serializeRange a b]) = .ok (l ++ range' a (b + 1 - a)) := by
  unfold deserialize at hs ⊢
  rw [foldlM_append, hs, ok_bind, foldlM_cons, visitValue_serializeRange h hb]
  rfl

/-! ## The loop -/

/-- **Loop.** What was written and the current range stand for the cores so far. -/
lemma foldlM_serializeCore (cpus : List Nat) : ∀ {seq l a b}, deserialize seq = .ok l → a ≤ b →
    b < u64Size → (∀ c ∈ cpus, 0 < c ∧ c < u64Size) →
    ∃ seq' r, cpus.foldlM serializeCore (seq, some (a, b)) = .ok (seq', some r) ∧
      deserialize (seq' ++ [serializeRange r.1 r.2]) = .ok (l ++ range' a (b + 1 - a) ++ cpus) := by
  induction cpus with
  | nil =>
    intro seq l a b hs h hb _
    rw [append_nil]
    exact ⟨seq, (a, b), rfl, deserialize_append hs h hb⟩
  | cons c cpus ih =>
    intro seq l a b hs h hb hc
    obtain ⟨⟨h0, hlt⟩, hc⟩ := forall_mem_cons.mp hc
    rw [foldlM_cons, serializeCore, subU64_of_le h0]
    by_cases heq : b = c - 1
    · obtain ⟨seq', r, hr, hd⟩ := ih hs (by omega : a ≤ c) hlt hc
      refine ⟨seq', r, by simpa [heq] using hr, hd.trans ?_⟩
      rw [show c + 1 - a = (b + 1 - a) + 1 by omega, range'_concat]
      simp [show a + (b + 1 - a) = c by omega]
    · obtain ⟨seq', r, hr, hd⟩ := ih (deserialize_append hs h hb) le_rfl hlt hc
      refine ⟨seq', r, by simpa [heq] using hr, hd.trans ?_⟩
      simp

/-- With a current range, the loop aborts at the first core 0. -/
lemma foldlM_serializeCore_zero (h : 0 ∈ cpus) (seq : List CpuSetValue) (r : Nat × Nat) :
    cpus.foldlM serializeCore (seq, some r) = .panic := by
  induction cpus generalizing seq r with
  | nil => cases h
  | cons c cpus ih =>
    rw [foldlM_cons, serializeCore]
    by_cases hc : c = 0
    · subst hc
      rfl
    have hm : 0 ∈ cpus := (mem_cons.mp h).resolve_left (Ne.symm hc)
    simp only [subU64_of_le (Nat.pos_of_ne_zero hc), ok_bind]
    split <;> exact ih hm _ _

/-- **Round trip.** A list is read back exactly if the core 0 stands nowhere but in front. -/
theorem deserialize_serialize_iff (h : ∀ c ∈ cpus, c < u64Size) :
    (serialize cpus >>= deserialize) = .ok cpus ↔ 0 ∉ cpus.tail := by
  cases cpus with
  | nil => exact iff_of_true rfl not_mem_nil
  | cons c cpus =>
    obtain ⟨hlt, h⟩ := forall_mem_cons.mp h
    rw [serialize, foldlM_cons, serializeCore, ok_bind, tail_cons]
    constructor
    · intro hr h0
      rw [foldlM_serializeCore_zero h0] at hr
      cases hr
    · intro h0
      have hs : deserialize [] = .ok [] := rfl
      obtain ⟨seq, r, hr, hd⟩ := foldlM_serializeCore cpus hs le_rfl hlt fun d hd =>
        ⟨Nat.pos_of_ne_zero fun he => h0 (he ▸ hd), h d hd⟩
      rw [hr]
      simpa using hd

theorem deserialize_serialize_iff_unsorted :
    (serialize [0, 1, 2, 7, 5, 5, 6] >>= deserialize) = .ok [0, 1, 2, 7, 5, 5, 6] :=
  (deserialize_serialize_iff (by decide)).mpr (by decide)

/-- The loop subtracts from the index 0. -/
theorem serialize_aborts : serialize [1, 0] = .panic := rfl

end GunyahVmm.Arch
