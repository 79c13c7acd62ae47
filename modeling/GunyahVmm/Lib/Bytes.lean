import Mathlib.Data.BitVec

/-! Plain data as bytes. Any bytes are a value, so a reader of foreign memory gets some value. -/

namespace GunyahVmm
section
variable (b : Nat → BitVec 8) (k : Nat)

/-- Little-endian integers from the bytes at an offset. -/
def le16 : BitVec 16 := b (k + 1) ++ b k

def le32 : BitVec 32 := le16 b (k + 2) ++ le16 b k

def le64 : BitVec 64 := le32 b (k + 4) ++ le32 b k

end

/-- The bytes of an integer, the lowest first. -/
def leBytes16 (v : BitVec 16) : List (BitVec 8) := [v.extractLsb' 0 8, v.extractLsb' 8 8]

def leBytes32 (v : BitVec 32) : List (BitVec 8) :=
  leBytes16 (v.extractLsb' 0 16) ++ leBytes16 (v.extractLsb' 16 16)

def leBytes64 (v : BitVec 64) : List (BitVec 8) :=
  leBytes32 (v.extractLsb' 0 32) ++ leBytes32 (v.extractLsb' 32 32)

def ofBe16 (a b : BitVec 8) : BitVec 16 := a ++ b

def ofBe32 (a b c d : BitVec 8) : BitVec 32 := ofBe16 a b ++ ofBe16 c d

/-- The bytes of an integer, the highest first. -/
def beBytes16 (v : BitVec 16) : List (BitVec 8) := [v.extractLsb' 8 8, v.extractLsb' 0 8]

def beBytes32 (v : BitVec 32) : List (BitVec 8) :=
  beBytes16 (v.extractLsb' 16 16) ++ beBytes16 (v.extractLsb' 0 16)

def beBytes64 (v : BitVec 64) : List (BitVec 8) :=
  beBytes32 (v.extractLsb' 32 32) ++ beBytes32 (v.extractLsb' 0 32)

lemma ofBe16_extract (v : BitVec 16) : ofBe16 (v.extractLsb' 8 8) (v.extractLsb' 0 8) = v := by
  unfold ofBe16
  rw [BitVec.extractLsb'_append_extractLsb'_eq_extractLsb' (by rfl)]
  exact BitVec.extractLsb'_eq_self

variable (v : BitVec 64)

lemma le64_leBytes64 (rest : List (BitVec 8)) :
    le64 (fun i => (leBytes64 v ++ rest).getD i 0) 0 = v := by
  have h16 (w : BitVec 16) : w.extractLsb' 8 8 ++ w.extractLsb' 0 8 = w := ofBe16_extract w
  have h32 (w : BitVec 32) : w.extractLsb' 16 16 ++ w.extractLsb' 0 16 = w := by
    rw [BitVec.extractLsb'_append_extractLsb'_eq_extractLsb' (by rfl)]
    exact BitVec.extractLsb'_eq_self
  have h64 : v.extractLsb' 32 32 ++ v.extractLsb' 0 32 = v := by
    rw [BitVec.extractLsb'_append_extractLsb'_eq_extractLsb' (by rfl)]
    exact BitVec.extractLsb'_eq_self
  simp only [le64, le32, le16, leBytes64, leBytes32, leBytes16, List.cons_append, List.nil_append,
    List.getD_cons_zero, List.getD_cons_succ, Nat.zero_add, Nat.reduceAdd]
  rw [h16, h16, h16, h16, h32, h32, h64]

lemma exists_beBytes32 (v : BitVec 32) :
    ∃ a b c d, beBytes32 v = [a, b, c, d] ∧ ofBe32 a b c d = v := by
  refine ⟨_, _, _, _, rfl, ?_⟩
  unfold ofBe32
  rw [ofBe16_extract, ofBe16_extract,
    BitVec.extractLsb'_append_extractLsb'_eq_extractLsb' (by rfl)]
  exact BitVec.extractLsb'_eq_self

@[simp] lemma length_leBytes16 (v : BitVec 16) : (leBytes16 v).length = 2 := rfl

@[simp] lemma length_leBytes32 (v : BitVec 32) : (leBytes32 v).length = 4 := rfl

@[simp] lemma length_leBytes64 : (leBytes64 v).length = 8 := rfl

@[simp] lemma length_beBytes32 (v : BitVec 32) : (beBytes32 v).length = 4 := rfl

@[simp] lemma length_beBytes64 : (beBytes64 v).length = 8 := rfl

/-- A type whose values are read from `size` bytes. -/
class FromBytes (α : Type) where
  size : Nat
  fromBytes : (Nat → BitVec 8) → α

/-- A type whose values are written as bytes. -/
class IntoBytes (α : Type) where
  asBytes : α → List (BitVec 8)

instance : FromBytes (BitVec 16) where
  size := 2
  fromBytes b := le16 b 0

instance : IntoBytes (BitVec 16) where
  asBytes := leBytes16

instance : IntoBytes (BitVec 32) where
  asBytes := leBytes32

end GunyahVmm
