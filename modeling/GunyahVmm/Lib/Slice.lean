import GunyahVmm.Lib.Run

/-! Buffers that are filled piece by piece. A piece that does not lie in the buffer aborts. -/

namespace GunyahVmm.Slice
open Run Run.Outcome
variable {ε α β : Type}

/-- Copy a piece into the buffer, from index `i` on. -/
def copyFromSlice (buf : List α) (i : Nat) (src : List α) : Outcome ε (List α) :=
  if i + src.length ≤ buf.length then .ok (buf.take i ++ src ++ buf.drop (i + src.length))
  else .panic

def fill (buf : List α) (pieces : List (Nat × List α)) : Outcome ε (List α) :=
  pieces.foldlM (fun buf piece => copyFromSlice buf piece.1 piece.2) buf

def upTo (buf : List α) (n : Nat) : Outcome ε (List α) :=
  if n ≤ buf.length then .ok (buf.take n) else .panic

/-- Work on the part of the buffer from index `i` on. -/
def inTail (buf : List α) (i : Nat) (f : List α → Outcome ε (β × List α)) :
    Outcome ε (β × List α) :=
  if i ≤ buf.length then do
    let r ← f (buf.drop i)
    .ok (r.1, buf.take i ++ r.2)
  else .panic

end GunyahVmm.Slice
