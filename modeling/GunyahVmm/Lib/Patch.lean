import Mathlib.Data.List.Basic

/-! Writing into a list of fixed length: what does not fit is dropped. -/

namespace GunyahVmm
open List
variable {β : Type} {l a b d e : List β} {pos n i : Nat}

def patch (l : List β) (pos : Nat) (d : List β) : List β :=
  l.mapIdx fun i x => if pos ≤ i then (d[i - pos]?).getD x else x

@[simp] lemma length_patch : (patch l pos d).length = l.length := length_mapIdx

lemma getElem?_patch :
    (patch l pos d)[i]? = l[i]?.map fun x => if pos ≤ i then (d[i - pos]?).getD x else x :=
  getElem?_mapIdx

@[simp] lemma patch_nil : patch l pos [] = l := by
  refine ext_getElem? fun i => ?_
  rw [getElem?_patch]
  simp

lemma patch_append :
    patch (a ++ b) pos d = patch a pos d ++ patch b (pos - a.length) (d.drop (a.length - pos)) := by
  refine ext_getElem? fun i => ?_
  rw [getElem?_patch]
  by_cases hi : i < a.length
  · rw [getElem?_append_left hi, getElem?_append_left (by simpa using hi), getElem?_patch]
  have hle := Nat.le_of_not_lt hi
  rw [getElem?_append_right hle, getElem?_append_right (by simpa using hle),
    length_patch, getElem?_patch]
  congr 1
  funext x
  by_cases hp : pos ≤ i
  · rw [if_pos hp, if_pos (by omega), getElem?_drop]
    congr 2
    omega
  · rw [if_neg hp, if_neg (by omega)]

lemma patch_patch : patch (patch l pos d) (pos + d.length) e = patch l pos (d ++ e) := by
  refine ext_getElem? fun i => ?_
  rw [getElem?_patch, getElem?_patch, getElem?_patch, Option.map_map]
  congr 1
  funext x
  simp only [Function.comp_apply]
  by_cases hp : pos ≤ i
  · by_cases hd : i - pos < d.length
    · rw [if_neg (by omega), if_pos hp, if_pos hp, getElem?_append_left hd]
    rw [if_pos (by omega), if_pos hp, if_pos hp, getElem?_append_right (by omega),
      getElem?_eq_none (by omega : d.length ≤ i - pos), Option.getD_none]
    congr 2
    omega
  · rw [if_neg (by omega), if_neg hp, if_neg hp]

lemma take_patch : (patch l pos d).take n = patch (l.take n) pos d := by
  refine ext_getElem? fun i => ?_
  rw [getElem?_patch, getElem?_take, getElem?_take]
  split
  · rw [getElem?_patch]
  · rfl

lemma drop_patch (h : pos + d.length ≤ n) : (patch l pos d).drop n = l.drop n := by
  refine ext_getElem? fun i => ?_
  rw [getElem?_drop, getElem?_drop, getElem?_patch,
    getElem?_eq_none (by omega : d.length ≤ n + i - pos)]
  simp

lemma patch_take_left (h : l.length ≤ pos + n) : patch l pos (d.take n) = patch l pos d := by
  refine ext_getElem? fun i => ?_
  rw [getElem?_patch, getElem?_patch]
  by_cases hi : i < l.length
  · by_cases hp : pos ≤ i
    · rw [getElem?_take_of_lt (by omega)]
    · simp [hp]
  · simp [getElem?_eq_none (Nat.le_of_not_lt hi)]

end GunyahVmm
