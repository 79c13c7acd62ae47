import GunyahVmm.VirtioFs.SgLists
import Mathlib.Algebra.GroupWithZero.Nat
import Mathlib.Algebra.Order.BigOperators.Group.List
import Mathlib.Algebra.Order.Group.Nat

/-! A submitted ring has one linked descriptor per vector. The chain ends there exactly if there is
a response list. -/

namespace GunyahVmm.VirtioFs
open Run LinkedPath IoVector List Nat

/-! ## Appending descriptors -/

/-- What edk2 documents of `VirtioPrepare` and `VirtioAppendDesc`. A chain begins at the first
descriptor. A buffer is placed at the next index, modulo the size of the ring, with the following
index as the next one; the head is not accessed, and the next index goes up by one as far as 16 bits
hold it. -/
structure Transport.Documented (bus : Transport) : Prop where
  prepare : ∀ ring, bus.prepare ring = ⟨0, 0⟩
  queueSize : ∀ ring addr len flags indices,
    (bus.appendDesc ring addr len flags indices).1.queueSize = ring.queueSize
  desc : ∀ ring addr len flags indices, (bus.appendDesc ring addr len flags indices).1.desc =
    ring.desc.set (indices.nextDescIdx % ring.queueSize)
      ⟨addr, len, flags, (indices.nextDescIdx + 1) % ring.queueSize⟩
  indices : ∀ ring addr len flags indices, indices.nextDescIdx < maxUint16 →
    (bus.appendDesc ring addr len flags indices).2 =
      ⟨indices.headDescIdx, indices.nextDescIdx + 1⟩

/-- A descriptor before it gets its place: address, length and flags. -/
structure DescItem where
  addr : BitVec 64
  len : BitVec 32
  flags : BitVec 16

/-- The descriptor that an item becomes at the index `i` of a table. -/
def DescItem.at (item : DescItem) (queueSize i : Nat) : VringDesc :=
  ⟨item.addr, item.len, item.flags, (i + 1) % queueSize⟩

def appendAll (bus : Transport) (ring : Vring × DescIndices) (items : List DescItem) :
    Vring × DescIndices :=
  items.foldl (fun r item => bus.appendDesc r.1 item.addr item.len item.flags r.2) ring

def vectorItem (listId numVec ioVecIdx : Nat) (v : IoVector) : DescItem :=
  ⟨v.mappedAddress, BitVec.ofNat 32 v.size,
    sgListDescriptorFlag listId ||| nextFlag listId ioVecIdx numVec⟩

def vectorItems (listId numVec ioVecIdx : Nat) (vs : List IoVector) : List DescItem :=
  vs.mapIdx fun k v => vectorItem listId numVec (ioVecIdx + k) v

variable {request response vs given ws : List IoVector} {v : IoVector} {queueSize : Nat}
  {list : SgList} (bus : Transport) (listId numVec ioVecIdx : Nat)

lemma composeVectors_eq (vs : List IoVector) (ring : Vring × DescIndices) :
    composeVectors bus listId numVec ioVecIdx vs ring =
      appendAll bus ring (vectorItems listId numVec ioVecIdx vs) := by
  induction vs generalizing ioVecIdx ring with
  | nil => rfl
  | cons v vs ih =>
    rw [composeVectors, ih]
    simp only [vectorItems, mapIdx_cons, appendAll, foldl_cons, add_zero, vectorItem,
      add_assoc, add_comm 1]

lemma appendAll_append (ring : Vring × DescIndices) (as bs : List DescItem) :
    appendAll bus ring (as ++ bs) = appendAll bus (appendAll bus ring as) bs :=
  foldl_append

section
variable {bus} (hbus : bus.Documented) (ring : Vring × DescIndices) (items : List DescItem)
include hbus

lemma appendAll_headDescIdx (hm : ring.2.nextDescIdx + items.length ≤ maxUint16) :
    (appendAll bus ring items).2.headDescIdx = ring.2.headDescIdx := by
  induction items generalizing ring with
  | nil => rfl
  | cons item items ih =>
    rw [length_cons] at hm
    rw [appendAll, foldl_cons, ← appendAll, ih]
    all_goals rw [hbus.indices _ _ _ _ _ (by omega)]
    dsimp only
    omega

lemma appendAll_queueSize : (appendAll bus ring items).1.queueSize = ring.1.queueSize := by
  induction items generalizing ring with
  | nil => rfl
  | cons item items ih =>
    rw [appendAll, foldl_cons, ← appendAll, ih, hbus.queueSize]

/-- Descriptors that fit behind the next index leave the ones before it alone and stand there in
order. -/
lemma appendAll_desc (hm : ring.2.nextDescIdx + items.length ≤ maxUint16)
    (hf : ring.2.nextDescIdx + items.length ≤ ring.1.queueSize) (i : Nat) :
    (appendAll bus ring items).1.desc[i]? =
      if i < ring.2.nextDescIdx then ring.1.desc[i]?
      else match items[i - ring.2.nextDescIdx]? with
        | some item => some (item.at ring.1.queueSize i)
        | none => ring.1.desc[i]? := by
  induction items generalizing ring with
  | nil => simp [appendAll]
  | cons item items ih =>
    rw [length_cons] at hm hf
    have hs : ring.2.nextDescIdx % ring.1.queueSize = ring.2.nextDescIdx := mod_eq_of_lt (by omega)
    have hl := ring.1.desc_length
    have hix := hbus.indices ring.1 item.addr item.len item.flags ring.2 (by omega)
    have hqs := hbus.queueSize ring.1 item.addr item.len item.flags ring.2
    have hds := hbus.desc ring.1 item.addr item.len item.flags ring.2
    rw [appendAll, foldl_cons, ← appendAll, ih]
    · rw [hix, hqs, hds, hs]
      dsimp only
      by_cases hp : i < ring.2.nextDescIdx
      · rw [if_pos (by omega), if_pos hp, getElem?_set_ne (by omega)]
      rw [if_neg hp]
      by_cases hh : i = ring.2.nextDescIdx
      · subst hh
        rw [if_pos (by omega), getElem?_set_self (by omega), Nat.sub_self, getElem?_cons_zero]
        rfl
      · have hb : i - ring.2.nextDescIdx = i - (ring.2.nextDescIdx + 1) + 1 := by omega
        rw [if_neg (by omega), hb, getElem?_cons_succ, getElem?_set_ne (by omega)]
    all_goals
      rw [hix]
      try rw [hqs]
      dsimp only
      omega

end

/-! ## The chain in the table -/

/-- Consecutive descriptors, each linked to the next up to the last, are a chain. -/
lemma path_of_consecutive (ring : Vring) (items : List DescItem) (start : Nat)
    (hne : items ≠ []) (hf : start + items.length ≤ ring.queueSize)
    (hd : ∀ k item, items[k]? = some item →
      ring.desc[start + k]? = some (item.at ring.queueSize (start + k)))
    (hn : ∀ k item, items[k]? = some item →
      (item.flags &&& vringDescFNext ≠ 0 ↔ k + 1 < items.length)) :
    Path ring.link start (items.mapIdx fun k item =>
      (start + k, item.at ring.queueSize (start + k))) := by
  induction items generalizing start with
  | nil => exact absurd rfl hne
  | cons item items ih =>
    have hh := hd 0 item rfl
    have hfl := hn 0 item rfl
    rw [add_zero] at hh
    rw [mapIdx_cons, add_zero]
    cases items with
    | nil =>
      refine Path.last ?_
      have hc : ¬ item.flags &&& vringDescFNext ≠ 0 := fun h => by simpa using hfl.mp h
      rw [Vring.link, hh, Option.map_some, DescItem.at, if_neg hc]
    | cons item' items =>
      rw [length_cons] at hf
      have hs : item.flags &&& vringDescFNext ≠ 0 := hfl.mpr (by simp)
      have hl : ring.link start = some (item.at ring.queueSize start, some (start + 1)) := by
        rw [Vring.link, hh, Option.map_some, DescItem.at, if_pos hs]
        have hp : (start + 1) % ring.queueSize = start + 1 :=
          mod_eq_of_lt (by simp only [length_cons] at hf; omega)
        rw [hp]
      refine Path.link hl ?_
      have hr := ih (start + 1) (by simp) (by omega)
        (fun k item hk => by
          have h := hd (k + 1) item hk
          rwa [← add_assoc, add_right_comm] at h)
        (fun k item hk => by
          rw [hn (k + 1) item hk]
          simp)
      simpa only [add_assoc, add_comm 1] using hr

/-- A chain whose first `n` descriptors all have the NEXT flag has more of them. -/
lemma path_runs_on {ring : Vring} {n start : Nat} {chain : List (Nat × VringDesc)}
    (hp : Path ring.link start chain)
    (hn : ∀ k < n, ∃ d j, ring.link (start + k) = some (d, some j) ∧
      (k + 1 < n → j = start + k + 1)) :
    n < chain.length := by
  induction n generalizing start chain with
  | zero => exact length_pos_iff.mpr fun h => by rw [h] at hp; cases hp
  | succ n ih =>
    obtain ⟨d, j, hl, hj⟩ := hn 0 (by omega)
    cases hp with
    | last hc =>
      rw [add_zero, hc] at hl
      cases hl
    | @link _ j' a rest hc hr =>
      rw [add_zero, hc] at hl
      cases hl
      rw [length_cons]
      rcases Nat.eq_zero_or_pos n with rfl | hpos
      · have hlen := length_pos_iff.mpr (fun h : rest = [] => by rw [h] at hr; cases hr)
        omega
      · rw [hj (by omega)] at hr
        have hrest := ih hr fun k hk => by
          obtain ⟨d, j, hl, hj⟩ := hn (k + 1) (by omega)
          refine ⟨d, j, ?_, fun h => ?_⟩
          · rwa [add_zero, add_right_comm, add_assoc]
          · rw [hj (by omega)]
            omega
        omega

/-! ## The descriptors of the two lists -/

/-- The buffer of a vector; mapping and validation leave it alone. -/
def IoVector.area (v : IoVector) : BitVec 64 × Nat := (v.buffer, v.size)

structure Describes (write next : Bool) (v : IoVector) (d : VringDesc) : Prop where
  addr : d.addr = v.mappedAddress
  len : d.len.toNat = v.size
  write : d.flags &&& vringDescFWrite ≠ 0 ↔ write = true
  next : d.flags &&& vringDescFNext ≠ 0 ↔ next = true

/-- One descriptor per vector, readable for the request and writable for the response. -/
structure ChainOf (request response : List IoVector) (chain : List VringDesc) : Prop where
  length : chain.length = request.length + response.length
  describes : ∀ k v d, (request ++ response)[k]? = some v → chain[k]? = some d →
    Describes (decide (request.length ≤ k)) (decide (k + 1 < chain.length)) v d

def chainItems (request response : List IoVector) : List DescItem :=
  vectorItems 0 request.length 0 request ++ vectorItems 1 response.length 0 response

lemma vectorItems_length (vs : List IoVector) :
    (vectorItems listId numVec ioVecIdx vs).length = vs.length :=
  length_mapIdx

lemma chainItems_length (request response : List IoVector) :
    (chainItems request response).length = request.length + response.length := by
  rw [chainItems, length_append, vectorItems_length, vectorItems_length]

lemma vectorItems_getElem? (listId numVec : Nat) (vs : List IoVector) (k : Nat) :
    (vectorItems listId numVec 0 vs)[k]? = vs[k]?.map (vectorItem listId numVec k) := by
  rw [vectorItems, getElem?_mapIdx, zero_add]

lemma chainItems_getElem? {k : Nat} (hv : (request ++ response)[k]? = some v) :
    (chainItems request response)[k]? = some
      (if k < request.length then vectorItem 0 request.length k v
        else vectorItem 1 response.length (k - request.length) v) := by
  rw [chainItems]
  by_cases hk : k < request.length
  · rw [getElem?_append_left hk] at hv
    rw [getElem?_append_left (by rwa [vectorItems_length]), vectorItems_getElem?, hv, if_pos hk]
    rfl
  · rw [getElem?_append_right (by omega)] at hv
    rw [getElem?_append_right (by rw [vectorItems_length]; omega), vectorItems_length,
      vectorItems_getElem?, hv, if_neg hk]
    rfl

lemma nextFlag_request (ioVecIdx numVec : Nat) : nextFlag 0 ioVecIdx numVec = vringDescFNext :=
  if_neg fun h => by simp [sgListParamSize] at h

lemma nextFlag_response (ioVecIdx numVec : Nat) :
    nextFlag 1 ioVecIdx numVec = if ioVecIdx = numVec - 1 then 0 else vringDescFNext := by
  simp [nextFlag, sgListParamSize]

lemma chainItems_flags (hrs : response ≠ []) {k : Nat} {item : DescItem}
    (hv : (request ++ response)[k]? = some v)
    (hi : (chainItems request response)[k]? = some item) :
    (item.flags &&& vringDescFWrite ≠ 0 ↔ request.length ≤ k) ∧
      (item.flags &&& vringDescFNext ≠ 0 ↔ k + 1 < request.length + response.length) := by
  have hlen := length_pos_iff.mpr hrs
  have hb := (List.getElem?_eq_some_iff.mp hv).1
  rw [length_append] at hb
  rw [chainItems_getElem? hv, Option.some_inj] at hi
  subst hi
  by_cases hk : k < request.length
  · have hn : k + 1 < request.length + response.length := by omega
    have hr : ¬ request.length ≤ k := by omega
    simp only [if_pos hk, vectorItem, nextFlag_request, hn, hr]
    decide
  · have hw : request.length ≤ k := by omega
    simp only [if_neg hk, vectorItem, nextFlag_response, hw]
    by_cases hl : k - request.length = response.length - 1
    · have hend : ¬ k + 1 < request.length + response.length := by omega
      simp only [if_pos hl, hend]
      decide
    · have hm : k + 1 < request.length + response.length := by omega
      simp only [if_neg hl, hm]
      decide

section
variable {bus} (hbus : bus.Documented) (ring : Vring) (request response : List IoVector)
  (hm : request.length + response.length ≤ maxUint16)
  (hf : request.length + response.length ≤ ring.queueSize)
include hbus hm hf

/-- The descriptors stand in the table in order, from the first place on. -/
lemma appendAll_prepare :
    let placed := appendAll bus (ring, bus.prepare ring) (chainItems request response)
    placed.2.headDescIdx = 0 ∧ placed.1.queueSize = ring.queueSize ∧
      ∀ (k : Nat) (item : DescItem), (chainItems request response)[k]? = some item →
        placed.1.desc[k]? = some (item.at ring.queueSize k) := by
  have hit := chainItems_length request response
  rw [hbus.prepare]
  have hm' : 0 + (chainItems request response).length ≤ maxUint16 := by omega
  have hf' : 0 + (chainItems request response).length ≤ ring.queueSize := by omega
  refine ⟨?_, appendAll_queueSize hbus _ _, fun k item hk => ?_⟩
  · exact appendAll_headDescIdx hbus (ring, ⟨0, 0⟩) _ hm'
  · rw [appendAll_desc hbus (ring, ⟨0, 0⟩) _ hm' hf' k]
    simp [hk]

/-- **The composed chain.** With a response list, what stands on the ring is the chain of the
vectors. -/
lemma composeChain_chainOf (hr : response ≠ [])
    (hs : ∀ v ∈ request ++ response, v.size ≤ maxUint32) :
    ∃ chain, Path (composeChain bus ring request (some response)).1.link
        (composeChain bus ring request (some response)).2.headDescIdx chain ∧
      ChainOf request response (chain.map Prod.snd) := by
  have hl := length_pos_iff.mpr hr
  have hit := chainItems_length request response
  have hc : composeChain bus ring request (some response) =
      appendAll bus (ring, bus.prepare ring) (chainItems request response) := by
    rw [composeChain, chainItems, appendAll_append, ← composeVectors_eq, ← composeVectors_eq]
  obtain ⟨hh, hq, hds⟩ := appendAll_prepare hbus ring request response hm hf
  rw [hc]
  have hvc : ∀ (k : Nat) (item : DescItem), (chainItems request response)[k]? = some item →
      ∃ v, (request ++ response)[k]? = some v := by
    intro k item hk
    have hb := (List.getElem?_eq_some_iff.mp hk).1
    rw [hit, ← length_append] at hb
    exact ⟨_, getElem?_eq_getElem hb⟩
  have hp := path_of_consecutive _ (chainItems request response) 0
    (fun h => by rw [h] at hit; simp at hit; omega) (by rw [hq, hit]; omega)
    (fun k item hk => by rw [hq, zero_add]; exact hds k item hk)
    (fun k item hk => by
      obtain ⟨v, hv⟩ := hvc k item hk
      rw [hit]
      exact (chainItems_flags hr hv hk).2)
  refine ⟨_, hh ▸ hp, ?_, ?_⟩
  · rw [length_map, length_mapIdx, hit]
  · intro k v d hv hd
    have hi := chainItems_getElem? hv
    obtain ⟨hw, hn⟩ := chainItems_flags hr hv hi
    have hb : v.size < 2 ^ 32 := by
      have := hs v (mem_of_getElem? hv)
      simp only [maxUint32] at this
      omega
    rw [getElem?_map, getElem?_mapIdx, hi] at hd
    simp only [Option.map_some, Option.some_inj] at hd
    subst hd
    refine ⟨?_, ?_, ?_, ?_⟩
    · simp only [DescItem.at, vectorItem]
      split <;> rfl
    · simp only [DescItem.at, vectorItem]
      split <;> exact BitVec.toNat_ofNat _ _ |>.trans (mod_eq_of_lt hb)
    · rw [decide_eq_true_iff]
      exact hw
    · rw [decide_eq_true_iff, length_map, length_mapIdx, hit]
      exact hn

end

/-- Without a response list a chain goes on behind the vectors. -/
lemma composeChain_runs_on {bus : Transport} (hbus : bus.Documented) (ring : Vring)
    (request : List IoVector) (hm : request.length ≤ maxUint16)
    (hf : request.length ≤ ring.queueSize) {chain : List (Nat × VringDesc)}
    (hp : Path (composeChain bus ring request none).1.link
      (composeChain bus ring request none).2.headDescIdx chain) :
    request.length < chain.length := by
  have hc : composeChain bus ring request none =
      appendAll bus (ring, bus.prepare ring) (chainItems request []) := by
    rw [composeChain, chainItems, appendAll_append, ← composeVectors_eq, ← composeVectors_eq]
    rfl
  obtain ⟨hh, hq, hds⟩ := appendAll_prepare hbus ring request [] hm hf
  rw [hc, hh] at hp
  refine path_runs_on hp fun k hk => ?_
  have hi := @chainItems_getElem? request [] _ k
    (by rw [append_nil]; exact getElem?_eq_getElem hk)
  rw [if_pos hk] at hi
  have hfl : (sgListDescriptorFlag 0 ||| vringDescFNext) &&& vringDescFNext ≠ 0 := by decide
  refine ⟨(vectorItem 0 request.length k request[k]).at ring.queueSize k,
    (k + 1) % ring.queueSize, ?_, fun h => ?_⟩
  · rw [zero_add, Vring.link, hds k _ hi, Option.map_some, DescItem.at, vectorItem,
      nextFlag_request, if_pos hfl]
  · rw [zero_add, mod_eq_of_lt (by omega)]

/-! ## Validated lists -/

/-- What validation establishes for the vectors of a list. -/
structure ValidVectors (given : List IoVector) (totalSize : Nat) (vs : List IoVector) : Prop where
  area : vs.map area = given.map area
  total : totalSize = (vs.map IoVector.size).sum
  total_le : totalSize ≤ maxUint32

lemma validateVectors_eq_ok {total total' : Nat}
    (h : validateVectors total given = .ok (total', vs)) (ht : total ≤ maxUint32) :
    vs.map area = given.map area ∧
      total' = total + (vs.map IoVector.size).sum ∧ total' ≤ maxUint32 := by
  induction given generalizing total vs with
  | nil =>
    cases h
    exact ⟨rfl, rfl, ht⟩
  | cons v given ih =>
    rw [validateVectors, Outcome.bind_eq_ok] at h
    obtain ⟨⟨t, v'⟩, hv, h⟩ := h
    rw [Outcome.bind_eq_ok] at h
    obtain ⟨⟨t', vs'⟩, hvs, h⟩ := h
    cases h
    rw [validateVector] at hv
    split at hv
    · cases hv
    split at hv
    · cases hv
    cases hv
    obtain ⟨ha, hsum, hle⟩ := ih hvs (by omega)
    refine ⟨?_, ?_, hle⟩
    · rw [map_cons, map_cons, ha]
      rfl
    · rw [hsum, map_cons, sum_cons, add_assoc]

lemma validateList_eq_ok {needed needed' : Nat} {given : SgList}
    (h : validateList queueSize needed given = .ok (needed', list)) :
    ValidVectors given.vectors list.totalSize list.vectors ∧ list.vectors ≠ [] ∧
      needed' = needed + list.vectors.length ∧ needed' ≤ queueSize ∧
      (needed ≤ maxUint16 → needed' ≤ maxUint16) := by
  rw [validateList] at h
  cases hv : given.ioVec with
  | none =>
    rw [hv] at h
    cases h
  | some vectors =>
    simp only [hv] at h
    split at h
    · cases h
    rename_i hne
    split at h
    · cases h
    rw [Outcome.bind_eq_ok] at h
    obtain ⟨⟨total, vs⟩, hvs, h⟩ := h
    cases h
    obtain ⟨ha, hs, hle⟩ := validateVectors_eq_ok hvs (zero_le _)
    have hl : vs.length = vectors.length := by
      simpa using congrArg length ha
    have hg : given.vectors = vectors := by rw [SgList.vectors, hv, Option.getD_some]
    refine ⟨⟨by rw [hg]; exact ha, by simpa using hs, hle⟩, ?_, ?_, by omega, by omega⟩
    · intro (hn : vs = [])
      rw [hn] at hl
      exact hne hl.symm
    · rw [SgList.vectors_some, hl]

lemma virtioFsSgListsValidate_eq_ok {given givenResponse response : SgList}
    (h : virtioFsSgListsValidate queueSize (some given) (some givenResponse) =
      .ok (list, some response)) :
    ValidVectors given.vectors list.totalSize list.vectors ∧
      ValidVectors givenResponse.vectors response.totalSize response.vectors ∧
      response.vectors ≠ [] ∧
      list.vectors.length + response.vectors.length ≤ queueSize ∧
      list.vectors.length + response.vectors.length ≤ maxUint16 := by
  simp only [virtioFsSgListsValidate] at h
  rw [Outcome.bind_eq_ok] at h
  obtain ⟨⟨needed, list'⟩, hl, h⟩ := h
  rw [Outcome.bind_eq_ok] at h
  obtain ⟨⟨needed', response'⟩, hr, h⟩ := h
  cases h
  obtain ⟨hv, _, hn, _, hm⟩ := validateList_eq_ok hl
  obtain ⟨hv', hne, hn', hle, hm'⟩ := validateList_eq_ok hr
  dsimp only at hn hn' hm' ⊢
  have hle' := hm' (hm (zero_le _))
  exact ⟨hv, hv', hne, by omega, by omega⟩

lemma virtioFsSgListsValidate_none_eq_ok {given : SgList} {response : Option SgList}
    (h : virtioFsSgListsValidate queueSize (some given) none = .ok (list, response)) :
    response = none ∧ ValidVectors given.vectors list.totalSize list.vectors ∧
      list.vectors.length ≤ queueSize ∧ list.vectors.length ≤ maxUint16 := by
  simp only [virtioFsSgListsValidate] at h
  rw [Outcome.bind_eq_ok] at h
  obtain ⟨⟨needed, list'⟩, hl, h⟩ := h
  cases h
  obtain ⟨hv, _, hn, hle, hm⟩ := validateList_eq_ok hl
  have hle' := hm (zero_le _)
  refine ⟨rfl, hv, ?_, ?_⟩
  all_goals
    dsimp only
    omega

lemma ValidVectors.size_le {total : Nat} (h : ValidVectors given total vs) (hv : v ∈ vs) :
    v.size ≤ maxUint32 := by
  have hle := le_sum_of_mem (mem_map_of_mem hv : v.size ∈ vs.map IoVector.size)
  have ht := h.total_le
  rw [h.total] at ht
  omega

/-! ## Submission -/

lemma mapVectors_area (op : MapOperation) (i : Nat) (vs : List IoVector) :
    (mapVectors bus op i vs).1.map area = vs.map area := by
  induction vs generalizing i with
  | nil => rfl
  | cons v vs ih =>
    rw [mapVectors]
    cases bus.mapAllBytes op i v with
    | error code => rfl
    | ok mapped =>
      rw [map_cons, map_cons, ih]
      rfl

lemma mapVectors_ok {bus : Transport}
    (hb : ∀ op i v, ∃ mapped, bus.mapAllBytes op i v = .ok mapped) (op : MapOperation) (i : Nat)
    (vs : List IoVector) : (mapVectors bus op i vs).2 = none := by
  induction vs generalizing i with
  | nil => rfl
  | cons v vs ih =>
    obtain ⟨mapped, hm⟩ := hb op i v
    rw [mapVectors, hm]
    exact ih (i + 1)

lemma size_of_area (h : vs.map area = ws.map area) :
    vs.map IoVector.size = ws.map IoVector.size := by
  have hs : IoVector.size = Prod.snd ∘ area := rfl
  rw [hs, ← map_map, h, map_map]

lemma length_of_area (h : vs.map area = ws.map area) : vs.length = ws.length := by
  simpa using congrArg length h

/-- The device's count is used up if it is not more than the vectors hold. -/
lemma transferResponse_fst (total : Nat) (vs : List IoVector) :
    (transferResponse total vs).1 = total - (vs.map IoVector.size).sum := by
  induction vs generalizing total with
  | nil => simp [transferResponse]
  | cons v vs ih =>
    rw [transferResponse, ih, map_cons, sum_cons]
    omega

lemma finish_placed (placed : Option Placed) (request : List IoVector)
    (response : Option (List IoVector)) (status : Option SubmitError) :
    (finish bus placed request response status).placed = placed := rfl

lemma afterFlush_ok {placed : Placed} {response : SgList} (hpl : placed.response = some vs)
    (ht : response.totalSize = (vs.map IoVector.size).sum) (written : Nat) :
    ∃ sub, afterFlush bus placed (some response) written = .ok sub ∧ sub.placed = some placed := by
  rw [afterFlush]
  split
  · exact ⟨_, rfl, finish_placed ..⟩
  have hd : (transferResponse written vs).1 = 0 := by
    rw [transferResponse_fst]
    omega
  simp only [hpl, hd, ne_eq, not_true_eq_false, if_false]
  exact ⟨_, rfl, finish_placed ..⟩

/-- **Submission with a response.** If every mapping succeeds, the chain has the mapped vectors. -/
lemma submit_eq_ok (ring : Vring) (request response : SgList)
    (ht : response.totalSize = (response.vectors.map IoVector.size).sum) :
    ∃ sub, virtioFsSgListsSubmit bus ring request (some response) = .ok sub ∧
      (∀ placed, sub.placed = some placed → ∃ mapped,
        placed.response = some mapped ∧
        placed.request.map area = request.vectors.map area ∧
        mapped.map area = response.vectors.map area ∧
        (placed.ring, placed.indices) = composeChain bus ring placed.request (some mapped)) ∧
      ((∀ op i v, ∃ mapped, bus.mapAllBytes op i v = .ok mapped) → sub.placed.isSome = true) := by
  rw [virtioFsSgListsSubmit]
  cases hr : (mapVectors bus (sgListVirtioMapOp 0) 0 request.vectors).2 with
  | some e =>
    refine ⟨_, rfl, nofun, fun hb => ?_⟩
    rw [mapVectors_ok hb] at hr
    cases hr
  | none =>
    dsimp only
    cases hrs : (mapVectors bus (sgListVirtioMapOp 1) 0 response.vectors).2 with
    | some e =>
      refine ⟨_, rfl, nofun, fun hb => ?_⟩
      rw [mapVectors_ok hb] at hrs
      cases hrs
    | none =>
      dsimp only
      have ha := mapVectors_area bus (sgListVirtioMapOp 1) 0 response.vectors
      split
      · refine ⟨_, rfl, ?_, fun _ => rfl⟩
        rintro placed h
        cases h
        exact ⟨_, rfl, mapVectors_area .., ha, rfl⟩
      · rename_i written _
        have hm : response.totalSize = ((mapVectors bus (sgListVirtioMapOp 1) 0
            response.vectors).1.map IoVector.size).sum := by
          rw [ht, size_of_area ha]
        refine Exists.elim (afterFlush_ok bus ?_ hm written.toNat) fun sub hs =>
          ⟨sub, hs.1, ?_, fun _ => by rw [hs.2]; rfl⟩
        · rfl
        have hpl := hs.2
        rintro placed h
        rw [hpl, Option.some_inj] at h
        subst h
        exact ⟨_, rfl, mapVectors_area .., ha, rfl⟩

/-- **Submission without a response.** -/
lemma submit_none_eq_ok (ring : Vring) (request : SgList) :
    ∃ sub, virtioFsSgListsSubmit bus ring request none = .ok sub ∧
      (∀ placed, sub.placed = some placed → placed.response = none ∧
        placed.request.map area = request.vectors.map area ∧
        (placed.ring, placed.indices) = composeChain bus ring placed.request none) ∧
      ((∀ op i v, ∃ mapped, bus.mapAllBytes op i v = .ok mapped) → sub.placed.isSome = true) := by
  rw [virtioFsSgListsSubmit]
  cases hr : (mapVectors bus (sgListVirtioMapOp 0) 0 request.vectors).2 with
  | some e =>
    refine ⟨_, rfl, nofun, fun hb => ?_⟩
    rw [mapVectors_ok hb] at hr
    cases hr
  | none =>
    dsimp only
    unfold afterFlush
    dsimp only
    split
    on_goal 2 => split
    on_goal 3 => rw [if_neg (by omega)]
    all_goals
      refine ⟨_, rfl, ?_, fun _ => rfl⟩
      rintro placed h
      cases h
      exact ⟨rfl, mapVectors_area .., rfl⟩

/-- What is placed on the ring is one chain with one descriptor per vector, in order, that ends at
the last one. -/
def Placed.Exact (placed : Placed) : Prop :=
  ∃ chain, Path placed.ring.link placed.indices.headDescIdx chain ∧
    ChainOf placed.request (placed.response.getD []) (chain.map Prod.snd)

/-- **The submitted chain.** For lists that were validated together the submission returns, and it
places the vectors on the ring if they can be mapped, as exactly their chain if and only if there is
a response list. -/
theorem submitted_chain_iff (bus : Transport) (hbus : bus.Documented) (ring : Vring)
    (given : SgList) (givenResponse : Option SgList) (request : SgList) (response : Option SgList)
    (hvalid : virtioFsSgListsValidate ring.queueSize (some given) givenResponse =
      .ok (request, response)) :
    ∃ sub, virtioFsSgListsSubmit bus ring request response = .ok sub ∧
      (∀ placed, sub.placed = some placed →
        placed.request.map area = given.vectors.map area ∧
        placed.response.map (·.map area) = givenResponse.map (·.vectors.map area) ∧
        (placed.Exact ↔ givenResponse.isSome = true)) ∧
      ((∀ op i v, ∃ mapped, bus.mapAllBytes op i v = .ok mapped) → sub.placed.isSome = true) := by
  cases givenResponse with
  | none =>
    obtain ⟨rfl, hreq, hf, hm⟩ := virtioFsSgListsValidate_none_eq_ok hvalid
    obtain ⟨sub, hsub, hpl, hs⟩ := submit_none_eq_ok bus ring request
    refine ⟨sub, hsub, fun placed h => ?_, hs⟩
    obtain ⟨hr, ha, hrn⟩ := hpl placed h
    refine ⟨ha.trans hreq.area, by rw [hr]; rfl, iff_of_false ?_ (by simp)⟩
    rintro ⟨chain, hp, hof⟩
    have hl := length_of_area ha
    have hlen := hof.length
    rw [hr, Option.getD_none, length_map, length_nil] at hlen
    obtain ⟨hring, hix⟩ := Prod.mk.inj hrn
    rw [hring, hix] at hp
    have hlt := composeChain_runs_on hbus ring placed.request (by omega) (by omega) hp
    omega
  | some givenResponse =>
    cases response with
    | none =>
      simp only [virtioFsSgListsValidate, Outcome.bind_eq_ok] at hvalid
      obtain ⟨_, _, _, _, h⟩ := hvalid
      cases h
    | some response =>
      obtain ⟨hreq, hr, hne, hf, hm⟩ := virtioFsSgListsValidate_eq_ok hvalid
      obtain ⟨sub, hsub, hpl, hs⟩ := submit_eq_ok bus ring request response hr.total
      refine ⟨sub, hsub, fun placed h => ?_, hs⟩
      obtain ⟨mapped, hmp, ha, ha', hrn⟩ := hpl placed h
      refine ⟨ha.trans hreq.area, by rw [hmp]; exact congrArg some (ha'.trans hr.area),
        iff_of_true ?_ rfl⟩
      have hl := length_of_area ha
      have hl' := length_of_area ha'
      have hsz : ∀ v ∈ placed.request ++ mapped, v.size ≤ maxUint32 := by
        intro v hv
        have hmem : v.size ∈ (request.vectors ++ response.vectors).map IoVector.size := by
          rw [map_append, ← size_of_area ha, ← size_of_area ha', ← map_append]
          exact mem_map_of_mem hv
        obtain ⟨w, hw, hwv⟩ := mem_map.mp hmem
        rw [← hwv]
        rcases mem_append.mp hw with hw | hw
        · exact hreq.size_le hw
        · exact hr.size_le hw
      have hc := composeChain_chainOf hbus ring placed.request mapped (by omega) (by omega)
        (fun hn => hne (length_eq_zero_iff.mp (by rw [← hl', hn]; rfl))) hsz
      rw [← hrn] at hc
      unfold Placed.Exact
      rwa [hmp]

/-- A ring with no chain. -/
def idleRing (queueSize : Nat) (h : 0 < queueSize) : Vring where
  queueSize := queueSize
  desc := List.replicate queueSize ⟨0, 0, 0, 0⟩
  desc_length := List.length_replicate
  queueSize_pos := h

/-- A transport that maps every buffer at its own address and whose device writes nothing. -/
def identityTransport : Transport where
  prepare _ := ⟨0, 0⟩
  appendDesc ring addr len flags indices :=
    ({ ring with
        desc := ring.desc.set (indices.nextDescIdx % ring.queueSize)
          ⟨addr, len, flags, (indices.nextDescIdx + 1) % ring.queueSize⟩
        desc_length := by rw [List.length_set, ring.desc_length] },
      { indices with nextDescIdx := (indices.nextDescIdx + 1) % 65536 })
  mapAllBytes _ _ v := .ok (v.buffer, v.buffer)
  flush _ _ := .ok 0
  unmapSharedBuffer _ := none

lemma identityTransport_documented : identityTransport.Documented where
  prepare _ := rfl
  queueSize _ _ _ _ _ := rfl
  desc _ _ _ _ _ := rfl
  indices _ _ _ _ indices h := by
    have hm : (indices.nextDescIdx + 1) % 65536 = indices.nextDescIdx + 1 :=
      mod_eq_of_lt (by rw [maxUint16] at h; omega)
    simp only [identityTransport, hm]

/-- A request of one vector and a response of two. -/
theorem submitted_chain_iff_pair :
    ∃ request response sub placed,
      virtioFsSgListsSubmit identityTransport (idleRing 4 (by decide)) request response = .ok sub ∧
      sub.placed = some placed ∧ placed.request.map area = [(0x1000, 40)] ∧
      placed.response.map (·.map area) = some [(0x2000, 16), (0x3000, 8)] ∧ placed.Exact := by
  obtain ⟨sub, hsub, hpl, hs⟩ := submitted_chain_iff identityTransport identityTransport_documented
    (idleRing 4 (by decide)) ⟨some [{ buffer := 0x1000, size := 40 }], 0⟩
    (some ⟨some [{ buffer := 0x2000, size := 16 }, { buffer := 0x3000, size := 8 }], 0⟩) _ _ rfl
  obtain ⟨placed, hp⟩ := Option.isSome_iff_exists.mp (hs fun _ _ v => ⟨_, rfl⟩)
  obtain ⟨ha, ha', hex⟩ := hpl placed hp
  exact ⟨_, _, sub, placed, hsub, hp, ha, ha', hex.mpr rfl⟩

/-- FUSE_FORGET: the last descriptor of the request has the NEXT flag, so the device goes on to
the third descriptor of the ring. -/
theorem forget_chain_runs_on :
    ∃ sub placed,
      virtioFsFuseForget identityTransport (idleRing 4 (by decide)) 5 1 0x1000 0x2000 =
        .ok (6, .ok sub) ∧
      sub.placed = some placed ∧ placed.request.length = 2 ∧ placed.response = none ∧
      ∃ chain, Path placed.ring.link placed.indices.headDescIdx chain ∧ chain.length = 3 ∧
        (chain.map Prod.snd)[1]?.map (·.flags) = some vringDescFNext :=
  ⟨_, _, rfl, rfl, rfl, rfl, _, .link rfl (.link rfl (.last rfl)), rfl, rfl⟩

end GunyahVmm.VirtioFs
