import GunyahVmm.CrosFdt.WriteParse

/-! Writing a device tree and loading it again gives the same tree. -/

namespace GunyahVmm.CrosFdt
open Run Outcome FdtReserveEntry List

/-! ## Strings block -/

lemma splitBytes_eq_cons_cons {sep : BitVec 8} {input p q : Blob} {parts : List Blob}
    (h : splitBytes sep input = p :: q :: parts) :
    ∃ rest, input = p ++ sep :: rest ∧ splitBytes sep rest = q :: parts := by
  by_cases hs : sep ∈ input
  · obtain ⟨a, b, rfl, ha⟩ := eq_append_cons_of_mem hs
    rw [splitBytes_append, splitBytes_of_not_mem ha] at h
    obtain ⟨rfl, ht⟩ := cons.inj h
    exact ⟨b, rfl, ht⟩
  · simp [splitBytes_of_not_mem hs] at h

namespace FdtStrings

lemma collect_found (block : Blob) (parts : List Blob) : ∀ (pre input : Blob)
    (offsets result : IndexMap Str (BitVec 32)), splitBytes 0 input = parts ++ [[]] →
    block = pre ++ input → pre.length < u32Size → (∀ e ∈ offsets.entries, Found block e.2 e.1) →
    collect (parts ++ [[]]) pre.length offsets = .ok result →
    (∀ e ∈ result.entries, Found block e.2 e.1) ∧ cleanParts (parts ++ [[]]) = true := by
  induction parts with
  | nil =>
    intro pre input offsets result _ _ _ ho h
    exact ok.inj h ▸ ⟨ho, rfl⟩
  | cons part parts ih =>
    intro pre input offsets result hs hb hp ho h
    rw [cons_append] at hs
    obtain ⟨q, more, hm⟩ : ∃ q more, parts ++ [[]] = q :: more := by
      cases parts <;> exact ⟨_, _, rfl⟩
    rw [hm] at hs
    obtain ⟨rest, rfl, hr⟩ := splitBytes_eq_cons_cons hs
    rw [cons_append, collect] at h
    rw [cons_append, cleanParts]
    split at h
    · rename_i hemp
      exact ok.inj h ▸ ⟨ho, by rw [hemp, Bool.true_or]⟩
    · split at h
      · cases h
      rename_i hv
      split at h
      · obtain ⟨next, hn, h⟩ := bind_eq_ok.mp h
        obtain ⟨hlt, rfl⟩ := addIn_eq_ok.mp hn
        have hl : (pre ++ (part ++ [0])).length = pre.length + (part.length + 1) := by
          simp
        have ho' : ∀ e ∈ (offsets.insert part (BitVec.ofNat 32 pre.length)).entries,
            Found block e.2 e.1 := by
          intro e he
          rcases IndexMap.mem_insert he with rfl | he
          · exact ⟨pre, rest, hb, Nat.mod_eq_of_lt hp⟩
          · exact ho e he
        obtain ⟨hf, hc⟩ := ih (pre ++ (part ++ [0])) rest _ result (hm ▸ hr)
          (by simp [hb]) (by omega) ho' (hl ▸ h)
        refine ⟨hf, ?_⟩
        rw [hc, Bool.and_true, Bool.eq_true_of_not_eq_false hv, Bool.or_true]
      · cases h

lemma ok_of_fromBlob {block : Blob} {s : FdtStrings} (h : fromBlob block = .ok s) : s.Ok := by
  unfold fromBlob at h
  split at h
  · cases h
  rename_i hl
  have hl' := Bool.eq_false_iff.mpr hl
  obtain ⟨offsets, hc, hs⟩ := bind_eq_ok.mp h
  cases ok.inj hs
  obtain ⟨parts, hp⟩ := splitBytes_eq_concat hl'
  rw [hp] at hc
  obtain ⟨hf, hcl⟩ := collect_found block parts [] block .empty offsets hp
    rfl (by decide) nofun hc
  exact ⟨hf, hl', hp ▸ hcl⟩

lemma collect_of_clean (parts : List Blob) :
    ∀ (offset : Nat) (offsets : IndexMap Str (BitVec 32)), cleanParts (parts ++ [[]]) = true →
    offset + (parts.map fun part => part.length + 1).sum < u32Size →
    ∃ result, collect (parts ++ [[]]) offset offsets = .ok result := by
  induction parts with
  | nil => exact fun _ offsets _ _ => ⟨offsets, rfl⟩
  | cons part parts ih =>
    intro offset offsets hc hs
    rw [cons_append, cleanParts, Bool.or_eq_true, Bool.and_eq_true] at hc
    simp only [map_cons, sum_cons] at hs
    rw [cons_append, collect]
    split
    · exact ⟨offsets, rfl⟩
    rename_i hemp
    obtain ⟨hv, hc⟩ := hc.resolve_left hemp
    have ha : (addU32 offset (part.length + 1) : Outcome Error Nat) = _ := addIn_of_lt (by omega)
    rw [if_neg (by rw [hv]; decide), if_pos (by omega), ha, ok_bind]
    exact ih _ _ hc (by omega)

/-- The block that is written can be loaded. -/
lemma Ok.fromBlob {s : FdtStrings} (h : s.Ok) (hl : s.strings.length < u32Size) :
    ∃ T, FdtStrings.fromBlob s.strings = .ok T ∧ T.strings = s.strings := by
  obtain ⟨parts, hp⟩ := splitBytes_eq_concat h.terminated
  have hs := sum_splitBytes 0 s.strings
  have hc := h.clean
  rw [hp] at hs hc
  simp only [map_append, sum_append, map_cons, sum_cons] at hs
  obtain ⟨result, hr⟩ := collect_of_clean parts 0 .empty hc (by omega)
  refine ⟨⟨s.strings, result⟩, ?_, rfl⟩
  unfold FdtStrings.fromBlob
  rw [if_neg (by rw [h.terminated]; decide), hp, hr, ok_bind]

end FdtStrings

/-! ## Header and reserved memory -/

namespace FdtHeader

lemma length_writeBlob (h : FdtHeader) : h.writeBlob.length = SIZE := by
  simp [writeBlob, length_beBytes32, SIZE]

lemma readFields_writeBlob (h : FdtHeader) : readFields h.writeBlob = .ok h := by
  unfold readFields writeBlob
  simp only [append_assoc, rdu32_append, ok_bind]
  rw [← append_nil (beBytes32 h.sizeDtStruct), rdu32_append, ok_bind]

end FdtHeader

lemma FdtReserveEntry.fromBlob_append (e : FdtReserveEntry) (rest : Blob) :
    fromBlob (e.writeBlob ++ rest) = .ok (e, rest) := by
  unfold fromBlob writeBlob
  simp [rdu64_append]

lemma parseReservedMemory_append (entries : List FdtReserveEntry) :
    ∀ (fuel : Nat) (rest : Blob), .terminator ∉ entries → entries.length < fuel →
    Fdt.parseReservedMemory fuel (entries.flatMap writeBlob ++
      (terminator.writeBlob ++ rest)) = .ok entries := by
  induction entries with
  | nil =>
    intro fuel rest _ hf
    obtain ⟨f, rfl⟩ : ∃ f, fuel = f + 1 := ⟨fuel - 1, by simp at hf; omega⟩
    rw [flatMap_nil, nil_append, Fdt.parseReservedMemory, fromBlob_append, ok_bind]
    exact if_pos rfl
  | cons entry entries ih =>
    intro fuel rest hno hf
    obtain ⟨hent, hno⟩ := not_or.mp (fun h => hno (mem_cons.mpr h))
    rw [length_cons] at hf
    obtain ⟨f, rfl⟩ : ∃ f, fuel = f + 1 := ⟨fuel - 1, by omega⟩
    rw [flatMap_cons, append_assoc, Fdt.parseReservedMemory, fromBlob_append, ok_bind]
    dsimp only
    rw [if_neg (Ne.symm hent), ih f rest hno (by omega), ok_bind]

/-! ## Trees -/

lemma FdtNode.ReadsBack.fromBlob {root : FdtNode} (h : root.ReadsBack) {s T : FdtStrings}
    (hs : s.Ok) (hT : (writeBlob root s).2.strings <+: T.strings)
    (hl : T.strings.length < u32Size) (rest : Blob) :
    FdtNode.fromBlob ((writeBlob root s).1 ++ (beBytes32 fdtEnd ++ rest)) T = .ok root := by
  obtain ⟨_, body, hby, hp⟩ := h s T hs hT hl
  unfold FdtNode.fromBlob
  rw [hby, append_assoc, readToken_append (by decide), ok_bind]
  dsimp only
  rw [if_neg (by simp), hp _ _ (by rw [length_append]; omega), ok_bind]
  rw [readToken_append (by decide), ok_bind]
  exact if_neg (by simp)

lemma slice_of_append {input a b c : Blob} {lo hi : Nat} (hinp : input = a ++ (b ++ c))
    (hlo : a.length = lo) (hhi : lo + b.length = hi) : slice input lo hi = .ok b := by
  unfold slice
  rw [hinp, if_pos ⟨by omega, by simp only [length_append]; omega⟩,
    drop_left' hlo, take_left' (by omega)]

lemma exists_alignData (data : Blob) (alignment : Nat) :
    ∃ pad : Blob, alignData data alignment = data ++ pad := ⟨_, rfl⟩

namespace Fdt

structure Writable (fdt : Fdt) : Prop where
  valid : fdt.root.Valid
  reserved : .terminator ∉ fdt.reservedMemory
  strings : fdt.strings.Ok

/-- The blocks behind the header, with the padding after the first two. -/
lemma layout_eq (fdt : Fdt) : ∃ pad₁ pad₂ : Blob, fdt.layout =
    ⟨replicate FdtHeader.SIZE 0 ++ ((fdt.writeReservedMemory ++ pad₁) ++
        (((fdt.root.writeBlob fdt.strings).1 ++ (beBytes32 fdtEnd ++ pad₂)) ++
          (fdt.root.writeBlob fdt.strings).2.strings)),
      FdtHeader.SIZE + (fdt.writeReservedMemory ++ pad₁).length,
      FdtHeader.SIZE + ((fdt.writeReservedMemory ++ pad₁).length +
        ((fdt.root.writeBlob fdt.strings).1 ++ (beBytes32 fdtEnd ++ pad₂)).length),
      (fdt.root.writeBlob fdt.strings).2⟩ := by
  have ha : alignData (replicate FdtHeader.SIZE 0) 8 = replicate FdtHeader.SIZE 0 := by decide
  obtain ⟨pad₁, h₁⟩ := exists_alignData (replicate FdtHeader.SIZE 0 ++ fdt.writeReservedMemory) 8
  obtain ⟨pad₂, h₂⟩ := exists_alignData (replicate FdtHeader.SIZE 0 ++
    fdt.writeReservedMemory ++ pad₁ ++ ((fdt.root.writeBlob fdt.strings).1 ++ beBytes32 fdtEnd)) 4
  refine ⟨pad₁, pad₂, ?_⟩
  unfold layout writeStruct
  dsimp only
  rw [ha, h₁, h₂]
  simp [Nat.add_assoc]

def blockHeader (reserved nodes strings : Blob) (bootCpuidPhys : BitVec 32) : FdtHeader :=
  .new (BitVec.ofNat 32 (FdtHeader.SIZE + (reserved.length + (nodes.length + strings.length))))
    (BitVec.ofNat 32 (FdtHeader.SIZE + reserved.length))
    (BitVec.ofNat 32 (FdtHeader.SIZE + (reserved.length + nodes.length)))
    (BitVec.ofNat 32 FdtHeader.SIZE) bootCpuidPhys
    (BitVec.ofNat 32 strings.length) (BitVec.ofNat 32 nodes.length)

lemma finish_eq {fdt : Fdt} (h : fdt.layout.blob.length < u32Size) :
    ∃ pad₁ pad₂ : Blob,
      let reserved := fdt.writeReservedMemory ++ pad₁
      let nodes := (fdt.root.writeBlob fdt.strings).1 ++ (beBytes32 fdtEnd ++ pad₂)
      let strings := (fdt.root.writeBlob fdt.strings).2
      FdtHeader.SIZE + (reserved.length + (nodes.length + strings.strings.length)) < u32Size ∧
      fdt.finish = .ok ((blockHeader reserved nodes strings.strings fdt.bootCpuidPhys).writeBlob ++
        (reserved ++ (nodes ++ strings.strings)), { fdt with strings }) := by
  obtain ⟨pad₁, pad₂, hl⟩ := fdt.layout_eq
  refine ⟨pad₁, pad₂, ?_⟩
  have ha : (alignData (replicate FdtHeader.SIZE 0) 8).length = FdtHeader.SIZE := by
    decide
  -- only the lengths of the two blocks matter for the header
  generalize fdt.writeReservedMemory ++ pad₁ = reserved at hl ⊢
  generalize (fdt.root.writeBlob fdt.strings).1 ++ (beBytes32 fdtEnd ++ pad₂) = nodes at hl ⊢
  have hs := h
  simp only [hl, length_append] at hs
  refine ⟨hs, ?_⟩
  unfold finish blockHeader
  rw [if_pos h, hl]
  simp only [length_append, length_replicate]
  congr 6 <;> omega

lemma fromBlob_blocks {reserved nodes strings : Blob} (bootCpuidPhys : BitVec 32)
    (hr : 0 < reserved.length)
    (h : FdtHeader.SIZE + (reserved.length + (nodes.length + strings.length)) < u32Size) :
    fromBlob ((blockHeader reserved nodes strings bootCpuidPhys).writeBlob ++
        (reserved ++ (nodes ++ strings))) = (do
      let input := reserved ++ (nodes ++ strings)
      let reservedMemory ← parseReservedMemory (input.length + 1) input
      let strings ← FdtStrings.fromBlob strings
      let root ← FdtNode.fromBlob nodes strings
      .ok ⟨reservedMemory, root, strings, bootCpuidPhys⟩) := by
  have hnat : ∀ n, n < u32Size → (BitVec.ofNat 32 n).toNat = n := fun n hn =>
    Nat.mod_eq_of_lt hn
  generalize hh : blockHeader reserved nodes strings bootCpuidPhys = header
  have hlen := header.length_writeBlob
  have ht : header.totalSize.toNat =
      FdtHeader.SIZE + (reserved.length + (nodes.length + strings.length)) := by
    rw [← hh]
    exact hnat _ h
  have hrs : header.offMemRsvmap.toNat = FdtHeader.SIZE := by
    rw [← hh]
    exact hnat _ (by omega)
  have hstr : header.offDtStruct.toNat = FdtHeader.SIZE + reserved.length := by
    rw [← hh]
    exact hnat _ (by omega)
  have hs : header.offDtStrings.toNat = FdtHeader.SIZE + (reserved.length + nodes.length) := by
    rw [← hh]
    exact hnat _ (by omega)
  have hst : header.sizeDtStruct.toNat = nodes.length := by
    rw [← hh]
    exact hnat _ (by omega)
  have hstringsSize : header.sizeDtStrings.toNat = strings.length := by
    rw [← hh]
    exact hnat _ (by omega)
  have hc : header.check = .ok header := by
    unfold FdtHeader.check
    rw [if_neg (by rw [← hh]; simp [blockHeader, FdtHeader.new]),
      if_neg (by rw [← hh]; simp [blockHeader, FdtHeader.new]), if_neg (by omega),
      if_neg (by omega), if_neg (by omega), if_neg (by omega), if_neg (by omega)]
  have hf : FdtHeader.fromBlob header.writeBlob = .ok header := by
    unfold FdtHeader.fromBlob
    rw [if_neg (by omega), FdtHeader.readFields_writeBlob, ok_bind, hc]
  have hb : header.bootCpuidPhys = bootCpuidPhys := by rw [← hh]; rfl
  generalize hi : header.writeBlob ++ (reserved ++ (nodes ++ strings)) = input
  have hl : input.length =
      FdtHeader.SIZE + (reserved.length + (nodes.length + strings.length)) := by
    rw [← hi, length_append, length_append, length_append, hlen]
  have hre : slice input FdtHeader.SIZE input.length =
      .ok (reserved ++ (nodes ++ strings)) :=
    slice_of_append (by rw [← hi, append_nil]) hlen
      (by rw [hl, length_append, length_append])
  have hnd : slice input (FdtHeader.SIZE + reserved.length)
      (FdtHeader.SIZE + reserved.length + nodes.length) = .ok nodes :=
    slice_of_append (a := header.writeBlob ++ reserved) (by rw [← hi, append_assoc])
      (by rw [length_append, hlen]) rfl
  have hstringsSlice : slice input (FdtHeader.SIZE + (reserved.length + nodes.length))
      (FdtHeader.SIZE + (reserved.length + nodes.length) + strings.length) = .ok strings :=
    slice_of_append (a := header.writeBlob ++ (reserved ++ nodes)) (c := [])
      (by rw [← hi, append_nil, append_assoc, append_assoc])
      (by rw [length_append, length_append, hlen]) rfl
  unfold fromBlob
  rw [if_pos (by omega), ← hi, take_left' hlen, hi, okOr, ok_bind, hf, ok_bind,
    ht, hrs, hstr, hs, hst, hstringsSize, hb, if_neg (by omega),
    hre, ok_bind, addU32, addIn_of_lt (by omega), ok_bind, hnd, ok_bind,
    addU32, addIn_of_lt (by omega), ok_bind, hstringsSlice, ok_bind]

lemma length_writeReservedMemory (fdt : Fdt) :
    fdt.writeReservedMemory.length = 16 * (fdt.reservedMemory.length + 1) := by
  have hent : ∀ e : FdtReserveEntry, e.writeBlob.length = 16 := fun e => by
    simp [writeBlob]
  unfold writeReservedMemory
  rw [length_append, length_flatMap]
  simp only [hent, map_const', sum_replicate_nat]
  omega

lemma Writable.readsBack {fdt : Fdt} (h : fdt.Writable)
    (hs : fdt.layout.blob.length < u32Size) :
    ∃ blob fdt₁ fdt₂, fdt.finish = .ok (blob, fdt₁) ∧ fromBlob blob = .ok fdt₂ ∧
      fdt₂.bootCpuidPhys = fdt.bootCpuidPhys ∧ fdt₂.reservedMemory = fdt.reservedMemory ∧
      fdt₂.root = fdt.root := by
  obtain ⟨pad₁, pad₂, hf, hfin⟩ := finish_eq hs
  have hrs := fdt.length_writeReservedMemory
  have hl : (fdt.root.writeBlob fdt.strings).2.strings.length < u32Size := by omega
  have hrd := h.valid.readsBack
  obtain ⟨hok, _⟩ := hrd fdt.strings _ h.strings prefix_rfl hl
  obtain ⟨T, hT, hb⟩ := hok.fromBlob hl
  have hr := hrd.fromBlob h.strings (T := T) (hb ▸ prefix_rfl) (hb ▸ hl) pad₂
  refine ⟨_, _, ⟨fdt.reservedMemory, fdt.root, T, fdt.bootCpuidPhys⟩, hfin, ?_, rfl, rfl, rfl⟩
  rw [fromBlob_blocks _ (by rw [length_append]; omega) hf]
  have hm : ∀ fuel rest, fdt.reservedMemory.length < fuel →
      parseReservedMemory fuel (fdt.writeReservedMemory ++ rest) = .ok fdt.reservedMemory := by
    intro fuel rest hfl
    rw [writeReservedMemory, append_assoc]
    exact parseReservedMemory_append _ fuel rest h.reserved hfl
  dsimp only
  rw [append_assoc, hm _ _ (by rw [length_append]; omega), ok_bind, hT, ok_bind, hr, ok_bind]

end Fdt

/-! ## Building a tree -/

/-- The calls that build a tree. A node is reached through the names of its ancestors. -/
inductive BuildOp where
  | setBootCpuidPhys (id : BitVec 32)
  | subnodeMut (path : List Str) (name : Str)
  | setProp (path : List Str) (name : Str) (value : Blob)

/-- A call that fails leaves the node as it was. -/
def FdtNode.attempt (f : FdtNode → Outcome Error FdtNode) (node : FdtNode) : FdtNode :=
  match f node with
  | .ok node' => node'
  | _ => node

namespace Fdt

def step (fdt : Fdt) : BuildOp → Fdt
  | .setBootCpuidPhys id => fdt.setBootCpuidPhys id
  | .subnodeMut path name =>
    { fdt with root := fdt.root.modifyAt (FdtNode.attempt (·.subnodeMut name)) path }
  | .setProp path name value =>
    { fdt with root := fdt.root.modifyAt (FdtNode.attempt (·.setProp name value)) path }

def build (memReservations : List FdtReserveEntry) (ops : List BuildOp) : Fdt :=
  ops.foldl step (new memReservations)

end Fdt

namespace FdtNode

def Keeps (f : FdtNode → FdtNode) : Prop :=
  ∀ n : FdtNode, n.Valid → (f n).Valid ∧ (f n).name = n.name

lemma Keeps.modifyAt {f : FdtNode → FdtNode} (hf : Keeps f) (path : List Str) :
    Keeps (FdtNode.modifyAt f path) := by
  induction path with
  | nil => exact hf
  | cons name path ih =>
    intro n hn
    obtain ⟨hnm, hp, hd, hs⟩ := hn
    rename_i nodeName props subnodes
    have hc : ∀ child ∈ subnodes,
        ((if child.name = name then FdtNode.modifyAt f path child else child).Valid ∧
          (if child.name = name then FdtNode.modifyAt f path child else child).name =
            child.name) := by
      intro child hc
      split
      · exact ih child (hs child hc)
      · exact ⟨hs child hc, rfl⟩
    refine ⟨.mk hnm hp ?_ ?_, rfl⟩
    · refine (congrArg List.Nodup ?_).mpr hd
      rw [map_map]
      exact map_congr_left fun child h => (hc child h).2
    · exact forall_mem_map.mpr fun child hm => (hc child hm).1

lemma keeps_attempt {f : FdtNode → Outcome Error FdtNode}
    (hf : ∀ n n' : FdtNode, n.Valid → f n = .ok n' → n'.Valid ∧ n'.name = n.name) :
    Keeps (attempt f) := by
  intro n hn
  unfold attempt
  split
  · rename_i n' h
    exact hf n n' hn h
  · exact ⟨hn, rfl⟩

lemma keeps_setProp {name : Str} {value : Blob} (hne : name ≠ []) :
    Keeps (attempt (·.setProp name value)) := by
  refine keeps_attempt fun n n' hn h => ?_
  obtain ⟨hnm, hpr, hd, hs⟩ := hn
  unfold setProp at h
  split at h
  · cases h
  rename_i hv
  split at h
  · rename_i hsz
    cases ok.inj h
    refine ⟨.mk hnm (fun p hp => ?_) hd hs, rfl⟩
    rcases IndexMap.mem_insert hp with rfl | hp
    · exact ⟨by simpa using hv, hne, hsz⟩
    · exact hpr p hp
  · cases h

lemma keeps_subnodeMut {name : Str} : Keeps (attempt (·.subnodeMut name)) := by
  refine keeps_attempt fun n n' hn h => ?_
  unfold subnodeMut at h
  split at h
  · cases ok.inj h
    exact ⟨hn, rfl⟩
  · rename_i hnn
    obtain ⟨child, hc, h⟩ := bind_eq_ok.mp h
    cases ok.inj h
    obtain ⟨rfl, hv, _⟩ := (yields_iff.mp (new_yields name .empty [])).2 _ hc
    obtain ⟨hnm, hp, hd, hs⟩ := hn
    refine ⟨.mk hnm hp ?_ ?_, rfl⟩
    · rw [map_append]
      refine nodup_append.mpr ⟨hd, nodup_singleton _, ?_⟩
      rintro a ha _ hb rfl
      obtain ⟨sibling, hm, rfl⟩ := mem_map.mp ha
      have hne := find?_eq_none.mp hnn sibling hm
      exact hne (by simpa using mem_singleton.mp hb)
    · exact forall_mem_append.mpr ⟨hs, forall_mem_singleton.mpr (.mk hv nofun .nil nofun)⟩

end FdtNode

namespace Fdt
variable {fdt : Fdt}

lemma Writable.setRoot (h : fdt.Writable) {f : FdtNode → FdtNode} (hf : FdtNode.Keeps f)
    (path : List Str) : Writable { fdt with root := fdt.root.modifyAt f path } :=
  ⟨(hf.modifyAt path _ h.valid).1, h.reserved, h.strings⟩

lemma Writable.step (h : fdt.Writable) {op : BuildOp}
    (hop : ∀ path value, op ≠ .setProp path [] value) : (fdt.step op).Writable := by
  cases op with
  | setBootCpuidPhys id => exact ⟨h.valid, h.reserved, h.strings⟩
  | subnodeMut path name => exact h.setRoot FdtNode.keeps_subnodeMut path
  | setProp path name value =>
    refine h.setRoot (FdtNode.keeps_setProp ?_) path
    rintro rfl
    exact hop path value rfl

lemma Writable.run (h : fdt.Writable) {ops : List BuildOp}
    (ho : ∀ path value, .setProp path [] value ∉ ops) : (ops.foldl Fdt.step fdt).Writable := by
  induction ops generalizing fdt with
  | nil => exact h
  | cons op ops ih =>
    refine ih (h.step fun path value hop => ?_) fun path value hm => ?_
    · exact ho path value (hop ▸ mem_cons_self)
    · exact ho path value (mem_cons_of_mem _ hm)

lemma writable_new {memReservations : List FdtReserveEntry}
    (h : .terminator ∉ memReservations) : (new memReservations).Writable :=
  ⟨.mk (by decide) nofun .nil nofun, h, FdtStrings.ok_default⟩

lemma writable_of_fromBlob {input : Blob} (h : fromBlob input = .ok fdt) : fdt.Writable := by
  have hl := (yields_iff.mp (fromBlob_yields input)).2 fdt h
  obtain ⟨block, hb⟩ := hl.strings
  exact ⟨hl.valid, hl.reserved, FdtStrings.ok_of_fromBlob hb⟩

/-- **Round trip.** A tree that was built, or loaded from any bytes, and whose blob is smaller
than 4 GiB is written, and loading the blob gives the tree again. -/
theorem round_trip (fdt : Fdt) (hfdt : (∃ memReservations ops, .terminator ∉ memReservations ∧
        (∀ path value, .setProp path [] value ∉ ops) ∧ fdt = build memReservations ops) ∨
      ∃ input, fromBlob input = .ok fdt) (hsize : fdt.layout.blob.length < u32Size) :
    ∃ blob fdt₁ fdt₂, fdt.finish = .ok (blob, fdt₁) ∧ fromBlob blob = .ok fdt₂ ∧
      fdt₂.bootCpuidPhys = fdt.bootCpuidPhys ∧ fdt₂.reservedMemory = fdt.reservedMemory ∧
      fdt₂.root = fdt.root := by
  refine Writable.readsBack ?_ hsize
  rcases hfdt with ⟨memReservations, ops, hm, ho, rfl⟩ | ⟨input, hi⟩
  · exact (writable_new hm).run ho
  · exact writable_of_fromBlob hi

/-- A reservation, and a child `cpus` with a property `reg`. -/
def cpusTree : Fdt :=
  build [⟨0x80000000, 0x1000⟩] [.setBootCpuidPhys 1, .subnodeMut [] [0x63, 0x70, 0x75, 0x73],
    .setProp [[0x63, 0x70, 0x75, 0x73]] [0x72, 0x65, 0x67] [0, 0, 0, 1, 2]]

theorem round_trip_cpus :
    (∃ blob fdt₁ fdt₂, cpusTree.finish = .ok (blob, fdt₁) ∧ fromBlob blob = .ok fdt₂ ∧
      fdt₂.root = cpusTree.root) ∧
    ∃ fdt, fromBlob smallBlob = .ok fdt ∧ ∃ blob fdt₁ fdt₂, fdt.finish = .ok (blob, fdt₁) ∧
      fromBlob blob = .ok fdt₂ ∧ fdt₂.root = fdt.root := by
  constructor
  · obtain ⟨blob, fdt₁, fdt₂, hf, hl, _, _, hr⟩ :=
      round_trip cpusTree (.inl ⟨_, _, by decide, by simp, rfl⟩) (by decide +kernel)
    exact ⟨blob, fdt₁, fdt₂, hf, hl, hr⟩
  · obtain ⟨fdt, hfdt, hs⟩ : ∃ fdt, fromBlob smallBlob = .ok fdt ∧
        fdt.layout.blob.length < u32Size := exists_ok (by decide +kernel)
    obtain ⟨blob, fdt₁, fdt₂, hf, hl, _, _, hr⟩ := round_trip fdt (.inr ⟨smallBlob, hfdt⟩) hs
    exact ⟨fdt, hfdt, blob, fdt₁, fdt₂, hf, hl, hr⟩

end Fdt

end GunyahVmm.CrosFdt
