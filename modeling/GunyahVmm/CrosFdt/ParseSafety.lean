import GunyahVmm.CrosFdt.Fdt

/-! Loading a device tree from any bytes. Every reader returns a suffix of its input. -/

namespace GunyahVmm.CrosFdt
open Run Outcome List

/-! ## Readers -/

variable {n : Nat} {input : Blob} {sep : BitVec 8} (data : Blob)

lemma consume_yields (bytes : Blob) (n : Nat) :
    (consume bytes n).Yields fun p => bytes = p.1 ++ p.2 ∧ p.1.length = n := by
  unfold consume
  split
  · trivial
  refine ⟨(take_append_drop n bytes).symm, ?_⟩
  rw [length_take]
  omega

/-- What a reader leaves of its input, of which it has taken at least `n` bytes. -/
def Leaves (n : Nat) (input rest : Blob) : Prop := rest <:+ input ∧ rest.length + n ≤ input.length

lemma leaves_of_append {data rest : Blob} (h : n ≤ data.length) : Leaves n (data ++ rest) rest :=
  ⟨suffix_append data rest, by rw [length_append]; omega⟩

lemma Leaves.trans {k : Nat} {a b c : Blob} (hab : Leaves n a b) (hbc : Leaves k b c) :
    Leaves (n + k) a c := by
  obtain ⟨hs, hab⟩ := hab
  obtain ⟨hsbc, hbc⟩ := hbc
  exact ⟨hsbc.trans hs, by omega⟩

lemma Leaves.mono {k : Nat} {a b : Blob} (h : Leaves n a b) (hk : k ≤ n) : Leaves k a b :=
  ⟨h.1, by have := h.2; omega⟩

lemma rdu32_yields : (rdu32 data).Yields fun p => Leaves 4 data p.2 := by
  refine (consume_yields data 4).bind ?_
  rintro ⟨bytes, rest⟩ ⟨rfl, hl⟩
  match bytes, hl with
  | [a, b, c, d], _ => exact leaves_of_append (le_refl _)

lemma rdu64_yields : (rdu64 data).Yields fun p => Leaves 8 data p.2 := by
  refine (consume_yields data 8).bind ?_
  rintro ⟨bytes, rest⟩ ⟨rfl, hl⟩
  match bytes, hl with
  | [a, b, c, d, e, f, g, h], _ => exact leaves_of_append (le_refl _)

lemma slice_yields {lo hi : Nat} (hlo : lo ≤ hi) (hhi : hi ≤ input.length) :
    (slice input lo hi).Yields fun b => b <:+: input ∧ b.length = hi - lo := by
  unfold slice
  rw [if_pos ⟨hlo, hhi⟩]
  refine ⟨( take_prefix _ _).isInfix.trans (drop_suffix _ _).isInfix, ?_⟩
  rw [length_take, length_drop]
  omega

lemma okOr_yields {α : Type} {x : Option α} {e : Error} :
    (okOr x e).Yields fun a => x = some a := by
  cases x <;> simp [okOr]

/-! ## Reserved memory and strings -/

lemma FdtReserveEntry.fromBlob_yields (input : Blob) :
    (FdtReserveEntry.fromBlob input).Yields fun p => Leaves 16 input p.2 := by
  refine (rdu64_yields input).bind fun p hp => ?_
  exact (rdu64_yields p.2).bind fun q hq => hp.trans hq

lemma Fdt.parseReservedMemory_yields (fuel : Nat) : ∀ input : Blob, input.length < fuel →
    (Fdt.parseReservedMemory fuel input).Yields fun entries => .terminator ∉ entries := by
  induction fuel with
  | zero =>
    intro input h
    omega
  | succ fuel ih =>
    intro input h
    refine (FdtReserveEntry.fromBlob_yields input).bind ?_
    rintro ⟨entry, rest⟩ hr
    dsimp only
    split
    · simp
    rename_i hent
    refine (ih rest (by have := hr.2; dsimp only at this; omega)).bind fun entries hno => ?_
    simp only [yields_ok, mem_cons, not_or]
    exact ⟨Ne.symm hent, hno⟩

lemma sum_splitBytes (sep : BitVec 8) (input : Blob) :
    ((splitBytes sep input).map fun part => part.length + 1).sum = input.length + 1 := by
  induction input with
  | nil => simp [splitBytes]
  | cons b rest ih =>
    simp only [splitBytes]
    split
    · simp only [map_cons, sum_cons, ih, length_nil, length_cons]
      omega
    · cases hp : splitBytes sep rest with
      | nil => simp [hp] at ih
      | cons part parts =>
        simp only [hp, map_cons, sum_cons, length_cons] at ih ⊢
        omega

lemma splitBytes_ne_nil (sep : BitVec 8) (input : Blob) : splitBytes sep input ≠ [] := by
  cases input with
  | nil => simp [splitBytes]
  | cons b rest =>
    simp only [splitBytes]
    split
    · simp
    · split <;> simp

lemma splitBytes_append (sep : BitVec 8) (a b : Blob) :
    splitBytes sep (a ++ sep :: b) = splitBytes sep a ++ splitBytes sep b := by
  induction a with
  | nil => simp [splitBytes]
  | cons x a ih =>
    simp only [cons_append, splitBytes, ih]
    split
    · rfl
    cases hp : splitBytes sep a with
    | nil => exact absurd hp (splitBytes_ne_nil sep a)
    | cons part parts => rfl

lemma splitBytes_of_not_mem {s : Blob} (h : sep ∉ s) : splitBytes sep s = [s] := by
  induction s with
  | nil => rfl
  | cons c s ih =>
    obtain ⟨hc, hs⟩ := not_or.mp (fun hm => h (mem_cons.mpr hm))
    rw [splitBytes, if_neg (Ne.symm hc), ih hs]

/-- A block that does not end with another byte is empty or ends with the separator. -/
lemma eq_nil_or_concat (h : input.getLast?.any (· ≠ sep) = false) :
    input = [] ∨ ∃ a, input = a ++ [sep] := by
  rcases List.eq_nil_or_concat input with rfl | ⟨a, x, rfl⟩
  · exact .inl rfl
  simpa using h

lemma splitBytes_eq_concat (h : input.getLast?.any (· ≠ sep) = false) :
    ∃ parts, splitBytes sep input = parts ++ [[]] := by
  rcases eq_nil_or_concat h with rfl | ⟨a, rfl⟩
  · exact ⟨[], rfl⟩
  · exact ⟨splitBytes sep a, splitBytes_append sep a []⟩

namespace FdtStrings

lemma collect_yields (parts : List Blob) : ∀ (offset : Nat) (offsets : IndexMap Str (BitVec 32)),
    offset + (parts.map fun part => part.length + 1).sum < u32Size →
    (collect (parts ++ [[]]) offset offsets).Yields fun _ => True := by
  induction parts with
  | nil =>
    intro offset offsets _
    simp [collect]
  | cons part parts ih =>
    intro offset offsets hs
    simp only [map_cons, sum_cons] at hs
    simp only [cons_append, collect]
    split
    · trivial
    split
    · trivial
    split
    · have ha : (addU32 offset (part.length + 1) : Outcome Error Nat) = _ := addIn_of_lt (by omega)
      rw [ha]
      exact ih _ _ (by omega)
    · trivial

lemma fromBlob_yields (h : input.length < u32Size) :
    (fromBlob input).Yields fun s => s.strings = input := by
  unfold fromBlob
  split
  · trivial
  rename_i hl
  obtain ⟨parts, hp⟩ := splitBytes_eq_concat (Bool.eq_false_iff.mpr hl)
  have hs := sum_splitBytes 0 input
  rw [hp] at hs ⊢
  simp only [map_append, sum_append, map_cons, sum_cons] at hs
  refine (collect_yields parts 0 .empty (by omega)).bind fun offsets _ => ?_
  rfl

end FdtStrings

/-! ## Nodes -/

/-- Names keep to the rules and differ among siblings; properties have names and sizes that fit. -/
inductive FdtNode.Valid : FdtNode → Prop
  | mk {name : Str} {props : IndexMap Str Blob} {subnodes : List FdtNode}
      (hname : isValidNodeName name = true)
      (hprops : ∀ p ∈ props.entries,
        isValidPropName p.1 = true ∧ p.1 ≠ [] ∧ p.2.length < u32Size)
      (hdistinct : (subnodes.map FdtNode.name).Nodup)
      (hsubnodes : ∀ n ∈ subnodes, n.Valid) : FdtNode.Valid ⟨name, props, subnodes⟩

/-- Every value of the tree is a part of the block. -/
inductive FdtNode.Within (block : Blob) : FdtNode → Prop
  | mk {name : Str} {props : IndexMap Str Blob} {subnodes : List FdtNode}
      (hprops : ∀ p ∈ props.entries, p.2 <:+: block)
      (hsubnodes : ∀ n ∈ subnodes, n.Within block) : FdtNode.Within block ⟨name, props, subnodes⟩

namespace FdtNode

lemma new_yields (name : Str) (props : IndexMap Str Blob) (subnodes : List FdtNode) :
    (new name props subnodes).Yields fun node => node = ⟨name, props, subnodes⟩ ∧
      isValidNodeName name = true ∧ ∀ p ∈ props.entries, isValidPropName p.1 = true := by
  unfold new
  split
  · trivial
  rename_i hn
  split
  · trivial
  rename_i hnn
  refine ⟨rfl, by simpa using hn, fun p hp => ?_⟩
  simpa using find?_eq_none.mp hnn p.1 (mem_map_of_mem hp)

lemma readToken_yields (fuel : Nat) : ∀ input : Blob, input.length < fuel →
    (readToken fuel input).Yields fun p => Leaves 4 input p.2 := by
  induction fuel with
  | zero =>
    intro input h
    omega
  | succ fuel ih =>
    intro input h
    refine (rdu32_yields input).bind ?_
    rintro ⟨value, rest⟩ hr
    dsimp only at hr ⊢
    split
    · exact hr
    · have hl := hr.2
      exact (ih rest (by omega)).mono fun p hp => (hr.trans hp).mono (by omega)

structure Contents.Ok (block : Blob) (st : Contents) : Prop where
  props : ∀ p ∈ st.props.entries, p.1 ≠ [] ∧ p.2.length < u32Size ∧ p.2 <:+: block
  distinct : (st.subnodes.map FdtNode.name).Nodup
  subnodes : ∀ n ∈ st.subnodes, n.Valid ∧ n.Within block

lemma atOffset_ne_nil {strings : FdtStrings} {off : BitVec 32} {name : Str}
    (h : strings.atOffset off = some name) : name ≠ [] := by
  unfold FdtStrings.atOffset at h
  split at h
  · have hk := (Option.filter_eq_some_iff.mp h).2
    rintro rfl
    cases hk
  · cases h

lemma parseProp_yields {block : Blob} (strings : FdtStrings) {st : Contents} (hst : st.Ok block)
    (hi : input <:+ block) :
    (parseProp strings st input).Yields fun p => p.1.Ok block ∧ Leaves 0 input p.2 := by
  unfold parseProp
  split
  · trivial
  refine (rdu32_yields input).bind ?_
  rintro ⟨propLen, rest₁⟩ h₁
  refine (rdu32_yields rest₁).bind ?_
  rintro ⟨propNameOffset, rest₂⟩ h₂
  refine (consume_yields rest₂ _).bind ?_
  rintro ⟨propBlob, rest₃⟩ ⟨hsp, hl⟩
  dsimp only at h₁ h₂ hsp hl ⊢
  subst hsp
  refine okOr_yields.bind fun propName hn => ?_
  refine (slice_yields (Nat.zero_le _) (by omega)).bind fun value hv => ?_
  refine ⟨⟨?_, hst.distinct, hst.subnodes⟩, ?_⟩
  · intro p hp
    rcases IndexMap.mem_insert hp with rfl | hp
    · refine ⟨atOffset_ne_nil hn, ?_, ?_⟩
      · have hs : u32Size = 2 ^ 32 := rfl
        dsimp only
        omega
      · have hsuf := (h₂.1.trans h₁.1).trans hi
        exact (hv.1.trans (prefix_append _ _).isInfix).trans hsuf.isInfix
    · exact hst.props p hp
  · exact ((h₁.trans h₂).trans (leaves_of_append (Nat.zero_le _))).mono (Nat.zero_le _)

variable (block : Blob) (strings : FdtStrings)

/-- **The parser** returns with fuel for its input; the result is valid and taken from the block. -/
lemma parse_yields (fuel : Nat) :
    (∀ input : Blob, input <:+ block → input.length < fuel →
      (parseNode strings fuel input).Yields fun p =>
        (p.1.Valid ∧ p.1.Within block) ∧ Leaves 0 input p.2) ∧
    (∀ (st : Contents) (input : Blob), st.Ok block → input <:+ block → input.length < fuel →
      (parseContents strings fuel st input).Yields fun p =>
        p.1.Ok block ∧ Leaves 0 input p.2) := by
  induction fuel with
  | zero =>
    constructor
    · intro input _ h
      omega
    · intro st input _ _ h
      omega
  | succ fuel ih =>
    obtain ⟨ihnode, ihcontents⟩ := ih
    constructor
    · intro input hi hlen
      refine okOr_yields.bind fun name _ => ?_
      refine (consume_yields input _).bind ?_
      rintro ⟨skipped, rest⟩ ⟨hs, hsk⟩
      have hl : Leaves 1 input rest := hs ▸ leaves_of_append (by omega)
      have hr : rest.length < fuel := by
        have := hl.2
        omega
      have hemp : Contents.Ok block ⟨.empty, [], false⟩ := ⟨nofun, .nil, nofun⟩
      refine (ihcontents _ rest hemp (hl.1.trans hi) hr).bind ?_
      rintro ⟨st, rest'⟩ ⟨hst, hr'⟩
      refine (new_yields _ _ _).bind ?_
      rintro _ ⟨rfl, hnm, hpr⟩
      refine ⟨⟨.mk hnm (fun p hp => ?_) hst.distinct fun n hn => (hst.subnodes n hn).1,
        .mk (fun p hp => (hst.props p hp).2.2) fun n hn => (hst.subnodes n hn).2⟩, ?_⟩
      · exact ⟨hpr p hp, (hst.props p hp).1, (hst.props p hp).2.1⟩
      · exact (hl.trans hr').mono (Nat.zero_le _)
    · intro st input hst hi hlen
      refine (readToken_yields (fuel + 1) input hlen).bind ?_
      rintro ⟨token, rest⟩ hr
      dsimp only at hr ⊢
      have hsuf := hr.1.trans hi
      have hf : rest.length < fuel := by
        have := hr.2
        omega
      split
      · refine (ihnode rest hsuf hf).bind ?_
        rintro ⟨subnode, rest'⟩ ⟨⟨hv, hw⟩, hr'⟩
        dsimp only at hv hw hr' ⊢
        split
        · trivial
        rename_i hnew
        have hst' : Contents.Ok block
            { st with subnodes := st.subnodes ++ [subnode], encounteredSubnode := true } := by
          refine ⟨hst.props, ?_, ?_⟩
          · rw [map_append]
            refine nodup_append.mpr ⟨hst.distinct, nodup_singleton _, ?_⟩
            rintro a ha _ hb rfl
            obtain ⟨n, hn, rfl⟩ := mem_map.mp ha
            exact hnew (any_eq_true.mpr ⟨n, hn, by simpa using mem_singleton.mp hb⟩)
          · exact forall_mem_append.mpr ⟨hst.subnodes, forall_mem_singleton.mpr ⟨hv, hw⟩⟩
        have hf' : rest'.length < fuel := by
          have := hr'.2
          omega
        refine (ihcontents _ rest' hst' (hr'.1.trans hsuf) hf').mono fun p hp => ?_
        exact ⟨hp.1, ((hr.trans hr').trans hp.2).mono (Nat.zero_le _)⟩
      · split
        · exact ⟨hst, hr.mono (Nat.zero_le _)⟩
        split
        · refine (parseProp_yields strings hst hsuf).bind ?_
          rintro ⟨st', rest'⟩ ⟨hst', hr'⟩
          dsimp only at hst' hr' ⊢
          have hf' : rest'.length < fuel := by
            have := hr'.2
            omega
          refine (ihcontents st' rest' hst' (hr'.1.trans hsuf) hf').mono fun p hp => ?_
          exact ⟨hp.1, ((hr.trans hr').trans hp.2).mono (Nat.zero_le _)⟩
        · split <;> trivial

lemma fromBlob_yields :
    (fromBlob block strings).Yields fun root => root.Valid ∧ root.Within block := by
  refine (readToken_yields _ block (Nat.lt_succ_self _)).bind ?_
  rintro ⟨first, rest⟩ hr
  dsimp only at hr ⊢
  split
  · trivial
  refine ((parse_yields block strings _).1 rest hr.1 (Nat.lt_succ_self _)).bind ?_
  rintro ⟨root, rest'⟩ ⟨hrt, _⟩
  refine (readToken_yields _ rest' (Nat.lt_succ_self _)).bind fun p _ => ?_
  split
  · trivial
  · exact hrt

end FdtNode

/-! ## Trees -/

namespace FdtHeader

lemma readFields_yields (input : Blob) : (readFields input).Yields fun _ => True := by
  iterate 10 refine (rdu32_yields _).bind fun _ _ => ?_
  trivial

/-- The blocks that the header describes lie in the blob, one behind the other. -/
structure InOrder (h : FdtHeader) : Prop where
  rsvmap : h.offMemRsvmap.toNat < h.offDtStrings.toNat
  struct : h.offDtStruct.toNat + h.sizeDtStruct.toNat ≤ h.offDtStrings.toNat
  strings : h.offDtStrings.toNat + h.sizeDtStrings.toNat ≤ h.totalSize.toNat
  stringsFit : h.offDtStrings.toNat + h.sizeDtStrings.toNat < u32Size

lemma check_yields (h : FdtHeader) : h.check.Yields fun h' => h' = h ∧ h.InOrder := by
  unfold check
  iterate 7
    split
    · trivial
  exact ⟨rfl, by omega, by omega, by omega, by omega⟩

lemma fromBlob_yields (input : Blob) : (fromBlob input).Yields InOrder := by
  unfold fromBlob
  split
  · trivial
  refine (readFields_yields input).bind fun h _ => (check_yields h).mono ?_
  rintro _ ⟨rfl, ho⟩
  exact ho

def structBlock (h : FdtHeader) (input : Blob) : Blob :=
  (input.drop h.offDtStruct.toNat).take h.sizeDtStruct.toNat

end FdtHeader

namespace Fdt

structure Loaded (input : Blob) (fdt : Fdt) : Prop where
  valid : fdt.root.Valid
  reserved : .terminator ∉ fdt.reservedMemory
  within : ∃ header, FdtHeader.fromBlob (input.take FdtHeader.SIZE) = .ok header ∧
    header.offDtStruct.toNat + header.sizeDtStruct.toNat ≤ input.length ∧
    fdt.root.Within (header.structBlock input)
  strings : ∃ block, FdtStrings.fromBlob block = .ok fdt.strings

lemma fromBlob_yields (input : Blob) : (fromBlob input).Yields (Loaded input) := by
  refine okOr_yields.bind fun hed hb => ?_
  split at hb
  all_goals cases hb
  · cases hh : FdtHeader.fromBlob (input.take FdtHeader.SIZE) with
    | err e => trivial
    | panic =>
      have hs := FdtHeader.fromBlob_yields (input.take FdtHeader.SIZE)
      rw [hh] at hs
      exact hs
    | ok header =>
      have ho := FdtHeader.fromBlob_yields (input.take FdtHeader.SIZE)
      rw [hh] at ho
      obtain ⟨hrs, hst, hstrs, hf⟩ := ho
      rw [ok_bind]
      split
      · trivial
      refine (slice_yields (by omega) (le_refl _)).bind fun reservedMemBlob hre => ?_
      rw [addU32, addIn_of_lt (by omega), ok_bind]
      cases hsl : slice input header.offDtStruct.toNat
          (header.offDtStruct.toNat + header.sizeDtStruct.toNat) with
      | err e => trivial
      | panic =>
        unfold slice at hsl
        rw [if_pos ⟨by omega, by omega⟩] at hsl
        cases hsl
      | ok nodesBlob =>
        have hn : nodesBlob = header.structBlock input := by
          unfold slice at hsl
          rw [if_pos ⟨by omega, by omega⟩, Nat.add_sub_cancel_left] at hsl
          exact (ok.inj hsl).symm
        rw [addU32, addIn_of_lt (by omega)]
        refine (slice_yields (by omega) (by omega)).bind fun stringsBlob hblk => ?_
        refine (parseReservedMemory_yields _ _ (Nat.lt_succ_self _)).bind
          fun reservedMemory ht => ?_
        have hl : stringsBlob.length < u32Size := by omega
        cases hstr : FdtStrings.fromBlob stringsBlob with
        | err e => trivial
        | panic =>
          have hs := FdtStrings.fromBlob_yields hl
          rw [hstr] at hs
          exact hs
        | ok strings =>
          refine (FdtNode.fromBlob_yields nodesBlob strings).bind fun root hr => ?_
          exact ⟨hr.1, ht, ⟨header, hh, by omega, hn ▸ hr.2⟩, stringsBlob, hstr⟩

/-- **Loading.** Whatever the bytes are, loading neither reads outside of them nor overflows,
and returns. A tree that is loaded has valid names, different ones for siblings, and values
that are parts of the structure block. -/
theorem from_blob_safe (input : Blob) :
    fromBlob input ≠ .panic ∧ ∀ fdt, fromBlob input = .ok fdt →
      fdt.root.Valid ∧ ∃ header, FdtHeader.fromBlob (input.take FdtHeader.SIZE) = .ok header ∧
        header.offDtStruct.toNat + header.sizeDtStruct.toNat ≤ input.length ∧
        fdt.root.Within (header.structBlock input) := by
  obtain ⟨hp, hok⟩ := yields_iff.mp (fromBlob_yields input)
  exact ⟨hp, fun fdt h => ⟨(hok fdt h).valid, (hok fdt h).within⟩⟩

/-- A tree with one property `a` and one child `b`. -/
def smallBlob : Blob :=
  [0xd0, 0x0d, 0xfe, 0xed, 0, 0, 0, 0x6a, 0, 0, 0, 0x38, 0, 0, 0, 0x68, 0, 0, 0, 0x28,
    0, 0, 0, 17, 0, 0, 0, 16, 0, 0, 0, 0, 0, 0, 0, 2, 0, 0, 0, 0x30,
    0, 0, 0, 0, 0, 0, 0, 0, 0, 0, 0, 0, 0, 0, 0, 0,
    0, 0, 0, 1, 0, 0, 0, 0, 0, 0, 0, 3, 0, 0, 0, 3, 0, 0, 0, 0, 1, 2, 3, 0,
    0, 0, 0, 1, 0x62, 0, 0, 0, 0, 0, 0, 2, 0, 0, 0, 2, 0, 0, 0, 9, 0, 0, 0, 0,
    0x61, 0]

theorem from_blob_safe_small :
    ∃ fdt, fromBlob smallBlob = .ok fdt ∧ fdt.root.Valid ∧ fdt.root.subnodes.length = 1 := by
  obtain ⟨fdt, hf, hl⟩ : ∃ fdt, fromBlob smallBlob = .ok fdt ∧ fdt.root.subnodes.length = 1 :=
    exists_ok (by decide +kernel)
  exact ⟨fdt, hf, ((from_blob_safe smallBlob).2 fdt hf).1, hl⟩

end Fdt

end GunyahVmm.CrosFdt
