import GunyahVmm.CrosFdt.ParseSafety

/-! The parser reads back what the writer writes. A name keeps its offset when strings are added. -/

namespace GunyahVmm.CrosFdt
open Run Outcome List

/-! ## Numbers and names -/

variable {s name : Str}

lemma consume_append {data rest : Blob} {n : Nat} (h : data.length = n) :
    consume (data ++ rest) n = .ok (data, rest) := by
  subst h
  unfold consume
  rw [if_neg (by rw [length_append]; omega), take_left, drop_left]

lemma rdu32_append (v : BitVec 32) (rest : Blob) :
    rdu32 (beBytes32 v ++ rest) = .ok (v, rest) := by
  obtain ⟨a, b, c, d, hby, hv⟩ := exists_beBytes32 v
  have hc : consume ([a, b, c, d] ++ rest) 4 = .ok ([a, b, c, d], rest) := consume_append rfl
  unfold rdu32
  rw [hby, hc, ok_bind]
  dsimp only
  rw [hv]

lemma rdu64_append (v : BitVec 64) (rest : Blob) :
    rdu64 (beBytes64 v ++ rest) = .ok (v, rest) := by
  obtain ⟨a, b, c, d, hhi, hv⟩ := exists_beBytes32 (v.extractLsb' 32 32)
  obtain ⟨e, f, g, h, hlo, hw⟩ := exists_beBytes32 (v.extractLsb' 0 32)
  have hc : consume ([a, b, c, d] ++ [e, f, g, h] ++ rest) 8 =
      .ok ([a, b, c, d, e, f, g, h], rest) := consume_append rfl
  unfold rdu64 beBytes64
  rw [hhi, hlo, hc, ok_bind]
  dsimp only
  rw [hv, hw, BitVec.extractLsb'_append_extractLsb'_eq_extractLsb' (by rfl)]
  rw [BitVec.extractLsb'_eq_self]

lemma readToken_append {token : BitVec 32} (ht : token ≠ fdtNop) (fuel : Nat) (rest : Blob) :
    FdtNode.readToken (fuel + 1) (beBytes32 token ++ rest) = .ok (token, rest) := by
  rw [FdtNode.readToken, rdu32_append]
  exact if_pos ht

lemma validUtf8_of_ascii (h : ∀ c ∈ s, c < 0x80#8) : validUtf8 s = true := by
  induction s with
  | nil => rfl
  | cons c s ih =>
    rw [validUtf8.eq_def]
    dsimp only
    rw [if_pos (h c mem_cons_self)]
    exact ih (forall_mem_cons.mp h).2

/-- A string that can stand in a blob: it can be read as UTF-8, and has no zero byte. -/
structure PlainStr (s : Str) : Prop where
  utf8 : validUtf8 s = true
  noNul : (0 : BitVec 8) ∉ s

lemma plainStr_of_all {p : BitVec 8 → Bool} (h : s.all p = true)
    (hp : ∀ c, p c = true → c ≠ 0 ∧ c < 0x80#8) : PlainStr s := by
  have ha : ∀ c ∈ s, c ≠ 0 ∧ c < 0x80#8 := fun c hc => hp c (all_eq_true.mp h c hc)
  exact ⟨validUtf8_of_ascii fun c hc => (ha c hc).2, fun h0 => (ha 0 h0).1 rfl⟩

lemma plainStr_of_propName (h : isValidPropName name = true) : PlainStr name :=
  plainStr_of_all h (by decide +kernel)

lemma plainStr_of_nodeName (h : isValidNodeName name = true) : PlainStr name := by
  unfold isValidNodeName at h
  split at h
  · cases h
  · exact plainStr_of_all h (by decide +kernel)

lemma cStrToString_append (hs : PlainStr s) (rest : Blob) :
    cStrToString (s ++ 0 :: rest) = some s := by
  have hi : (s ++ 0 :: rest).findIdx? (· = 0) = some s.length := by
    rw [findIdx?_append, findIdx?_eq_none_iff.mpr]
    · rw [findIdx?_cons]
      simp
    · intro c hc
      simp only [decide_eq_false_iff_not]
      rintro rfl
      exact hs.noNul hc
  unfold cStrToString
  rw [hi]
  dsimp only
  rw [take_left, if_pos hs.utf8]

/-! ## Strings block -/

/-- The name stands at the offset, with a zero byte behind it. -/
def Found (strings : Blob) (off : BitVec 32) (name : Str) : Prop :=
  ∃ pre post, strings = pre ++ (name ++ 0 :: post) ∧ off.toNat = pre.length

lemma Found.mono {strings strings' : Blob} {off : BitVec 32} (h : Found strings off name)
    (hs : strings <+: strings') : Found strings' off name := by
  obtain ⟨pre, post, rfl, ho⟩ := h
  obtain ⟨more, rfl⟩ := hs
  exact ⟨pre, post ++ more, by simp, ho⟩

def cleanParts : List Blob → Bool
  | [] => true
  | part :: parts => part.isEmpty || (validUtf8 part && cleanParts parts)

namespace FdtStrings
variable {s : FdtStrings} {name : Str}

lemma atOffset_of_found {off : BitVec 32} (h : Found s.strings off name) (hn : PlainStr name)
    (hne : name ≠ []) : s.atOffset off = some name := by
  obtain ⟨pre, post, hs, ho⟩ := h
  unfold atOffset
  rw [hs, ho, drop_left, cStrToString_append hn]
  simpa [Option.filter] using hne

/-- The offsets lead to their names, and the block can be loaded. -/
structure Ok (s : FdtStrings) : Prop where
  found : ∀ e ∈ s.stringOffsets.entries, Found s.strings e.2 e.1
  terminated : s.strings.getLast?.any (· ≠ 0) = false
  clean : cleanParts (splitBytes 0 s.strings) = true

lemma ok_default : Ok default := ⟨nofun, rfl, rfl⟩

lemma internString_extends (s : FdtStrings) (name : Str) :
    s.strings <+: (s.internString name).2.strings := by
  unfold internString
  split
  · exact prefix_rfl
  · exact ⟨name ++ [0], by simp⟩

lemma cleanParts_append (hn : validUtf8 name = true) (parts : List Blob) :
    cleanParts (parts ++ [[]]) = true → cleanParts (parts ++ [name, []]) = true := by
  induction parts with
  | nil => simp [cleanParts, hn]
  | cons part parts ih =>
    simp only [cons_append, cleanParts, Bool.or_eq_true, Bool.and_eq_true]
    exact Or.imp_right (And.imp_right ih)

lemma Ok.append (h : s.Ok) (hn : PlainStr name) (hl : s.strings.length < u32Size) :
    Ok ⟨s.strings ++ name ++ [0],
      s.stringOffsets.insert name (BitVec.ofNat 32 s.strings.length)⟩ := by
  refine ⟨?_, by simp, ?_⟩
  · intro e he
    rcases IndexMap.mem_insert he with rfl | he
    · refine ⟨s.strings, [], by simp, ?_⟩
      exact Nat.mod_eq_of_lt hl
    · exact (h.found e he).mono ⟨name ++ [0], by simp⟩
  · have ho : splitBytes 0 (name ++ [0]) = [name, []] := by
      rw [splitBytes_append, splitBytes_of_not_mem hn.noNul]
      rfl
    have hc := h.clean
    rw [append_assoc]
    rcases eq_nil_or_concat h.terminated with hnil | ⟨a, ha⟩
    · rw [hnil, nil_append, ho]
      exact cleanParts_append hn.utf8 [] rfl
    · rw [ha, splitBytes_append] at hc
      rw [ha, append_assoc, singleton_append, splitBytes_append, ho]
      exact cleanParts_append hn.utf8 _ hc

lemma Ok.internString (h : s.Ok) (hn : PlainStr name)
    (hl : (s.internString name).2.strings.length < u32Size) :
    (s.internString name).2.Ok ∧
      Found (s.internString name).2.strings (s.internString name).1 name := by
  have hle := (s.internString_extends name).length_le
  revert hl
  unfold FdtStrings.internString at hle ⊢
  split
  · rename_i off hg
    exact fun _ => ⟨h, h.found _ (IndexMap.mem_of_get hg)⟩
  · intro hl
    have hlt : s.strings.length < u32Size := by
      simp only [length_append] at hl
      omega
    exact ⟨h.append hn hlt, s.strings, [], by simp, Nat.mod_eq_of_lt hlt⟩

end FdtStrings

/-! ## Nodes -/

namespace FdtNode
variable (props : List (Str × Blob))

lemma writeProps_extends : ∀ s : FdtStrings,
    s.strings <+: (writeProps props s).2.strings := by
  induction props with
  | nil => exact fun _ => prefix_rfl
  | cons prop props ih => exact fun s => (s.internString_extends prop.1).trans (ih _)

mutual

lemma writeBlob_extends : ∀ (node : FdtNode) (s : FdtStrings),
    s.strings <+: (writeBlob node s).2.strings
  | ⟨name, props, subnodes⟩, s => by
    rw [writeBlob]
    exact (writeProps_extends props.entries s).trans (writeSubnodes_extends subnodes _)

lemma writeSubnodes_extends : ∀ (nodes : List FdtNode) (s : FdtStrings),
    s.strings <+: (writeSubnodes nodes s).2.strings
  | [], s => prefix_rfl
  | node :: nodes, s => by
    rw [writeSubnodes]
    exact (writeBlob_extends node s).trans (writeSubnodes_extends nodes _)

end

variable {T : FdtStrings}

def PropOk (p : Str × Blob) : Prop := isValidPropName p.1 = true ∧ p.1 ≠ [] ∧ p.2.length < u32Size

lemma length_le_writeProps : ∀ s : FdtStrings,
    props.length ≤ (writeProps props s).1.length := by
  induction props with
  | nil => exact fun _ => Nat.zero_le _
  | cons prop props ih =>
    intro s
    have hr := ih (writeProp prop s).2
    simp only [writeProps, writeProp, length_append, length_cons,
      length_beBytes32] at hr ⊢
    omega

/-- A property is read back into a node that has no such property yet. -/
lemma parseProp_append {prop : Str × Blob} {s : FdtStrings} {st : Contents} (hs : s.Ok)
    (hT : (writeProp prop s).2.strings <+: T.strings) (hlen : T.strings.length < u32Size)
    (hp : PropOk prop) (hst : st.encounteredSubnode = false) :
    (writeProp prop s).2.Ok ∧ ∃ body, (writeProp prop s).1 = beBytes32 fdtProp ++ body ∧
      ∀ rest, parseProp T st (body ++ rest) =
        .ok ({ st with props := st.props.insert prop.1 prop.2 }, rest) := by
  obtain ⟨hv, hne, hsz⟩ := hp
  have hpl := plainStr_of_propName hv
  obtain ⟨hok, hf⟩ := hs.internString hpl (lt_of_le_of_lt hT.length_le hlen)
  have hn := FdtStrings.atOffset_of_found (hf.mono hT) hpl hne
  have hl : (BitVec.ofNat 32 prop.2.length).toNat = prop.2.length := Nat.mod_eq_of_lt hsz
  refine ⟨hok, beBytes32 (BitVec.ofNat 32 prop.2.length) ++
    (beBytes32 (s.internString prop.1).1 ++ (prop.2 ++
      replicate (alignPadLen prop.2.length 4) 0)), ?_, fun rest => ?_⟩
  · simp [writeProp]
  · unfold parseProp
    rw [if_neg (by simp [hst]), append_assoc, rdu32_append, ok_bind]
    dsimp only
    rw [append_assoc, rdu32_append, ok_bind]
    rw [hl, consume_append (by simp), ok_bind]
    rw [hn, okOr, ok_bind]
    have hsl : slice (prop.2 ++ replicate (alignPadLen prop.2.length 4) 0) 0
        prop.2.length = .ok prop.2 := by
      unfold slice
      rw [if_pos (by simp), drop_zero, Nat.sub_zero, take_left]
    rw [hsl, ok_bind]

lemma parseContents_props : ∀ (s : FdtStrings) (st : Contents)
    (fuel : Nat) (rest : Blob), s.Ok → (writeProps props s).2.strings <+: T.strings →
    T.strings.length < u32Size → (∀ p ∈ props, PropOk p) → st.encounteredSubnode = false →
    ∀ hnd : ((st.props.entries ++ props).map Prod.fst).Nodup, (writeProps props s).2.Ok ∧
      parseContents T (fuel + props.length) st ((writeProps props s).1 ++ rest) =
        parseContents T fuel { st with props := ⟨st.props.entries ++ props, hnd⟩ } rest := by
  induction props with
  | nil =>
    intro s st fuel rest hs _ _ _ _ hnd
    refine ⟨hs, ?_⟩
    simp [writeProps]
  | cons prop props ih =>
    intro s st fuel rest hs hT hl hpr hst hnd
    have hT₁ : (writeProp prop s).2.strings <+: T.strings := (writeProps_extends props _).trans hT
    obtain ⟨hok, body, hby, hpa⟩ := parseProp_append hs hT₁ hl (hpr prop mem_cons_self) hst
    have hn : prop.1 ∉ st.props.entries.map Prod.fst := by
      rw [map_append] at hnd
      intro hm
      exact (nodup_append.mp hnd).2.2 _ hm _ mem_cons_self rfl
    have hi : (st.props.insert prop.1 prop.2).entries = st.props.entries ++ [prop] :=
      IndexMap.insertList_of_not_mem hn
    have hnd' : (((st.props.insert prop.1 prop.2).entries ++ props).map Prod.fst).Nodup := by
      rw [hi, append_assoc]
      exact hnd
    obtain ⟨hok', hr⟩ := ih (writeProp prop s).2
      { st with props := st.props.insert prop.1 prop.2 } fuel rest hok hT hl
      (forall_mem_cons.mp hpr).2 hst hnd'
    refine ⟨hok', ?_⟩
    rw [length_cons, ← Nat.add_assoc, parseContents]
    simp only [writeProps, hby, append_assoc]
    rw [readToken_append (by decide), ok_bind]
    dsimp only
    rw [if_neg (by decide), if_neg (by decide), if_pos rfl, hpa, ok_bind]
    simp only [hr]
    congr 3
    rw [hi, append_assoc, singleton_append]

/-- The node is read back, with any strings before those it needs and any bytes behind its own. -/
def ReadsBack (node : FdtNode) : Prop :=
  ∀ s T : FdtStrings, s.Ok → (writeBlob node s).2.strings <+: T.strings →
    T.strings.length < u32Size →
    (writeBlob node s).2.Ok ∧ ∃ body, (writeBlob node s).1 = beBytes32 fdtBeginNode ++ body ∧
      ∀ fuel rest, body.length ≤ fuel → parseNode T fuel (body ++ rest) = .ok (node, rest)

lemma parseContents_nodes (nodes : List FdtNode) : ∀ (s : FdtStrings) (st : Contents)
    (fuel : Nat) (rest : Blob), s.Ok → (writeSubnodes nodes s).2.strings <+: T.strings →
    T.strings.length < u32Size → (∀ n ∈ nodes, n.ReadsBack) →
    ((st.subnodes ++ nodes).map FdtNode.name).Nodup → (writeSubnodes nodes s).1.length + 4 ≤ fuel →
    (writeSubnodes nodes s).2.Ok ∧ ∃ flag,
      parseContents T fuel st ((writeSubnodes nodes s).1 ++ (beBytes32 fdtEndNode ++ rest)) =
        .ok (⟨st.props, st.subnodes ++ nodes, flag⟩, rest) := by
  induction nodes with
  | nil =>
    intro s st fuel rest hs _ _ _ _ hf
    obtain ⟨f, rfl⟩ : ∃ f, fuel = f + 1 := ⟨fuel - 1, by omega⟩
    refine ⟨hs, st.encounteredSubnode, ?_⟩
    rw [writeSubnodes, nil_append, parseContents, readToken_append (by decide), ok_bind]
    dsimp only
    rw [if_neg (by decide), if_pos rfl, append_nil]
  | cons node nodes ih =>
    intro s st fuel rest hs hT hl hno hnd hf
    rw [writeSubnodes] at hT hf ⊢
    obtain ⟨hok, body, hby, hp⟩ := hno node mem_cons_self s T hs
      ((writeSubnodes_extends nodes _).trans hT) hl
    have hnew : st.subnodes.any (·.name = node.name) = false := by
      rw [any_eq_false]
      intro n hn hnm
      rw [map_append] at hnd
      exact (nodup_append.mp hnd).2.2 _ (mem_map_of_mem hn) _ mem_cons_self
        (by simpa using hnm)
    simp only [hby, length_append, length_beBytes32] at hf
    obtain ⟨f, rfl⟩ : ∃ f, fuel = f + 1 := ⟨fuel - 1, by omega⟩
    obtain ⟨hok', flag, hr⟩ := ih (writeBlob node s).2
      { st with subnodes := st.subnodes ++ [node], encounteredSubnode := true } f rest hok hT
      hl (forall_mem_cons.mp hno).2 (by simpa using hnd) (by omega)
    refine ⟨hok', flag, ?_⟩
    rw [parseContents]
    simp only [hby, append_assoc]
    rw [readToken_append (by decide), ok_bind]
    rw [if_pos rfl, hp f _ (by omega), ok_bind]
    rw [hnew, if_neg (by simp), hr, append_assoc, singleton_append]

/-- **Nodes.** Every valid node is read back. -/
lemma Valid.readsBack {node : FdtNode} (h : node.Valid) : node.ReadsBack := by
  induction h with
  | @mk name props subnodes hn hpr hd _ ih =>
    intro s T hs hT hl
    rw [writeBlob] at hT ⊢
    have hp' : ∀ p ∈ props.entries, PropOk p := hpr
    have hT₁ := (writeSubnodes_extends subnodes (writeProps props.entries s).2).trans hT
    have hok₁ : (writeProps props.entries s).2.Ok :=
      (parseContents_props props.entries s ⟨.empty, [], false⟩ 0 [] hs hT₁ hl hp' rfl
        props.nodup).1
    have hok₂ : (writeSubnodes subnodes (writeProps props.entries s).2).2.Ok :=
      (parseContents_nodes subnodes _ ⟨.empty, [], false⟩ _ [] hok₁ hT hl ih hd
        (le_refl _)).1
    refine ⟨hok₂, (name ++ [0] ++ replicate (alignPadLen (name.length + 1) 4) 0) ++
      ((writeProps props.entries s).1 ++
        ((writeSubnodes subnodes (writeProps props.entries s).2).1 ++ beBytes32 fdtEndNode)),
      by simp [writeName], fun fuel rest hf => ?_⟩
    have hcnt := length_le_writeProps props.entries s
    simp only [length_append, length_singleton, length_beBytes32] at hf
    obtain ⟨f, rfl⟩ : ∃ f, fuel = (f + props.entries.length) + 1 :=
      ⟨fuel - 1 - props.entries.length, by omega⟩
    have hpl := plainStr_of_nodeName hn
    obtain ⟨_, hc⟩ := parseContents_props props.entries s ⟨.empty, [], false⟩ f
      ((writeSubnodes subnodes (writeProps props.entries s).2).1 ++
        (beBytes32 fdtEndNode ++ rest)) hs hT₁ hl hp' rfl props.nodup
    obtain ⟨_, flag, hnd⟩ := parseContents_nodes subnodes (writeProps props.entries s).2
      ⟨⟨props.entries, props.nodup⟩, [], false⟩ f rest hok₁ hT hl ih hd (by omega)
    have hnew : new name ⟨props.entries, props.nodup⟩ subnodes = .ok ⟨name, props, subnodes⟩ := by
      unfold new
      rw [if_neg (by simp [hn]), find?_eq_none.mpr]
      exact forall_mem_map.mpr fun p hp => by simp [(hpr p hp).1]
    have hstr : ∀ more, cStrToString (name ++ [0] ++
        replicate (alignPadLen (name.length + 1) 4) 0 ++ more) = some name := by
      intro more
      simp only [append_assoc]
      exact cStrToString_append hpl _
    rw [parseNode, append_assoc, hstr, okOr, ok_bind]
    dsimp only
    rw [consume_append (by simp only [length_append, length_singleton,
      length_replicate]), ok_bind]
    simp only [append_assoc]
    rw [hc]
    simp only [nil_append, IndexMap.empty] at hnd ⊢
    rw [hnd, ok_bind]
    rw [hnew, ok_bind]

end FdtNode

end GunyahVmm.CrosFdt
