import GunyahVmm.FwCfg.Device

/-! What the guest reads, compared with its accesses. A selector of an arch-specific item changes
the kind, but not the number, and one that names nothing starts the item over. -/

namespace GunyahVmm.FwCfg
open Run List

/-- An access of the guest, with the buffer of a read or the bytes of a write. -/
inductive Access where
  | read (offset : Nat) (data : List (BitVec 8))
  | write (offset : Nat) (data : List (BitVec 8))

namespace FwCfgDevice

def build (readFile : String → Option (List (BitVec 8))) (fileSlots : Nat)
    (fwCfgParameters : List FwCfgParameters)
    (added : List (String × List (BitVec 8) × FwCfgItemType)) : Outcome Error FwCfgDevice := do
  let device ← new readFile fileSlots fwCfgParameters
  added.foldlM (fun d file => d.addFile file.1 file.2.1 file.2.2) device

def access (d : FwCfgDevice) : Access → Option FwCfgDevice
  | .read offset data => (d.read offset data).map Prod.snd
  | .write offset data => some (d.write offset data)

end FwCfgDevice

/-! ## Histories -/

def Access.selector? : Access → Option (BitVec 16)
  | .write offset [low, high] => if offset = selectorPortOffset then some (high ++ low) else none
  | _ => none

def Access.readsByte : Access → Bool
  | .read offset [_] => offset = dataPortOffset
  | _ => false

namespace FwCfgDevice

/-- The number of an item in a selector: its bits without the two flags. -/
def itemNumber (selector : BitVec 16) : BitVec 16 :=
  selector &&& ~~~(selectorArchMask ||| selectorRwMask)

def named? (d : FwCfgDevice) (selector : BitVec 16) : Option FwCfgEntry :=
  (d.entries (itemTypeOf selector))[(itemNumber selector).toNat]?

/-- The last selector written that names an item; the signature at first. -/
def selected (d : FwCfgDevice) (history : List Access) : BitVec 16 :=
  history.foldl (fun current a =>
    match a.selector? with
    | some selector => if (d.named? selector).isSome then selector else current
    | none => current) signatureSelector

/-- The bytes read at the data port since the last selector that names an item. -/
def bytesRead (d : FwCfgDevice) (history : List Access) : Nat :=
  history.foldl (fun n a =>
    match a.selector? with
    | some selector => if (d.named? selector).isSome then 0 else n
    | none => if a.readsByte then n + 1 else n) 0

/-- The byte of the selected item that comes next, zero past its end. -/
def nextByte (d : FwCfgDevice) (history : List Access) : BitVec 8 :=
  match d.named? (d.selected history) with
  | some entry => entry.data.getD (d.bytesRead history) 0
  | none => 0

/-- A selector that names an item has no flag. One that names nothing has not the flag of
arch-specific items, and is written before a byte of the selected item is read. -/
def Plain (d : FwCfgDevice) (past : List Access) (a : Access) : Prop :=
  ∀ selector ∈ a.selector?,
    if (d.named? selector).isSome then itemNumber selector = selector
    else itemTypeOf selector = .genericItem ∧ d.bytesRead past = 0

def AllPlain (d : FwCfgDevice) : List Access → List Access → Prop
  | _, [] => True
  | past, a :: rest => d.Plain past a ∧ AllPlain d (past ++ [a]) rest

/-! ## New devices -/

/-- The special items are there, and the signature is selected. -/
structure Fresh (d : FwCfgDevice) : Prop where
  special : fileFirst ≤ d.generic.length
  curItemType : d.curItemType = .genericItem
  curEntry : d.curEntry = signatureSelector
  curOffset : d.curOffset = 0

lemma addBytes_fresh {d : FwCfgDevice} (h : d.Fresh) (data : List (BitVec 8))
    (itemType : FwCfgItemType) : (d.addBytes data itemType).Yields Fresh := by
  obtain ⟨hspecial, ht, hent, ho⟩ := h
  have hs : ∀ selector : BitVec 16, selector.toNat < fileFirst →
      (d.setSpecial selector ⟨false, data⟩).Yields Fresh := by
    intro selector hlt
    rw [setSpecial, if_pos (by omega)]
    exact ⟨by simpa using hspecial, ht, hent, ho⟩
  cases itemType with
  | genericItem => exact ⟨by simp; omega, ht, hent, ho⟩
  | archSpecificItem => exact ⟨hspecial, ht, hent, ho⟩
  | fileDir | signature | revisionVector => exact hs _ (by decide)

lemma addFile_fresh {d : FwCfgDevice} (h : d.Fresh) (filename : String) (data : List (BitVec 8))
    (itemType : FwCfgItemType) : (d.addFile filename data itemType).Yields Fresh := by
  have ha : ∀ file : FwCfgFile, Outcome.Yields (do
      let d ← d.addBytes data itemType
      updateFileDirEntry { d with
        files := d.files ++ [file]
        fileNames := filename :: d.fileNames }) Fresh := by
    intro file
    refine (addBytes_fresh h data itemType).bind fun d' hd' => ?_
    rw [updateFileDirEntry]
    refine addBytes_fresh ?_ _ _
    exact ⟨hd'.special, hd'.curItemType, hd'.curEntry, hd'.curOffset⟩
  dsimp only [addFile]
  iterate 5
    split
    · trivial
  exact ha _

lemma build_fresh (readFile : String → Option (List (BitVec 8))) (fileSlots : Nat)
    (fwCfgParameters : List FwCfgParameters)
    (added : List (String × List (BitVec 8) × FwCfgItemType)) :
    (build readFile fileSlots fwCfgParameters added).Yields Fresh := by
  have hp : ∀ d, Fresh d → ∀ param, (addParam readFile d param).Yields Fresh := by
    intro d hd param
    rw [addParam]
    cases hdt : paramData readFile param with
    | ok data => exact addFile_fresh hd _ _ _
    | err e => trivial
    | panic =>
      rw [paramData] at hdt
      split at hdt
      · cases hdt
      · split at hdt <;> cases hdt
      · cases hdt
  refine Outcome.Yields.bind ?_ fun d hd => Outcome.Yields.foldlM Fresh hd
    fun d file _ hd => addFile_fresh hd _ _ _
  refine (Outcome.Yields.foldlM Fresh ⟨by simp, rfl, rfl, rfl⟩
    fun d param _ hd => hp d hd param).bind fun d hd => ?_
  exact (addBytes_fresh hd _ _).bind fun d hd => addBytes_fresh hd _ _

/-! ## Reading the selected item -/

lemma and_selectMask {selector : BitVec 16} (h : itemTypeOf selector = .genericItem) :
    selector &&& selectorSelectMask = selector := by
  have hb : selectorArchMask &&& selector = 0 := by
    rw [itemTypeOf] at h
    split_ifs at h with hp
    simpa using hp
  have ha : selector.getLsbD 14 = false := by
    have := congrArg (fun v : BitVec 16 => v.getLsbD 14) hb
    simpa [selectorArchMask] using this
  refine BitVec.eq_of_getLsbD_eq fun i hi => ?_
  rw [BitVec.getLsbD_and]
  by_cases h14 : i = 14
  · rw [h14, ha, Bool.false_and]
  have hm : selectorSelectMask.getLsbD i = true := by
    revert hi h14
    revert i
    decide
  rw [hm, Bool.and_true]

lemma itemTypeOf_of_itemNumber {selector : BitVec 16} (h : itemNumber selector = selector) :
    itemTypeOf selector = .genericItem := by
  have ha : selectorArchMask &&& selector = 0 := by
    rw [← h, itemNumber, BitVec.and_comm, BitVec.and_assoc]
    simp [selectorArchMask, selectorRwMask]
  rw [itemTypeOf, ha]
  rfl

variable {d₀ d : FwCfgDevice} {history : List Access}

/-- The state of the device after a history of accesses. -/
structure Follows (d₀ : FwCfgDevice) (history : List Access) (d : FwCfgDevice) : Prop where
  generic : d.generic.map FwCfgEntry.data = d₀.generic.map FwCfgEntry.data
  curItemType : d.curItemType = .genericItem
  plain : itemNumber (d₀.selected history) = d₀.selected history
  curEntry : d.curEntry = d₀.selected history
  inRange : d.curEntry.toNat < d₀.generic.length
  curOffset : ∀ e ∈ d.generic[d.curEntry.toNat]?,
    d.curOffset = min (d₀.bytesRead history) e.data.length

lemma Follows.exists_entry (h : Follows d₀ history d) : ∃ e₀ e,
    d₀.named? (d₀.selected history) = some e₀ ∧ d.generic[d.curEntry.toNat]? = some e ∧
      e.data = e₀.data := by
  have hd := congrArg (fun l : List (List (BitVec 8)) => l[d.curEntry.toNat]?) h.generic
  simp only [getElem?_map] at hd
  have hs := getElem?_eq_getElem h.inRange
  rw [hs, Option.map_some, Option.map_eq_some_iff] at hd
  obtain ⟨e, he, heq⟩ := hd
  refine ⟨_, e, ?_, he, heq⟩
  rw [named?, itemTypeOf_of_itemNumber h.plain, h.plain, ← h.curEntry]
  exact hs

/-- A read of the data port returns the next byte. The offset stays at the end of the item. -/
lemma Follows.read_data (h : Follows d₀ history d) (buffer : BitVec 8) : ∃ offset,
    d.read dataPortOffset [buffer] = some ([d₀.nextByte history], { d with curOffset := offset }) ∧
      ∀ e ∈ d.generic[d.curEntry.toNat]?,
        offset = min (d₀.bytesRead history + 1) e.data.length := by
  obtain ⟨e₀, e, hn, he, hd⟩ := h.exists_entry
  have ho := h.curOffset e he
  have hent : (d.entries d.curItemType)[d.curEntry.toNat]? = some e := by
    rw [h.curItemType]
    exact he
  simp only [read, length_singleton, ne_eq, not_true_eq_false, if_false, if_true, hent,
    nextByte, hn, ← hd]
  cases hb : e.data[d.curOffset]? with
  | none =>
    rw [getElem?_eq_none_iff] at hb
    rw [getD_eq_getElem?_getD, getElem?_eq_none (by omega)]
    refine ⟨_, rfl, fun e' he' => ?_⟩
    obtain rfl := Option.mem_unique he he'
    omega
  | some byte =>
    obtain ⟨hlt, -⟩ := List.getElem?_eq_some_iff.mp hb
    have hr : d.curOffset = d₀.bytesRead history := by omega
    rw [getD_eq_getElem?_getD, ← hr, hb]
    refine ⟨_, rfl, fun e' he' => ?_⟩
    obtain rfl := Option.mem_unique he he'
    omega

lemma selected_append (d₀ : FwCfgDevice) (history : List Access) (a : Access) :
    d₀.selected (history ++ [a]) =
      match a.selector? with
      | some selector => if (d₀.named? selector).isSome then selector else d₀.selected history
      | none => d₀.selected history := by
  rw [selected, foldl_append]
  rfl

lemma bytesRead_append (d₀ : FwCfgDevice) (history : List Access) (a : Access) :
    d₀.bytesRead (history ++ [a]) =
      match a.selector? with
      | some selector => if (d₀.named? selector).isSome then 0 else d₀.bytesRead history
      | none => if a.readsByte then d₀.bytesRead history + 1 else d₀.bytesRead history := by
  rw [bytesRead, foldl_append]
  rfl

lemma Follows.idle (h : Follows d₀ history d) {a : Access} (hs : a.selector? = none)
    (hr : a.readsByte = false) : Follows d₀ (history ++ [a]) d := by
  have hsel : d₀.selected (history ++ [a]) = d₀.selected history := by
    rw [selected_append, hs]
  have hby : d₀.bytesRead (history ++ [a]) = d₀.bytesRead history := by
    rw [bytesRead_append, hs, hr]
    rfl
  refine ⟨h.generic, h.curItemType, hsel ▸ h.plain, hsel ▸ h.curEntry, h.inRange, ?_⟩
  rw [hby]
  exact h.curOffset

lemma Follows.read (h : Follows d₀ history d) (offset : Nat) (data : List (BitVec 8)) :
    ∃ d', d.access (.read offset data) = some d' ∧
      Follows d₀ (history ++ [.read offset data]) d' := by
  by_cases hb : Access.readsByte (.read offset data) = true
  · obtain ⟨buffer, rfl, rfl⟩ : ∃ buffer, data = [buffer] ∧ offset = dataPortOffset := by
      match data with
      | [buffer] => exact ⟨buffer, rfl, by simpa [Access.readsByte] using hb⟩
    have hs : d₀.selected (history ++ [.read dataPortOffset [buffer]]) = d₀.selected history := by
      rw [selected_append]
      rfl
    have hby : d₀.bytesRead (history ++ [.read dataPortOffset [buffer]]) =
        d₀.bytesRead history + 1 := by
      rw [bytesRead_append, hb]
      rfl
    obtain ⟨k, hr, hk⟩ := h.read_data buffer
    refine ⟨{ d with curOffset := k }, by rw [access, hr]; rfl, h.generic, h.curItemType,
      hs ▸ h.plain, hs ▸ h.curEntry, h.inRange, ?_⟩
    rw [hby]
    exact hk
  · refine ⟨d, ?_, h.idle rfl (by simpa using hb)⟩
    rw [access, FwCfgDevice.read]
    split_ifs with hl hp
    · rfl
    · exfalso
      obtain ⟨buffer, rfl⟩ := length_eq_one_iff.mp (not_not.mp hl)
      exact hb (by simpa [Access.readsByte] using hp)
    · rfl

/-- What a selector of a generic item leaves. -/
structure Selects (d : FwCfgDevice) (selector : BitVec 16) (d' : FwCfgDevice) : Prop where
  curItemType : d'.curItemType = .genericItem
  curOffset : d'.curOffset = 0
  generic : d'.generic.map FwCfgEntry.data = d.generic.map FwCfgEntry.data
  found : selector.toNat < d.generic.length → d'.curEntry = selector
  unknown : ¬ selector.toNat < d.generic.length → d'.curEntry = d.curEntry

lemma select_selects (h : d.curItemType = .genericItem) (hspecial : fileFirst ≤ d.generic.length)
    {selector : BitVec 16} (hg : itemTypeOf selector = .genericItem) :
    Selects d selector (d.select selector) := by
  have hl : selector.toNat < fileFirst →
      Selects d selector { d with curOffset := 0, curEntry := selector } := fun hlt =>
    ⟨h, rfl, rfl, fun _ => rfl, fun hn => absurd (by omega) hn⟩
  simp only [select]
  split_ifs with hd hr hs hrng
  · subst hd
    exact hl (by decide)
  · subst hr
    exact hl (by decide)
  · subst hs
    exact hl (by decide)
  · rw [hg] at hrng
    change d.generic.length ≤ selector.toNat at hrng
    exact ⟨hg, rfl, rfl, fun hlt => absurd hlt (by omega), fun _ => rfl⟩
  · rw [hg] at hrng ⊢
    change ¬ d.generic.length ≤ selector.toNat at hrng
    refine ⟨rfl, rfl, ?_, fun _ => and_selectMask hg, fun hn => absurd (by omega) hn⟩
    refine ext_getElem? fun i => ?_
    simp only [setEntries, entries, getElem?_map, getElem?_modify]
    cases d.generic[i]? with
    | none => rfl
    | some e => by_cases heq : selector.toNat = i <;> simp [heq]

lemma length_of_map_data {l l₀ : List FwCfgEntry}
    (h : l.map FwCfgEntry.data = l₀.map FwCfgEntry.data) : l.length = l₀.length := by
  simpa using congrArg length h

section
variable (h : Follows d₀ history d) (hspecial : fileFirst ≤ d₀.generic.length)
include h hspecial

lemma Follows.select {a : Access} {selector : BitVec 16} (ha : a.selector? = some selector)
    (hp : d₀.Plain history a) : Follows d₀ (history ++ [a]) (d.select selector) := by
  have hl := length_of_map_data h.generic
  have hp := hp selector ha
  have hsel := selected_append d₀ history a
  have hby := bytesRead_append d₀ history a
  rw [ha] at hsel hby
  dsimp only at hsel hby
  by_cases hn : (d₀.named? selector).isSome
  · rw [if_pos hn] at hp hsel hby
    have hg := itemTypeOf_of_itemNumber hp
    have hs := select_selects h.curItemType (hl ▸ hspecial) hg
    obtain ⟨e, he⟩ := Option.isSome_iff_exists.mp hn
    rw [named?, hg, hp] at he
    have hlt : selector.toNat < d₀.generic.length := (List.getElem?_eq_some_iff.mp he).1
    have hent := hs.found (hl ▸ hlt)
    refine ⟨hs.generic.trans h.generic, hs.curItemType, hsel ▸ hp, hent.trans hsel.symm,
      by rwa [hent], fun e _ => ?_⟩
    rw [hby, hs.curOffset, Nat.zero_min]
  · rw [if_neg hn] at hp hsel hby
    have hs := select_selects h.curItemType (hl ▸ hspecial) hp.1
    rw [named?, hp.1, Option.not_isSome_iff_eq_none] at hn
    have hle : d₀.generic.length ≤ (itemNumber selector).toNat := getElem?_eq_none_iff.mp hn
    have hsub : (itemNumber selector).toNat ≤ selector.toNat := by
      rw [itemNumber, BitVec.toNat_and]
      exact Nat.and_le_left
    have hent := hs.unknown (by omega)
    refine ⟨hs.generic.trans h.generic, hs.curItemType, hsel ▸ h.plain,
      (hent.trans h.curEntry).trans hsel.symm, by rw [hent]; exact h.inRange, fun e _ => ?_⟩
    rw [hby, hp.2, hs.curOffset, Nat.zero_min]

lemma Follows.write (offset : Nat) (data : List (BitVec 8))
    (hp : d₀.Plain history (.write offset data)) :
    Follows d₀ (history ++ [.write offset data]) (d.write offset data) := by
  cases hsl : Access.selector? (.write offset data) with
  | none =>
    have hs : d.write offset data = d := by
      match data with
      | [low, hi] =>
        simp only [Access.selector?] at hsl
        split_ifs at hsl with hp
        rw [FwCfgDevice.write, if_neg hp]
      | [] | [_] | _ :: _ :: _ :: _ => simp [FwCfgDevice.write]
    rw [hs]
    exact h.idle hsl rfl
  | some selector =>
    have hse : d.write offset data = d.select selector := by
      match data with
      | [low, hi] =>
        simp only [Access.selector?] at hsl
        split_ifs at hsl with hp
        cases hsl
        rw [FwCfgDevice.write, if_pos hp]
      | [] | [_] | _ :: _ :: _ :: _ => cases hsl
    rw [hse]
    exact h.select hspecial hsl hp

lemma Follows.run {rest : List Access} (hr : AllPlain d₀ history rest) :
    ∃ d', run access rest d = some d' ∧ Follows d₀ (history ++ rest) d' := by
  induction rest generalizing history d with
  | nil => exact ⟨d, rfl, by rwa [append_nil]⟩
  | cons a rest ih =>
    obtain ⟨d₁, ha, h₁⟩ : ∃ d₁, d.access a = some d₁ ∧ Follows d₀ (history ++ [a]) d₁ := by
      cases a with
      | read offset data => exact h.read offset data
      | write offset data => exact ⟨_, rfl, h.write hspecial offset data hr.1⟩
    obtain ⟨d', hrun, hf⟩ := ih h₁ hr.2
    refine ⟨d', run_cons_eq_some.mpr ⟨d₁, ha, hrun⟩, ?_⟩
    rwa [append_assoc] at hf

end

/-- **Reads at the data port.** As long as no selector has a flag, and none that names nothing is
written within an item, no access aborts, and after every history the data port gives the next byte
of the item that was selected last. -/
theorem accesses_read_selected (readFile : String → Option (List (BitVec 8))) (fileSlots : Nat)
    (fwCfgParameters : List FwCfgParameters)
    (added : List (String × List (BitVec 8) × FwCfgItemType)) {d₀ : FwCfgDevice}
    (hbuild : build readFile fileSlots fwCfgParameters added = .ok d₀) (history : List Access)
    (hplain : AllPlain d₀ [] history) :
    ∃ d, run access history d₀ = some d ∧ ∀ buffer, ∃ d',
      d.read dataPortOffset [buffer] = some ([d₀.nextByte history], d') := by
  have hf := build_fresh readFile fileSlots fwCfgParameters added
  rw [hbuild] at hf
  obtain ⟨hspecial, ht, hent, ho⟩ := hf
  have hst : Follows d₀ [] d₀ := by
    refine ⟨rfl, ht, (by decide : itemNumber signatureSelector = signatureSelector), hent, ?_, ?_⟩
    · rw [hent]
      exact Nat.lt_of_lt_of_le (by decide) hspecial
    · intro e _
      rw [ho]
      exact (Nat.zero_min _).symm
  obtain ⟨d, hr, hfol⟩ := hst.run hspecial hplain
  refine ⟨d, hr, fun buffer => ?_⟩
  obtain ⟨k, hb, -⟩ := hfol.read_data buffer
  exact ⟨_, hb⟩

/-- A file whose contents are two bytes, selected and read to its end. -/
def oneFile : List (String × List (BitVec 8) × FwCfgItemType) :=
  [("opt/file", [7, 9], .genericItem)]

/-- A selector that names nothing comes first. -/
theorem accesses_read_selected_one_file : ∃ d₀ d,
    build (fun _ => none) 8 [] oneFile = .ok d₀ ∧
    run access [.write 0 [0, 0x30], .write 0 [0x20, 0], .read 1 [0]] d₀ = some d ∧
    ∃ d', d.read dataPortOffset [0] = some ([9], d') := by
  obtain ⟨d, hrun, hr⟩ := accesses_read_selected (fun _ => none) 8 [] oneFile rfl
    [.write 0 [0, 0x30], .write 0 [0x20, 0], .read 1 [0]] (by
      refine ⟨?_, ?_, nofun, trivial⟩
      · rintro _ ⟨⟩
        decide
      · rintro _ ⟨⟩
        decide)
  exact ⟨_, d, rfl, hrun, hr 0⟩

/-- The selector of an arch-specific item changes the kind of item only. On a device without such
items the next read aborts; with two of them, it gives a byte of the first when the second was
selected. A selector that names nothing starts the item over, and one with the flag for writing is
not taken for its item. -/
theorem arch_selector_aborts : ∃ d₀ d₁ d d₂ d₃ d₄,
    build (fun _ => none) 8 [] [] = .ok d₀ ∧
    run access [.write 0 [0, 0x40], .read 1 [0]] d₀ = none ∧
    build (fun _ => none) 8 []
      [("a", [7], .archSpecificItem), ("b", [9], .archSpecificItem)] = .ok d₁ ∧
    d₁.files.map FwCfgFile.select = [0x4000, 0x4001] ∧
    run access [.write 0 [1, 0x40]] d₁ = some d ∧
    (d.read dataPortOffset [0]).map Prod.fst = some [7] ∧
    build (fun _ => none) 8 [] oneFile = .ok d₂ ∧
    run access [.write 0 [0x20, 0], .read 1 [0], .write 0 [0, 0x30]] d₂ = some d₃ ∧
    (d₃.read dataPortOffset [0]).map Prod.fst = some [7] ∧
    run access [.write 0 [0x20, 0x20]] d₂ = some d₄ ∧
    (d₄.read dataPortOffset [0]).map Prod.fst = some [0x51] :=
  ⟨_, _, _, _, _, _, rfl, by decide, rfl, by decide, rfl, by decide, rfl, rfl, by decide, rfl,
    by decide⟩

end FwCfgDevice

end GunyahVmm.FwCfg
