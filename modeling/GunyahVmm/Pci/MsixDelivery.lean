import GunyahVmm.Pci.MsixWrites

/-! Delivery of MSI-X interrupts. For one vector the device is a machine with five bits. -/

namespace GunyahVmm.Pci
open Run MsixDevice MsixEntry List

/-- What matters of a device for one vector. -/
structure VectorState where
  enabled : Bool
  functionMasked : Bool
  vectorMasked : Bool
  pending : Bool
  allocated : Bool
  deriving DecidableEq

inductive VectorEvent where
  | control (enabled masked : Bool)
  | entry (masked : Bool)
  | trigger
  | other

def VectorEvent.isTrigger : VectorEvent → Bool
  | .trigger => true
  | _ => false

/-! A statement about all states or all events is checked by going through them. -/

instance {p : VectorState → Prop} [DecidablePred p] : Decidable (∀ s, p s) :=
  decidable_of_iff (∀ a b c d e, p ⟨a, b, c, d, e⟩) ⟨fun h _ => h .., fun h _ _ _ _ _ => h _⟩

instance {p : VectorEvent → Prop} [DecidablePred p] : Decidable (∀ event, p event) :=
  decidable_of_iff ((∀ a b, p (.control a b)) ∧ (∀ a, p (.entry a)) ∧ p .trigger ∧ p .other)
    ⟨fun h event => event.rec h.1 h.2.1 h.2.2.1 h.2.2.2,
      fun h => ⟨fun _ _ => h _, fun _ => h _, h _, h _⟩⟩

variable {s : VectorState} {e : MsixEntry}
namespace VectorState

/-- The machine of one vector; the flag is whether its event is signalled. -/
def step (s : VectorState) : VectorEvent → VectorState × Bool
  | .control enabled masked =>
    let allocated := s.allocated || (!s.enabled && enabled && !masked && !s.vectorMasked)
    let unmasked := s.functionMasked && !masked && !s.vectorMasked
    (⟨enabled, masked, s.vectorMasked, s.pending && !unmasked, allocated⟩,
      unmasked && s.pending && allocated)
  | .entry masked =>
    let first := s.enabled && !s.functionMasked && !s.allocated && s.vectorMasked && !masked
    let unmasked := !first && !s.functionMasked && s.vectorMasked && !masked
    ({ s with
        vectorMasked := masked
        pending := s.pending && !unmasked
        allocated := s.allocated || first },
      unmasked && s.pending && s.allocated)
  | .trigger =>
    let masked := s.vectorMasked || s.functionMasked
    ({ s with pending := s.pending || masked }, !masked && s.allocated)
  | .other => (s, false)

/-- What the loop over the table does to a vector. -/
def injected (s : VectorState) : VectorState × Bool :=
  ({ s with pending := s.pending && s.vectorMasked },
    !s.vectorMasked && s.pending && s.allocated)

/-- A vector gets its event if it is enabled and nothing masks it. -/
def given (s : VectorState) : VectorState :=
  { s with allocated := s.allocated || (s.enabled && !s.functionMasked && !s.vectorMasked) }

lemma given_of : s.allocated = true ∨ s.enabled = false ∨ s.functionMasked = true ∨
    s.vectorMasked = true → s.given = s := by
  revert s
  decide

lemma given_given (s : VectorState) : s.given.given = s.given := by
  simp [given]

/-- The two bits of the control word change, and a vector may get its event if MSI-X was off. -/
def controlled (s : VectorState) (enabled masked : Bool) : VectorState :=
  let t : VectorState := { s with enabled := enabled, functionMasked := masked }
  if s.enabled then t else t.given

lemma step_control : ∀ (s : VectorState) (enabled masked : Bool),
    s.step (.control enabled masked) =
      if s.functionMasked && !masked then (s.controlled enabled masked).injected
      else (s.controlled enabled masked, false) := by
  decide

/-- A write to the entry, case by case; `s` has the new mask bit already, `old` is the one before.
-/
lemma step_entry : ∀ (s : VectorState) (old : Bool),
    ({ s with vectorMasked := old } : VectorState).step (.entry s.vectorMasked) =
      if s.enabled && !s.functionMasked && !s.allocated && old && !s.vectorMasked then
        (s.given, false)
      else if s.functionMasked then (s, false)
      else if old && !s.vectorMasked then
        if s.pending then ({ s with pending := false }, s.allocated) else (s, false)
      else (s, false) := by
  decide

lemma step_trigger : ∀ s : VectorState, s.step .trigger =
    if s.vectorMasked || s.functionMasked then ({ s with pending := true }, false)
    else (s, s.allocated) := by
  decide

lemma injected_of_masked : s.vectorMasked = true → s.injected = (s, false) := by
  revert s
  decide

lemma injected_of_not_pending : s.pending = false → s.injected = (s, false) := by
  revert s
  decide

lemma injected_of_pending : s.vectorMasked = false → s.pending = true →
    s.injected = ({ s with pending := false }, s.allocated) := by
  revert s
  decide

end VectorState

open VectorState Outcome

lemma shiftRight_and_one (e : BitVec 64) (k : Nat) :
    (e >>> k &&& 1#64 == 1#64) = e.getLsbD k := by
  rw [BitVec.and_one_eq_setWidth_ofBool_getLsbD, BitVec.getLsbD_ushiftRight, Nat.add_zero]
  cases e.getLsbD k <;> decide

lemma getLsbD_one_shiftLeft {j k : Nat} (hk : k < 64) :
    (1#64 <<< k).getLsbD j = decide (j = k) := by
  rw [← BitVec.twoPow_eq, BitVec.getLsbD_twoPow]
  simp [hk, eq_comm]

namespace MsixConfig

def pending (m : MsixConfig) (v : Nat) : Bool :=
  (m.pbaEntries.getD (v / bitsPerPbaEntry) 0).getLsbD (v % bitsPerPbaEntry)

variable {m : MsixConfig} {v : Nat}
section
variable (h : v < m.tableEntries.length)
include h

lemma getElem?_pba :
    m.pbaEntries[v / bitsPerPbaEntry]? = some (m.pbaEntries.getD (v / bitsPerPbaEntry) 0) := by
  have hp := m.pba_length
  have hi : v / bitsPerPbaEntry < m.pbaEntries.length := by
    rw [hp]
    simp only [bitsPerPbaEntry]
    omega
  rw [getD_eq_getElem?_getD, getElem?_eq_getElem hi]
  rfl

lemma toNat_vector : (BitVec.ofNat 16 v).toNat = v := by
  have ht := m.table_le
  simp only [maxMsixVectorsPerDevice] at ht
  rw [BitVec.toNat_ofNat, Nat.mod_eq_of_lt (by omega)]

lemma getPbaBit_eq : m.getPbaBit (BitVec.ofNat 16 v) = .ok (m.pending v) := by
  have ht := m.table_le
  rw [getPbaBit, toNat_vector h, if_neg (by omega), getElem?_pba h, pending]
  dsimp only
  rw [shiftRight_and_one]

end

lemma setPbaBit_spec {vector : BitVec 16} (h : vector.toNat < m.tableEntries.length)
    (set : Bool) :
    ∃ m', m.setPbaBit vector set = .ok m' ∧ m'.tableEntries = m.tableEntries ∧
      m'.irqVec = m.irqVec ∧ m'.masked = m.masked ∧ m'.enabled = m.enabled ∧
      ∀ w, m'.pending w = if w = vector.toNat then set else m.pending w := by
  have ht := m.table_le
  have hi : vector.toNat / bitsPerPbaEntry < m.pbaEntries.length :=
    (List.getElem?_eq_some_iff.mp (getElem?_pba h)).1
  have hs : vector.toNat % bitsPerPbaEntry < 64 := Nat.mod_lt _ (by decide)
  rw [setPbaBit, if_neg (by omega)]
  dsimp only
  rw [getElem?_pba h]
  refine ⟨_, rfl, rfl, rfl, rfl, rfl, ?_⟩
  intro w
  simp only [pending, getD_eq_getElem?_getD, getElem?_set]
  generalize vector.toNat = v at hi hs ⊢
  by_cases hwr : v / bitsPerPbaEntry = w / bitsPerPbaEntry
  · -- A bit of the same word: it is the bit itself exactly if the shifts agree.
    have hb : w = v ↔ w % bitsPerPbaEntry = v % bitsPerPbaEntry := by
      unfold bitsPerPbaEntry at hwr ⊢
      omega
    rw [if_pos hwr, if_pos hi, ← hwr]
    have hw : w % bitsPerPbaEntry < 64 := Nat.mod_lt _ (by decide)
    simp only [hb, Option.getD_some]
    generalize w % bitsPerPbaEntry = j at hw ⊢
    cases set with
    | true =>
      rw [if_pos rfl, BitVec.getLsbD_or, getLsbD_one_shiftLeft hs]
      by_cases heq : j = v % bitsPerPbaEntry <;> simp [heq]
    | false =>
      rw [if_neg (by simp), BitVec.getLsbD_and, BitVec.getLsbD_not, getLsbD_one_shiftLeft hs]
      by_cases heq : j = v % bitsPerPbaEntry <;> simp [heq, hw]
  · have hne : w ≠ v := fun heq => hwr (by rw [heq])
    rw [if_neg hwr, if_neg hne]

end MsixConfig

/-! ## The operations, seen from every vector -/

def MsiSocket.Succeeds (socket : MsiSocket) : Prop :=
  (∀ i, (socket.allocateOneMsi i).isSome = true) ∧ ∀ i, socket.addMsiRoute i = true

namespace MsixDevice

/-- The tables of a device have the same number of entries. -/
structure WellFormed (d : MsixDevice) (n : Nat) : Prop where
  table_length : d.config.tableEntries.length = n
  irqVec_length : d.config.irqVec.length = n
  messages_length : d.messages.length = n

def vector (d : MsixDevice) (v : Nat) : VectorState where
  enabled := d.config.enabled
  functionMasked := d.config.masked
  vectorMasked := d.config.tableMasked v
  pending := d.config.pending v
  allocated := ((d.config.irqVec[v]?).getD none).isSome

variable {d : MsixDevice} {n v : Nat} {socket : MsiSocket}
section
variable (hd : d.WellFormed n)
include hd

lemma WellFormed.getElem?_irqVec (hv : v < n) :
    d.config.irqVec[v]? = some ((d.config.irqVec[v]?).getD none) := by
  rw [getElem?_eq_getElem (hd.irqVec_length ▸ hv)]
  rfl

lemma WellFormed.setPbaBit {vector : BitVec 16} (hv : vector.toNat < n) (set : Bool) :
    ∃ m, d.config.setPbaBit vector set = .ok m ∧ WellFormed { d with config := m } n ∧
      m.tableEntries = d.config.tableEntries ∧ ∀ w, MsixDevice.vector { d with config := m } w =
        if w = vector.toNat then { d.vector w with pending := set } else d.vector w := by
  obtain ⟨m, hs, ht, hi, hm, hen, hp⟩ := MsixConfig.setPbaBit_spec (hd.table_length ▸ hv) set
  refine ⟨m, hs, ?_, ht, fun w => ?_⟩
  · exact ⟨by rw [ht, hd.table_length], by rw [hi, hd.irqVec_length], hd.messages_length⟩
  · simp only [MsixDevice.vector, MsixConfig.tableMasked, ht, hi, hm, hen, hp]
    by_cases heq : w = vector.toNat <;> simp [heq]

lemma injectMsixAndClearPba_spec (hv : v < n) :
    ∃ d', d.injectMsixAndClearPba v = .ok (d', if (d.vector v).allocated then [v] else []) ∧
      d'.WellFormed n ∧ d'.config.tableEntries = d.config.tableEntries ∧
      ∀ w, d'.vector w = if w = v then { d.vector w with pending := false } else d.vector w := by
  have hvec := MsixConfig.toNat_vector (hd.table_length ▸ hv : v < d.config.tableEntries.length)
  obtain ⟨m, hset, hd', ht, hs⟩ := hd.setPbaBit (hvec.symm ▸ hv) false
  rw [hvec] at hs
  refine ⟨{ d with config := m }, ?_, hd', ht, hs⟩
  rw [injectMsixAndClearPba, hd.getElem?_irqVec hv]
  dsimp only
  rw [hset, ok_bind]
  rfl

lemma injectPending_spec {entries : List MsixTableEntry} {index : Nat}
    (hen : entries = d.config.tableEntries.drop index) :
    ∃ d' signals, injectPending index entries d = .ok (d', signals) ∧ d'.WellFormed n ∧
      ∀ w, w < n → (d'.vector w, decide (w ∈ signals)) =
        if index ≤ w then (d.vector w).injected else (d.vector w, false) := by
  induction entries generalizing index d with
  | nil =>
    have hl := congrArg length hen
    rw [length_drop, length_nil, hd.table_length] at hl
    refine ⟨d, [], rfl, hd, fun w hw => ?_⟩
    rw [if_neg (by omega)]
    rfl
  | cons entry entries ih =>
    have hg : d.config.tableEntries[index]? = some entry := by
      rw [← head?_drop, ← hen]
      rfl
    have hidx : index < n := by
      rw [← hd.table_length]
      exact (List.getElem?_eq_some_iff.mp hg).1
    have hr : entries = d.config.tableEntries.drop (index + 1) := by
      rw [← tail_drop, ← hen]
      rfl
    have hm : (d.vector index).vectorMasked = entry.masked := by
      simp [vector, MsixConfig.tableMasked, hg]
    have hp : d.config.getPbaBit (BitVec.ofNat 16 index) = .ok (d.vector index).pending :=
      MsixConfig.getPbaBit_eq (hd.table_length ▸ hidx)
    unfold injectPending
    -- A vector that is skipped is one the loop has nothing to do for.
    obtain ⟨d', signals, hrun, hd', hs⟩ := ih hd hr
    have hsk (hn : (d.vector index).injected = (d.vector index, false)) (w : Nat) (hw : w < n) :
        (d'.vector w, decide (w ∈ signals)) =
          if index ≤ w then (d.vector w).injected else (d.vector w, false) := by
      rw [hs w hw]
      rcases Nat.lt_trichotomy w index with hlt | rfl | hgt
      · rw [if_neg (by omega), if_neg (by omega)]
      · rw [if_neg (by omega), if_pos (Nat.le_refl _), hn]
      · rw [if_pos (by omega), if_pos (by omega)]
    by_cases hent : entry.masked = true
    · rw [if_pos hent]
      exact ⟨d', signals, hrun, hd', hsk (injected_of_masked (hm.trans hent))⟩
    rw [if_neg hent, hp, ok_bind]
    by_cases hb : (d.vector index).pending = true
    · rw [if_pos hb]
      obtain ⟨d₁, hi, hd₁, ht, hv⟩ := injectMsixAndClearPba_spec hd hidx
      obtain ⟨d', signals, hrun, hd', hs⟩ := ih hd₁ (by rw [ht]; exact hr)
      rw [hi, ok_bind]
      rw [hrun, ok_bind]
      refine ⟨d', _, rfl, hd', fun w hw => ?_⟩
      have hw' := hs w hw
      rw [hv] at hw'
      by_cases heq : w = index
      · subst heq
        rw [if_neg (by omega), if_pos rfl, Prod.mk.injEq, decide_eq_false_iff_not] at hw'
        rw [if_pos (Nat.le_refl _), hw'.1, injected_of_pending
          (hm.trans (Bool.not_eq_true _ ▸ hent)) hb]
        cases ha : (d.vector w).allocated <;> simp [ha, hw'.2]
      · have hle : index + 1 ≤ w ↔ index ≤ w := by omega
        simp only [if_neg heq, hle] at hw'
        rw [← hw']
        cases ha : (d.vector index).allocated <;> simp [heq]
    · rw [if_neg hb]
      exact ⟨d', signals, hrun, hd', hsk (injected_of_not_pending (Bool.not_eq_true _ ▸ hb))⟩

end

lemma addMsiRoute_of_succeeds (h : ∀ i, socket.addMsiRoute i = true) (d : MsixDevice) :
    d.addMsiRoute socket v = true := by
  unfold addMsiRoute
  split
  · rfl
  · rw [h]
    exact ite_self true

/-- A vector that is enabled and that nothing masks has an event afterwards. -/
lemma msixEnableOne_spec (hs : socket.Succeeds) (hd : d.WellFormed n) (hv : v < n) :
    ∃ d', d.msixEnableOne socket v = .ok (d', true) ∧ d'.WellFormed n ∧
      ∀ w, d'.vector w = if w = v then (d.vector w).given else d.vector w := by
  obtain ⟨ha, hr⟩ := hs
  unfold msixEnableOne
  rw [hd.getElem?_irqVec hv]
  dsimp only
  split
  · rename_i hn
    refine ⟨d, rfl, hd, fun w => ?_⟩
    split
    · subst_vars
      refine (given_of ?_).symm
      simpa [vector, or_assoc] using hn
    · rfl
  · rename_i hg
    obtain ⟨gsi, hgsi⟩ := Option.isSome_iff_exists.mp (ha v)
    rw [hgsi]
    dsimp only
    rw [addMsiRoute_of_succeeds hr]
    refine ⟨_, rfl, ⟨hd.table_length, ?_, hd.messages_length⟩, fun w => ?_⟩
    · rw [length_set, hd.irqVec_length]
    · change { d.vector w with allocated := (((d.config.irqVec.set v (some gsi))[w]?).getD
        none).isSome } = _
      by_cases heq : w = v
      · subst heq
        have hlt : w < d.config.irqVec.length := hd.irqVec_length ▸ hv
        simp only [Bool.or_eq_true, Bool.not_eq_true', not_or, Bool.not_eq_true,
          Bool.not_eq_false] at hg
        rw [if_pos rfl, getElem?_set_self hlt]
        simp [VectorState.given, vector, hg]
      · rw [if_neg heq, getElem?_set_ne (Ne.symm heq)]
        rfl

lemma msixEnableEach_spec (hs : socket.Succeeds) {indices : List Nat}
    (hd : d.WellFormed n) (hin : ∀ i ∈ indices, i < n) :
    ∃ d', msixEnableEach socket indices d = .ok (d', true) ∧ d'.WellFormed n ∧
      ∀ w, d'.vector w = if w ∈ indices then (d.vector w).given else d.vector w := by
  induction indices generalizing d with
  | nil => exact ⟨d, rfl, hd, fun w => by simp⟩
  | cons i indices ih =>
    obtain ⟨hi, hin⟩ := forall_mem_cons.mp hin
    obtain ⟨d₁, ho, hd₁, hv₁⟩ := msixEnableOne_spec hs hd hi
    obtain ⟨d', hec, hd', hv⟩ := ih hd₁ hin
    refine ⟨d', ?_, hd', fun w => ?_⟩
    · rw [msixEnableEach, ho, ok_bind, if_pos rfl, hec]
    · rw [hv, hv₁]
      by_cases hw : w = i
      · subst hw
        simp [given_given]
      · simp [hw]

/-! ## One action is one event for every vector -/

def controlEvent (reg : BitVec 16) : VectorEvent :=
  .control (reg &&& msixEnableBit == msixEnableBit) (reg &&& functionMaskBit == functionMaskBit)

lemma applyControl_spec (hs : socket.Succeeds) (hd : d.WellFormed n) (reg : BitVec 16) :
    ∃ d', d.applyControl socket reg = .ok d' ∧ d'.WellFormed n ∧
      d'.config.masked = (reg &&& functionMaskBit == functionMaskBit) ∧
      ∀ w, w < n → d'.vector w = (d.vector w).controlled (reg &&& msixEnableBit == msixEnableBit)
        (reg &&& functionMaskBit == functionMaskBit) := by
  unfold applyControl
  generalize (reg &&& msixEnableBit == msixEnableBit) = enabled
  generalize (reg &&& functionMaskBit == functionMaskBit) = masked
  dsimp only
  have hd₁ : MsixDevice.WellFormed
      { d with config := { d.config with masked := masked, enabled := enabled } } n :=
    ⟨hd.table_length, hd.irqVec_length, hd.messages_length⟩
  split
  · rename_i hon
    simp only [Bool.and_eq_true, Bool.not_eq_true'] at hon
    have hr : ∀ i ∈ range n, i < n := fun i hi => mem_range.mp hi
    obtain ⟨d', hec, hd', hv⟩ := msixEnableEach_spec hs hd₁ hr
    refine ⟨d', ?_, hd', ?_, fun w hw => ?_⟩
    · rw [msixEnableAll]
      rw [hd.irqVec_length, hec, ok_bind, if_pos rfl]
    · have hz := congrArg VectorState.functionMasked (hv 0)
      change d'.config.masked = _ at hz
      rw [hz]
      split <;> rfl
    · rw [hv, if_pos (mem_range.mpr hw), VectorState.controlled]
      change _ = if d.config.enabled then _ else _
      rw [hon.1]
      rfl
  · rename_i ho
    refine ⟨_, rfl, hd₁, rfl, fun w _ => ?_⟩
    change _ = if d.config.enabled then _ else _
    split
    · rfl
    rename_i hold
    have hen : enabled = false := by simpa [hold] using ho
    subst hen
    exact (given_of (.inr (.inl rfl))).symm

lemma writeMsixCapability_spec (hsc : socket.Succeeds) (hd : d.WellFormed n)
    (offset : Nat) (data : List (BitVec 8)) :
    ∃ d' signals status, d.writeMsixCapability socket offset data = .ok (d', signals, status) ∧
      d'.WellFormed n ∧ ∀ w, w < n → (d'.vector w, decide (w ∈ signals)) =
        (d.vector w).step (if offset = 2 ∧ data.length = 2 then
          controlEvent (le16 (data.getD · 0) 0) else .other) := by
  unfold writeMsixCapability
  by_cases hv : offset = 2 ∧ data.length = 2
  · rw [if_pos hv]
    obtain ⟨d₁, hc, hd₁, hm, hvec⟩ := applyControl_spec hsc hd (le16 (data.getD · 0) 0)
    rw [hc, ok_bind, hm]
    simp only [if_pos hv, controlEvent]
    generalize (le16 (data.getD · 0) 0 &&& functionMaskBit == functionMaskBit) = masked at *
    generalize (le16 (data.getD · 0) 0 &&& msixEnableBit == msixEnableBit) = enabled at *
    have hs (w : Nat) (hw : w < n) : (d.vector w).step (.control enabled masked) =
        if d.config.masked && !masked then (d₁.vector w).injected else (d₁.vector w, false) := by
      rw [step_control, hvec w hw]
      rfl
    by_cases hu : (d.config.masked && !masked) = true
    · obtain ⟨d', signals, hi, hd', hsp⟩ :=
        injectPending_spec hd₁ (drop_zero (l := d₁.config.tableEntries)).symm
      rw [if_pos hu, hi, ok_bind]
      refine ⟨d', signals, _, rfl, hd', fun w hw => ?_⟩
      rw [hsp w hw, if_pos (Nat.zero_le _), hs w hw, if_pos hu]
    · have hn (w : Nat) (hw : w < n) :
          (d₁.vector w, decide (w ∈ ([] : List Nat))) =
            (d.vector w).step (.control enabled masked) := by
        rw [hs w hw, if_neg hu]
        rfl
      rw [if_neg hu]
      split
      all_goals exact ⟨d₁, [], _, rfl, hd₁, hn⟩
  · rw [if_neg hv]
    refine ⟨d, [], _, rfl, hd, fun w _ => ?_⟩
    rw [if_neg hv]
    rfl

lemma vector_setEntry (hd : d.WellFormed n) (hv : v < n) (entry : MsixTableEntry)
    (messages : List MsixMessage) (w : Nat) :
    vector { config := d.config.setEntry v entry, messages := messages } w =
      if w = v then { d.vector w with vectorMasked := entry.masked } else d.vector w := by
  have hm : (d.config.setEntry v entry).tableMasked w =
      if w = v then entry.masked else d.config.tableMasked w := by
    unfold MsixConfig.tableMasked MsixConfig.setEntry
    by_cases heq : v = w
    · subst heq
      simp [hd.table_length, hv]
    · simp [heq, Ne.symm heq]
  change ({ d.vector w with vectorMasked := (d.config.setEntry v entry).tableMasked w } :
    VectorState) = _
  rw [hm]
  split <;> rfl

lemma entryWritten_spec (hsc : socket.Succeeds) (hd : d.WellFormed n) (hv : v < n)
    (old new : MsixTableEntry) (hn : (d.vector v).vectorMasked = new.masked) :
    ∃ d' signals status, d.entryWritten socket v old new = .ok (d', signals, status) ∧
      d'.WellFormed n ∧ ∀ w, w < n → (d'.vector w, decide (w ∈ signals)) =
        if w = v then
          ({ d.vector w with vectorMasked := old.masked } : VectorState).step (.entry new.masked)
        else (d.vector w, false) := by
  have hs := step_entry (d.vector v) old.masked
  rw [hn] at hs
  have ha : ((d.config.irqVec[v]?).getD none).isNone = !(d.vector v).allocated := by
    simp [vector]
  have hk (hsm : ({ d.vector v with vectorMasked := old.masked } : VectorState).step
      (.entry new.masked) = (d.vector v, false)) (w : Nat) :
      (d.vector w, decide (w ∈ ([] : List Nat))) =
        if w = v then
          ({ d.vector w with vectorMasked := old.masked } : VectorState).step (.entry new.masked)
        else (d.vector w, false) := by
    split
    · subst_vars
      exact hsm.symm
    · rfl
  unfold entryWritten
  rw [hd.getElem?_irqVec hv]
  dsimp only
  rw [ha]
  by_cases hf : (d.config.enabled && !d.config.masked && !(d.vector v).allocated &&
      old.masked && !new.masked) = true
  · obtain ⟨d', ho, hd', hvec⟩ := msixEnableOne_spec hsc hd hv
    rw [if_pos hf, ho, ok_bind, if_pos rfl]
    refine ⟨d', [], _, rfl, hd', fun w _ => ?_⟩
    rw [hvec]
    split
    · subst_vars
      exact (hs.trans (if_pos hf)).symm
    · rfl
  rw [if_neg hf]
  replace hs := hs.trans (if_neg hf)
  by_cases hm : d.config.masked = true
  · rw [if_pos hm]
    exact ⟨d, [], _, rfl, hd, fun w _ => hk (hs.trans (if_pos hm)) w⟩
  rw [if_neg hm]
  replace hs := hs.trans (if_neg hm)
  by_cases hu : (old.masked && !new.masked) = true
  · rw [if_pos hu, MsixConfig.getPbaBit_eq (hd.table_length ▸ hv), ok_bind]
    replace hs := hs.trans (if_pos hu)
    by_cases hp : d.config.pending v = true
    · obtain ⟨d', hi, hd', -, hvec⟩ := injectMsixAndClearPba_spec hd hv
      rw [if_pos hp, hi, ok_bind]
      refine ⟨d', _, _, rfl, hd', fun w _ => ?_⟩
      rw [hvec]
      by_cases heq : w = v
      · subst heq
        rw [if_pos rfl, if_pos rfl, hs.trans (if_pos hp)]
        cases hirq : (d.vector w).allocated <;> simp [hn, hirq]
      · rw [if_neg heq, if_neg heq]
        cases (d.vector v).allocated <;> simp [heq]
    · rw [if_neg hp]
      exact ⟨d, [], _, rfl, hd, fun w _ => hk (hs.trans (if_neg hp)) w⟩
  · rw [if_neg hu]
    replace hs := hs.trans (if_neg hu)
    split
    all_goals exact ⟨d, [], _, rfl, hd, fun w _ => hk hs w⟩

def entryMaskAfter (d : MsixDevice) (v moduloOffset : Nat) (data : List (BitVec 8)) : Bool :=
  match d.config.tableEntries[v]?, d.messages[v]? with
  | some entry, some message => (writtenEntry entry message moduloOffset data).1.masked
  | _, _ => true

lemma writeMsixTable_spec (hs : socket.Succeeds) (hd : d.WellFormed n) (offset : Nat)
    (data : List (BitVec 8)) :
    ∃ d' signals status, d.writeMsixTable socket offset data = .ok (d', signals, status) ∧
      d'.WellFormed n ∧ ∀ w, w < n → (d'.vector w, decide (w ∈ signals)) =
        (d.vector w).step (if offset / msixTableEntriesModulo = w then
          .entry (d.entryMaskAfter w (offset % msixTableEntriesModulo) data) else .other) := by
  unfold writeMsixTable
  dsimp only
  generalize offset / msixTableEntriesModulo = v
  generalize offset % msixTableEntriesModulo = moduloOffset
  by_cases hv : v < n
  · have ht : v < d.config.tableEntries.length := hd.table_length ▸ hv
    have hms : v < d.messages.length := hd.messages_length ▸ hv
    have hent := getElem?_eq_getElem ht
    have hm := getElem?_eq_getElem hms
    generalize d.config.tableEntries[v] = entry at hent
    generalize d.messages[v] = message at hm
    have ha : d.entryMaskAfter v moduloOffset data =
        (writtenEntry entry message moduloOffset data).1.masked := by
      simp only [entryMaskAfter, hent, hm]
    have ho : (d.vector v).vectorMasked = entry.masked := by
      simp only [vector, MsixConfig.tableMasked, hent]
    rw [hent, hm]
    dsimp only
    generalize writtenEntry entry message moduloOffset data = new at ha ⊢
    have hd₁ : MsixDevice.WellFormed
        { config := d.config.setEntry v new.1, messages := d.messages.set v new.2 } n :=
      ⟨by simp [MsixConfig.setEntry, hd.table_length], hd.irqVec_length,
        by simp [hd.messages_length]⟩
    have hvec := vector_setEntry hd hv new.1 (d.messages.set v new.2)
    obtain ⟨d', signals, status, hwr, hd', hsp⟩ :=
      entryWritten_spec hs hd₁ hv entry new.1 (by rw [hvec, if_pos rfl])
    refine ⟨d', signals, status, hwr, hd', fun w hw => ?_⟩
    rw [hsp w hw, hvec]
    by_cases heq : w = v
    · subst heq
      rw [if_pos rfl, if_pos rfl, if_pos rfl, ha, ← ho]
    · rw [if_neg heq, if_neg heq, if_neg (Ne.symm heq)]
      rfl
  · have hn : d.config.tableEntries[v]? = none := getElem?_eq_none (by rw [hd.table_length]; omega)
    rw [hn]
    refine ⟨d, [], _, rfl, hd, fun w hw => ?_⟩
    rw [if_neg (by omega)]
    rfl

lemma trigger_spec (hd : d.WellFormed n) {vector : BitVec 16} (hv : vector.toNat < n) :
    ∃ d' signals, d.step (.trigger vector) = .ok (d', signals) ∧ d'.WellFormed n ∧
      ∀ w, w < n → (d'.vector w, decide (w ∈ signals)) =
        (d.vector w).step (if vector.toNat = w then .trigger else .other) := by
  have htab : vector.toNat < d.config.tableEntries.length := hd.table_length ▸ hv
  have hent := getElem?_eq_getElem htab
  generalize d.config.tableEntries[vector.toNat] = entry at hent
  have hmsk : (d.vector vector.toNat).vectorMasked = entry.masked := by
    simp only [MsixDevice.vector, MsixConfig.tableMasked, hent]
  have hs := step_trigger (d.vector vector.toNat)
  rw [hmsk] at hs
  change ∃ d' signals, (d.config.trigger vector true >>= fun config =>
    .ok ({ d with config := config }, if d.config.raisesEvent vector then [vector.toNat] else [])) =
      .ok (d', signals) ∧ _
  by_cases hm : (entry.masked || d.config.masked) = true
  · obtain ⟨m, hset, hd', -, hsn⟩ := hd.setPbaBit hv true
    have hr : d.config.raisesEvent vector = false := by
      simp only [MsixConfig.raisesEvent, hent, hm]
      rfl
    have ht : d.config.trigger vector true = .ok m := by
      simp only [MsixConfig.trigger, hent, hm, if_true, hset]
    rw [ht, hr, ok_bind]
    refine ⟨{ d with config := m }, [], rfl, hd', fun w hw => ?_⟩
    rw [hsn]
    by_cases heq : vector.toNat = w
    · subst heq
      rw [if_pos rfl, if_pos rfl, hs.trans (if_pos hm)]
      simp [hmsk]
    · rw [if_neg (Ne.symm heq), if_neg heq]
      rfl
  · have hr : d.config.raisesEvent vector = (d.vector vector.toNat).allocated := by
      simp only [MsixConfig.raisesEvent, hent, hm]
      rfl
    have ht : d.config.trigger vector true = .ok d.config := by
      simp only [MsixConfig.trigger, hent, hm]
      cases (d.config.irqVec[vector.toNat]?).getD none <;> rfl
    rw [ht, hr, ok_bind]
    refine ⟨d, _, rfl, hd, fun w hw => ?_⟩
    by_cases heq : vector.toNat = w
    · subst heq
      rw [if_pos rfl, hs.trans (if_neg hm)]
      cases (d.vector vector.toNat).allocated <;> simp
    · rw [if_neg heq]
      cases (d.vector vector.toNat).allocated <;> simp [Ne.symm heq, VectorState.step]

end MsixDevice

def MsixAction.event (d : MsixDevice) (v : Nat) : MsixAction → VectorEvent
  | .writeCapability _ offset data =>
    if offset = 2 ∧ data.length = 2 then controlEvent (le16 (data.getD · 0) 0)
    else .other
  | .writeTable _ offset data =>
    if offset / msixTableEntriesModulo = v then
      .entry (d.entryMaskAfter v (offset % msixTableEntriesModulo) data)
    else .other
  | .trigger vector => if vector.toNat = v then .trigger else .other

/-- The requests of the action succeed, and only vectors of the table are raised. -/
def MsixAction.Fits (n : Nat) : MsixAction → Prop
  | .writeCapability socket _ _ => socket.Succeeds
  | .writeTable socket _ _ => socket.Succeeds
  | .trigger vector => vector.toNat < n

/-- The line of the record is one event of every vector. -/
def MsixEntry.Simulates (e : MsixEntry) (n : Nat) : Prop :=
  ∀ w, w < n → (e.after.vector w, decide (w ∈ e.signals)) =
    (e.before.vector w).step (e.action.event e.before w)

variable {d : MsixDevice} {n v : Nat}

/-- **Simulation.** Every action succeeds and is one event for every vector. -/
lemma MsixDevice.step_simulates (hd : d.WellFormed n) {action : MsixAction}
    (ha : action.Fits n) :
    ∃ d' signals, d.step action = .ok (d', signals) ∧ d'.WellFormed n ∧
      MsixEntry.Simulates ⟨d, action, signals, d'⟩ n := by
  cases action with
  | writeCapability socket offset data =>
    obtain ⟨d', signals, status, hw, hd', hs⟩ := writeMsixCapability_spec ha hd offset data
    refine ⟨d', signals, ?_, hd', hs⟩
    rw [step, hw, ok_bind]
  | writeTable socket offset data =>
    obtain ⟨d', signals, status, hw, hd', hs⟩ := writeMsixTable_spec ha hd offset data
    refine ⟨d', signals, ?_, hd', hs⟩
    rw [step, hw, ok_bind]
  | trigger vector => exact trigger_spec hd ha

def Recorded (n : Nat) : MsixDevice → List MsixEntry → Prop
  | _, [] => True
  | d, e :: entries => e.before = d ∧ e.Simulates n ∧ Recorded n e.after entries

lemma MsixDevice.execute_recorded {actions : List MsixAction} (hd : d.WellFormed n)
    (ha : ∀ a ∈ actions, a.Fits n) :
    ∃ entries, d.execute actions = .ok entries ∧ Recorded n d entries := by
  induction actions generalizing d with
  | nil => exact ⟨[], rfl, trivial⟩
  | cons action actions ih =>
    obtain ⟨hact, ha⟩ := forall_mem_cons.mp ha
    obtain ⟨d', signals, hs, hd', hsp⟩ := step_simulates hd hact
    obtain ⟨entries, hr, hen⟩ := ih hd' ha
    refine ⟨⟨d, action, signals, d'⟩ :: entries, ?_, rfl, hsp, hen⟩
    rw [execute, hs, ok_bind]
    rw [hr, ok_bind]

lemma Recorded.of_append {before after : List MsixEntry}
    (h : Recorded n d (before ++ after)) : ∃ d', Recorded n d' after := by
  induction before generalizing d with
  | nil => exact ⟨d, h⟩
  | cons e before ih => exact ih h.2.2

/-! ## Delivery -/

def VectorEvent.disciplined (s : VectorState) : VectorEvent → Bool
  | .control enabled _ => !s.enabled || enabled
  | .entry _ => true
  | .trigger => s.enabled && s.allocated
  | .other => true

namespace VectorState

def deliverable (s : VectorState) : Bool := s.enabled && !s.functionMasked && !s.vectorMasked

/-- An interrupt waits for a mask to go away. -/
def waiting (s : VectorState) : Bool :=
  s.pending && s.allocated && s.enabled && (s.functionMasked || s.vectorMasked)

/-- A waiting interrupt is signalled by the event that makes it deliverable, and waits until then.
-/
lemma waiting_step : ∀ {event : VectorEvent}, s.waiting = true → event.disciplined s = true →
    if (s.step event).1.deliverable then
      (s.step event).2 = true ∧ (s.step event).1.pending = false
    else (s.step event).1.waiting = true := by
  revert s
  decide

lemma not_deliverable_of_waiting : s.waiting = true → s.deliverable = false := by
  revert s
  decide

lemma deliverable_step {event : VectorEvent} (h : event = .trigger ∨ event = .other) :
    (s.step event).1.deliverable = s.deliverable := by
  rcases h with rfl | rfl <;> rfl

lemma trigger_step : VectorEvent.trigger.disciplined s = true →
    if s.deliverable then (s.step .trigger).2 = true
    else (s.step .trigger).1.waiting = true := by
  revert s
  decide

/-- No event makes up an interrupt: one that is signalled was raised by the event or was
pending. -/
lemma step_accounts : ∀ (s : VectorState) (event : VectorEvent),
    (s.step event).2.toNat + (s.step event).1.pending.toNat ≤
      s.pending.toNat + event.isTrigger.toNat := by
  decide

end VectorState

def MsixEntry.isWrite (e : MsixEntry) : Bool :=
  match e.action with
  | .trigger _ => false
  | _ => true

def MsixEntry.raises (e : MsixEntry) (v : Nat) : Bool :=
  match e.action with
  | .trigger vector => vector.toNat == v && e.before.config.enabled
  | _ => false

/-- MSI-X stays on, and a vector is raised only while it is enabled and has its event. -/
def MsixEntry.disciplined (e : MsixEntry) : Bool :=
  match e.action with
  | .writeCapability _ offset data =>
    !(offset == 2 && data.length == 2 && e.before.config.enabled) ||
      le16 (data.getD · 0) 0 &&& msixEnableBit == msixEnableBit
  | .writeTable _ _ _ => true
  | .trigger vector => (e.before.vector vector.toNat).enabled &&
      (e.before.vector vector.toNat).allocated

lemma MsixEntry.disciplined_event (h : e.disciplined = true) (v : Nat) :
    (e.action.event e.before v).disciplined (e.before.vector v) = true := by
  unfold disciplined at h
  unfold MsixAction.event
  cases ha : e.action with
  | writeCapability socket offset data =>
    simp only [ha] at h ⊢
    split
    · rename_i hv
      simpa [hv, VectorEvent.disciplined, controlEvent, vector] using h
    · rfl
  | writeTable socket offset data =>
    simp only
    split <;> rfl
  | trigger vector =>
    simp only [ha] at h ⊢
    split
    · subst_vars
      exact h
    · rfl

lemma MsixEntry.event_of_raises (h : e.raises v = true) :
    e.action.event e.before v = .trigger := by
  unfold raises at h
  cases ha : e.action with
  | trigger vector =>
    simp only [ha, Bool.and_eq_true, beq_iff_eq] at h
    exact if_pos h.1
  | _ => simp [ha] at h

lemma MsixEntry.isTrigger_event (h : e.disciplined = true) (v : Nat) :
    (e.action.event e.before v).isTrigger = e.raises v := by
  unfold disciplined at h
  unfold raises MsixAction.event
  cases ha : e.action with
  | writeCapability | writeTable =>
    dsimp only
    split <;> rfl
  | trigger vector =>
    simp only [ha, Bool.and_eq_true] at h ⊢
    by_cases heq : vector.toNat = v
    · have hen : e.before.config.enabled = true := h.1
      simp [heq, hen, VectorEvent.isTrigger]
    · simp only [if_neg heq, VectorEvent.isTrigger, beq_eq_false_iff_ne.mpr heq, Bool.false_and]

lemma MsixEntry.event_of_not_write (e : MsixEntry) (h : e.isWrite = false) (v : Nat) :
    e.action.event e.before v = .trigger ∨ e.action.event e.before v = .other := by
  unfold isWrite at h
  cases ha : e.action with
  | trigger vector =>
    unfold MsixAction.event
    dsimp only
    split
    · exact .inl rfl
    · exact .inr rfl
  | _ => simp [ha] at h

lemma MsixEntry.Simulates.after_eq (h : e.Simulates n) (hv : v < n) :
    e.after.vector v = ((e.before.vector v).step (e.action.event e.before v)).1 :=
  congrArg Prod.fst (h v hv)

lemma MsixEntry.Simulates.signals_eq (h : e.Simulates n) (hv : v < n) :
    decide (v ∈ e.signals) = ((e.before.vector v).step (e.action.event e.before v)).2 :=
  congrArg Prod.snd (h v hv)

/-- It is signalled by the first write that makes it deliverable, by induction on what is before. -/
lemma waiting_delivered (hv : v < n) {between rest : List MsixEntry} {w : MsixEntry}
    (hr : Recorded n d (between ++ w :: rest))
    (hds : ∀ e ∈ between ++ w :: rest, e.disciplined = true)
    (hw : (d.vector v).waiting = true)
    (hf : ∀ e ∈ between, e.isWrite = true → (e.after.vector v).deliverable = false)
    (hdel : (w.after.vector v).deliverable = true) :
    v ∈ w.signals ∧ (w.after.vector v).pending = false := by
  induction between generalizing d with
  | nil =>
    obtain ⟨hp, hsim, -⟩ := hr
    have hs := waiting_step (hp ▸ hw) (disciplined_event (hds w (by simp)) v)
    rw [← hsim.after_eq hv, ← hsim.signals_eq hv, if_pos hdel] at hs
    exact ⟨of_decide_eq_true hs.1, hs.2⟩
  | cons e between ih =>
    obtain ⟨hp, hsim, hr⟩ := hr
    have hev := disciplined_event (hds e (by simp)) v
    have hs := waiting_step (hp ▸ hw) hev
    rw [← hsim.after_eq hv] at hs
    have hn : (e.after.vector v).deliverable = false := by
      cases hwr : e.isWrite with
      | true => exact hf e (by simp) hwr
      | false =>
        rw [hsim.after_eq hv, deliverable_step (e.event_of_not_write hwr v)]
        exact not_deliverable_of_waiting (hp ▸ hw)
    rw [hn] at hs
    exact ih hr (fun x hx => hds x (by simp [hx])) hs
      (fun x hx => hf x (by simp [hx]))

lemma signals_le_raises (hv : v < n) {entries : List MsixEntry} (hrec : Recorded n d entries)
    (hds : ∀ e ∈ entries, e.disciplined = true) :
    entries.countP (fun e => decide (v ∈ e.signals)) ≤
      (d.vector v).pending.toNat + entries.countP (·.raises v) := by
  induction entries generalizing d with
  | nil => exact Nat.zero_le _
  | cons e entries ih =>
    obtain ⟨hp, hsim, hrec⟩ := hrec
    obtain ⟨he, hds⟩ := forall_mem_cons.mp hds
    have hs := step_accounts (e.before.vector v) (e.action.event e.before v)
    rw [← hsim.after_eq hv, ← hsim.signals_eq hv, isTrigger_event he v,
      hp] at hs
    have hr := ih hrec hds
    have hc (p : MsixEntry → Bool) : (e :: entries).countP p = (p e).toNat + entries.countP p := by
      rw [countP_cons]
      cases p e <;> simp [Nat.add_comm]
    rw [hc, hc]
    omega

lemma MsixDevice.new_wellFormed (h : n ≤ maxMsixVectorsPerDevice) : (new n h).WellFormed n :=
  ⟨length_replicate, length_replicate, length_replicate⟩

lemma MsixDevice.new_not_pending (h : n ≤ maxMsixVectorsPerDevice) (v : Nat) :
    ((new n h).vector v).pending = false := by
  simp only [vector, MsixConfig.pending, new, getD_eq_getElem?_getD, getElem?_replicate]
  split <;> simp

/-- **No interrupt is lost.** Along any run in which the guest does not switch MSI-X off again
and the device model raises vectors that have their event: a vector that is raised unmasked is
signalled at once; one that is raised masked is signalled, and is no longer pending, by the
first write after which MSI-X is enabled and both masks are clear; and there are no more
signals than there were vectors raised. -/
theorem no_interrupt_lost (hn : n ≤ maxMsixVectorsPerDevice) (actions : List MsixAction)
    (hfits : ∀ a ∈ actions, a.Fits n)
    (hdisciplined : ∀ entries, (new n hn).execute actions = .ok entries →
      ∀ e ∈ entries, e.disciplined = true) :
    ∃ entries, (new n hn).execute actions = .ok entries ∧ ∀ v, v < n →
      (∀ before e after, entries = before ++ e :: after → e.raises v = true →
        ((e.before.vector v).deliverable = true → v ∈ e.signals) ∧
        ((e.before.vector v).deliverable = false →
          ∀ between w rest, after = between ++ w :: rest → w.isWrite = true →
            (w.after.vector v).deliverable = true →
            (∀ x ∈ between, x.isWrite = true → (x.after.vector v).deliverable = false) →
            v ∈ w.signals ∧ (w.after.vector v).pending = false)) ∧
      entries.countP (fun e => decide (v ∈ e.signals)) ≤ entries.countP (·.raises v) := by
  obtain ⟨entries, hrun, hrec⟩ := execute_recorded (new_wellFormed hn) hfits
  have hall := hdisciplined entries hrun
  refine ⟨entries, hrun, fun v hv => ⟨?_, ?_⟩⟩
  · rintro before e after rfl hr
    obtain ⟨d, hp, hsim, ha⟩ := hrec.of_append
    have hev := event_of_raises hr
    have hs := trigger_step (hev ▸ disciplined_event (hall e (by simp)) v)
    rw [← hev, ← hsim.after_eq hv, ← hsim.signals_eq hv] at hs
    constructor
    · intro hdel
      rw [if_pos hdel] at hs
      exact of_decide_eq_true hs
    · rintro hm between w rest rfl - hdel hf
      rw [hm] at hs
      exact waiting_delivered hv ha (fun x hx => hall x (by simp at hx ⊢; tauto)) hs hf
        hdel
  · have hc := signals_le_raises hv hrec hall
    rw [new_not_pending] at hc
    simpa using hc

def grantingSocket : MsiSocket where
  allocateOneMsi := fun i => some (32 + i)
  addMsiRoute := fun _ => true

lemma grantingSocket_succeeds : grantingSocket.Succeeds := ⟨fun _ => rfl, fun _ => rfl⟩

/-- Enable MSI-X, unmask the vector, mask it again, raise it, unmask it. -/
def maskedRaise : List MsixAction :=
  [.writeCapability grantingSocket 2 [0x00, 0x80], .writeTable grantingSocket 0xc [0, 0, 0, 0],
    .writeTable grantingSocket 0xc [1, 0, 0, 0], .trigger 0,
    .writeTable grantingSocket 0xc [0, 0, 0, 0]]

theorem no_interrupt_lost_maskedRaise :
    ∃ entries, (new 1 (by decide)).execute maskedRaise = .ok entries ∧ ∀ v, v < 1 →
      (∀ before e after, entries = before ++ e :: after → e.raises v = true →
        ((e.before.vector v).deliverable = true → v ∈ e.signals) ∧
        ((e.before.vector v).deliverable = false →
          ∀ between w rest, after = between ++ w :: rest → w.isWrite = true →
            (w.after.vector v).deliverable = true →
            (∀ x ∈ between, x.isWrite = true → (x.after.vector v).deliverable = false) →
            v ∈ w.signals ∧ (w.after.vector v).pending = false)) ∧
      entries.countP (fun e => decide (v ∈ e.signals)) ≤ entries.countP (·.raises v) := by
  refine no_interrupt_lost (by decide) maskedRaise ?_ ?_
  · simp [maskedRaise, MsixAction.Fits, grantingSocket_succeeds]
  · have ha : ((new 1 (by decide)).execute maskedRaise).okAll
        (·.all disciplined) = true := by decide
    intro entries hr e he
    exact all_eq_true.mp (Outcome.okAll_iff.mp ha entries hr) e he

/-- Two runs that lose an interrupt. In the first, MSI-X is enabled under the function mask, so
the unmasked vector never gets its event, and clearing the mask clears its pending bit without
a signal. In the second, the vector is raised before its first unmasking, which gives it its
event and does not look at the pending bit. -/
theorem interrupts_lost :
    ((new 1 (by decide)).execute
        [.writeTable grantingSocket 0xc [0, 0, 0, 0],
          .writeCapability grantingSocket 2 [0x00, 0xC0], .trigger 0,
          .writeCapability grantingSocket 2 [0x00, 0x80]]).okAnd
      (fun entries => entries.all (fun e => e.signals == []) &&
        entries.any (·.raises 0) &&
        entries.getLast?.any fun e => (e.after.vector 0).deliverable &&
          !(e.after.vector 0).pending) = true ∧ ((new 1 (by decide)).execute
        [.writeCapability grantingSocket 2 [0x00, 0x80], .trigger 0,
          .writeTable grantingSocket 0xc [0, 0, 0, 0]]).okAnd
      (fun entries => entries.all (fun e => e.signals == []) &&
        entries.any (·.raises 0) &&
        entries.getLast?.any fun e => (e.after.vector 0).deliverable &&
          (e.after.vector 0).pending) = true := by
  decide

end GunyahVmm.Pci
