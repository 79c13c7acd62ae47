import GunyahVmm.VirtioKeyboard.Driver

/-! Memory safety of the keyboard driver, which trusts the id of a used element, its length, read
again after the check, and the low byte of a key code. -/

namespace GunyahVmm.VirtioKeyboard
open Run

/-- A device that names buffers of the ring, leaves used elements alone, and sends no key code whose
low byte is `0xFF`. -/
structure UsedView.Honest (v : UsedView) (count : Nat) : Prop where
  id_lt : v.id.toNat < count
  lenAtCopy_eq : ∀ l, v.lenAtCopy l = l
  lenAtReport_eq : ∀ l, v.lenAtReport l = l
  code_ne : le16 v.bytes (keyboardRxBufsize * v.id.toNat) = 1 →
    v.bytes (keyboardRxBufsize * v.id.toNat + 2) ≠ 0xFF#8

def Call.Honest (count : Nat) : Call → Prop
  | .timer _ views => ∀ v ∈ views, v.Honest count
  | .readKeyStroke => True

/-- A ring in use with `count` receive buffers. -/
structure VirtioKbdRing.Serves (ring : VirtioKbdRing) (count : Nat) : Prop where
  bufferSize_eq : ring.bufferSize.toNat = keyboardRxBufsize
  queueSize_eq : ring.queueSize.toNat = count
  count_pos : 0 < count
  count_lt : count < 2 ^ 16

variable {lib : VirtioLib} {ring : VirtioKbdRing} {dev : VirtioKbdDev} {count : Nat}
section
variable (h : ring.Serves count)
include h

lemma VirtioKbdRing.Serves.capacity_eq : ring.capacity = count * keyboardRxBufsize := by
  rw [capacity, ring.bufferCount_eq, h.queueSize_eq, h.bufferSize_eq]

lemma VirtioKbdRing.Serves.queueSize_ne : ring.queueSize ≠ 0 := by
  intro hz
  have hc := h.queueSize_eq
  have hpos := h.count_pos
  rw [hz] at hc
  simp at hc
  omega

lemma VirtioKbdRing.Serves.bufferOffset_eq {id : BitVec 32}
    (hid : id.toNat < count) : ring.bufferOffset id = keyboardRxBufsize * id.toNat := by
  have hlt := h.count_lt
  rw [bufferOffset, BitVec.toNat_mul, h.bufferSize_eq, Nat.mod_eq_of_lt]
  simp only [keyboardRxBufsize]
  omega

lemma sendBuffer_yields :
    (ring.sendBuffer lib none ring.bufferSize).Yields fun r => r.Serves count := by
  unfold VirtioKbdRing.sendBuffer
  rw [if_neg h.queueSize_ne, if_neg (BitVec.lt_irrefl _), if_neg (by simp)]
  exact ⟨h.bufferSize_eq, h.queueSize_eq, h.count_pos, h.count_lt⟩

lemma getBuffer_yields {v : UsedView} (hv : v.Honest count) (data : Nat → BitVec 8) :
    (ring.getBuffer lib 0 data v).Yields fun got =>
      got.1.Serves count ∧ ∀ d, got.2 = some d →
        ∀ i, i < d.2.toNat → d.1 i = v.bytes (keyboardRxBufsize * v.id.toNat + i) := by
  have hc : (ring.clampedLen v.len).toNat ≤ keyboardRxBufsize := by
    rw [← h.bufferSize_eq]
    unfold VirtioKbdRing.clampedLen
    split
    · simp
    · rename_i hle
      exact BitVec.not_lt.mp hle
  have hrm : keyboardRxBufsize * v.id.toNat + (ring.clampedLen v.len).toNat ≤
      count * keyboardRxBufsize := by
    have hm := Nat.mul_le_mul_right keyboardRxBufsize (Nat.succ_le_of_lt hv.id_lt)
    rw [Nat.succ_mul, Nat.mul_comm] at hm
    omega
  unfold VirtioKbdRing.getBuffer
  split
  · exact ⟨h, fun d hd => by cases hd⟩
  split
  · exact ⟨h, fun d hd => by cases hd⟩
  rw [if_neg h.queueSize_ne]
  dsimp only
  rw [hv.lenAtCopy_eq, hv.lenAtReport_eq, VirtioKbdRing.copyOut, h.capacity_eq,
    h.bufferOffset_eq hv.id_lt, if_neg (Nat.not_lt.mpr hrm),
    if_neg (by omega), Outcome.ok_bind, if_pos rfl]
  refine (sendBuffer_yields h).bind fun r hr => ?_
  refine ⟨⟨hr.bufferSize_eq, hr.queueSize_eq, hr.count_pos, hr.count_lt⟩, ?_⟩
  intro d hd i hi
  cases hd
  exact if_pos hi

end

/-- An event whose code does not end in `0xFF` is entered into the key table. -/
lemma handleEvent_yields {data : Nat → BitVec 8} (h : dev.ring.Serves count)
    (hc : le16 data 0 = 1 → data 2 ≠ 0xFF#8) :
    (dev.handleEvent data).Yields fun d => d.ring.Serves count := by
  have hl : (le16 data 2).setWidth 8 = data 2 := by
    unfold le16
    exact BitVec.setWidth_append_eq_right
  have hs (ht : le16 data 0 = 1) (value : Bool) :
      (dev.setActive ((le16 data 2).setWidth 8).toNat value).Yields fun d =>
        d.ring.Serves count := by
    have hlt : ((le16 data 2).setWidth 8).toNat < maxKeyboardCode := by
      have hne := hc ht
      rw [hl, maxKeyboardCode]
      have hb := (data 2).isLt
      have hne' : (data 2).toNat ≠ 255 := fun heq => hne (BitVec.eq_of_toNat_eq heq)
      omega
    rw [VirtioKbdDev.setActive, if_pos hlt]
    exact h
  unfold VirtioKbdDev.handleEvent
  dsimp only
  split
  · rename_i ht
    split
    · exact (hs ht true).bind fun d hd => hd
    · exact hs ht false
  · exact h

/-- The loop with an honest device, by induction on its rounds. -/
lemma getDeviceData_yields {views : List UsedView} (hvw : ∀ v ∈ views, v.Honest count) :
    ∀ {dev : VirtioKbdDev} {data : Nat → BitVec 8}, dev.ring.Serves count →
      (dev.getDeviceData lib data views).Yields fun d => d.ring.Serves count := by
  induction views with
  | nil => exact fun h => h
  | cons v views ih =>
    intro dev data h
    obtain ⟨hv, hvw⟩ := List.forall_mem_cons.mp hvw
    unfold VirtioKbdDev.getDeviceData
    refine (getBuffer_yields h hv data).bind ?_
    rintro ⟨ring, got⟩ ⟨hr, hg⟩
    cases got with
    | none => exact hr
    | some got =>
      obtain ⟨data, dataSize⟩ := got
      dsimp only
      split
      · exact ih hvw hr
      rename_i hs
      have hdt := hg _ rfl
      dsimp only at hdt
      refine (handleEvent_yields hr ?_).bind fun d hd => ih hvw hd
      intro ht
      rw [hdt 2 (by omega)]
      refine hv.code_ne ?_
      rw [← ht, le16, le16, hdt 0 (by omega), hdt (0 + 1) (by omega)]
      rfl

lemma step_yields {call : Call} (h : dev.ring.Serves count) (hc : call.Honest count) :
    (step lib dev call).Yields fun d => d.ring.Serves count := by
  cases call with
  | timer stack views => exact getDeviceData_yields hc h
  | readKeyStroke =>
    change (dev.readKeyStroke.2).ring.Serves count
    unfold VirtioKbdDev.readKeyStroke
    split <;> exact h

section
variable (lib : VirtioLib) (queueSize : BitVec 16) (deviceAddress : BitVec 64)
    (hpos : 0 < queueSize.toNat)

lemma start_yields :
    (start lib queueSize deviceAddress hpos).Yields fun d => d.ring.Serves queueSize.toNat := by
  have hi : (initRing lib queueSize deviceAddress hpos).Serves queueSize.toNat :=
    ⟨rfl, rfl, hpos, queueSize.isLt⟩
  unfold start ringFillRx
  refine Outcome.Yields.bind (P := fun r => r.Serves queueSize.toNat) ?_ fun r hr => hr
  exact Outcome.Yields.foldlM _ hi fun r _ _ hr => sendBuffer_yields hr

/-- **Memory safety of polling.** With a device that names its own buffers, leaves used
elements alone and sends no code ending in `0xFF`, no sequence of calls leaves the buffer
memory, the data array or the key table. -/
theorem polls_stay_inside (calls : List Call)
    (hcalls : ∀ call ∈ calls, call.Honest queueSize.toNat) :
    (start lib queueSize deviceAddress hpos >>= fun dev =>
      calls.foldlM (step lib) dev) ≠ .panic := by
  have hr : (start lib queueSize deviceAddress hpos >>= fun dev =>
    calls.foldlM (step lib) dev).Yields
      fun d => d.ring.Serves queueSize.toNat := by
    refine (start_yields lib queueSize deviceAddress hpos).bind fun dev hdev => ?_
    exact Outcome.Yields.foldlM _ hdev fun d call hc hd => step_yields hd (hcalls call hc)
  exact (Outcome.yields_iff.mp hr).1

end

/-- A library that counts the descriptors from zero and writes each at the next index. -/
def tableLib : VirtioLib where
  prepare := fun _ => ⟨0, 0⟩
  appendDesc queueSize table desc indices :=
    (table.set (indices.nextDescIdx % queueSize).toNat desc,
      ⟨indices.headDescIdx, indices.nextDescIdx + 1⟩)
  appendDesc_length := fun _ _ _ _ => List.length_set

/-- A round that returns buffer `id` with eight bytes: the press of the key `code`. -/
def keyPress (id : BitVec 32) (code : BitVec 8) : UsedView where
  usedIdx := 1
  len := 8
  id := id
  lenAtCopy := fun l => l
  bytes := fun i => if i % 64 = 0 ∨ i % 64 = 4 then 1 else if i % 64 = 2 then code else 0
  lenAtReport := fun l => l

theorem polls_stay_inside_keyPress :
    (keyPress 0 30).Honest 1 ∧
      (start tableLib 1 0 (by decide) >>= fun dev =>
        [Call.timer (fun _ => 0) [keyPress 0 30], .readKeyStroke].foldlM (step tableLib) dev) ≠
          .panic := by
  have hvw : (keyPress 0 30).Honest 1 := ⟨by decide, fun _ => rfl, fun _ => rfl, fun _ => by decide⟩
  refine ⟨hvw, polls_stay_inside tableLib 1 0 (by decide) _ ?_⟩
  intro call hc
  rcases List.mem_cons.mp hc with rfl | hc
  · intro v hv
    rw [List.mem_singleton.mp hv]
    exact hvw
  · rw [List.mem_singleton.mp hc]
    trivial

/-- The three ways out: the second buffer of a ring with one, a length that grows after the
check, and the key code 255. -/
theorem polls_leave_arrays :
    (start tableLib 1 0 (by decide) >>= fun dev =>
        step tableLib dev (.timer (fun _ => 0) [keyPress 1 30])).isPanic = true ∧
      (start tableLib 1 0 (by decide) >>= fun dev =>
        step tableLib dev (.timer (fun _ => 0)
          [{ keyPress 0 30 with lenAtCopy := fun _ => 1000 }])).isPanic = true ∧
      (start tableLib 1 0 (by decide) >>= fun dev =>
        step tableLib dev (.timer (fun _ => 0) [keyPress 0 255])).isPanic = true := by
  decide

end GunyahVmm.VirtioKeyboard
