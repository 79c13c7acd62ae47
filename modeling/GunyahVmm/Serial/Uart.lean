import GunyahVmm.Lib.Run

/-! The serial port (`devices/src/serial.rs`). Input reaches the guest through a buffer, and the
guest learns of it through the line status and an interrupt. -/

namespace GunyahVmm
open Run List

structure Serial where
  interruptEnable : BitVec 8 := 0
  interruptIdentification : BitVec 8 := 0x01
  lineControl : BitVec 8 := 0x03
  lineStatus : BitVec 8 := 0x60
  modemControl : BitVec 8 := 0x08
  modemStatus : BitVec 8 := 0xb0
  scratch : BitVec 8 := 0
  baudDivisor : BitVec 16 := 12
  inBuffer : List (BitVec 8) := []
  /-- What the input thread has sent and no read has taken over. -/
  inChannel : List (BitVec 8) := []
  /-- How often the interrupt event has been signalled, with or without success. -/
  signals : Nat := 0

namespace Serial
-- `evt n` says whether signalling the event succeeds after `n` earlier times.
variable (evt : Nat → Bool) (s : Serial)

/-! ## The registers -/

def isDlabSet : Bool := s.lineControl.getLsbD 7
def isRecvIntrEnabled : Bool := s.interruptEnable.getLsbD 0
def isThrIntrEnabled : Bool := s.interruptEnable.getLsbD 1
def isThrIntrChanged (bit : BitVec 8) : Bool := (s.interruptEnable ^^^ bit) &&& 0x0f != 0
def isLoop : Bool := s.modemControl.getLsbD 4
def isDataAvaiable : Bool := s.lineStatus.getLsbD 0

def addIntrBit (bit : BitVec 8) : Serial :=
  { s with interruptIdentification := s.interruptIdentification &&& ~~~1 ||| bit }

def delIntrBit (bit : BitVec 8) : Serial :=
  let rest := s.interruptIdentification &&& ~~~bit
  { s with interruptIdentification := if rest = 0 then 0x01 else rest }

-- A call that can fail returns whether it succeeded, with what it has done by then.
def triggerInterrupt : Bool × Serial := (evt s.signals, { s with signals := s.signals + 1 })

def triggerThrEmpty : Bool × Serial :=
  if s.isThrIntrEnabled then (s.addIntrBit 0x02).triggerInterrupt evt else (true, s)

def triggerRecvInterrupt : Bool × Serial :=
  if s.isRecvIntrEnabled then
    if s.interruptIdentification.getLsbD 2 then (true, s)
    else (s.addIntrBit 0x04).triggerInterrupt evt
  else (true, s)

def setDataBit : Serial := { s with lineStatus := s.lineStatus ||| 0x01 }

/-! ## Input -/

/-- The three steps that queued bytes and looped ones share. -/
def receive (c : List (BitVec 8)) : Bool × Serial :=
  ({ s with inBuffer := s.inBuffer ++ c }.setDataBit).triggerRecvInterrupt evt

def queueInputBytes (c : List (BitVec 8)) : Bool × Serial :=
  if c ≠ [] ∧ ¬ s.isLoop then s.receive evt c else (true, s)

def drain : List (BitVec 8) → Serial → Option Serial
  | [], s => some s
  | byte :: rest, s =>
    if (s.queueInputBytes evt [byte]).1 then drain rest (s.queueInputBytes evt [byte]).2 else none

/-- Takes over what has been sent; `none` if a failed signal aborts the process. -/
def drainInChannel : Option Serial := drain evt s.inChannel { s with inChannel := [] }

/-! ## Accesses of the guest -/

/-- A byte for the output, which took it if `written`, or for a looped port itself. -/
def writeData (written : Bool) (v : BitVec 8) : Bool × Serial :=
  if s.isLoop then if s.inBuffer.length < 0x40 then s.receive evt [v] else (true, s)
  else if written then s.triggerThrEmpty evt else (false, s)

def writeInterruptEnable (v : BitVec 8) : Bool × Serial :=
  let enabled := { s with interruptEnable := v &&& 0x0f }
  let r := if s.isDataAvaiable then enabled.triggerRecvInterrupt evt else (true, enabled)
  if r.1 ∧ s.isThrIntrChanged v then r.2.triggerThrEmpty evt else r

def handleWrite (written : Bool) (offset v : BitVec 8) : Bool × Serial :=
  match offset.toNat, s.isDlabSet with
  | 0, true => (true, { s with baudDivisor := s.baudDivisor &&& 0xff00 ||| v.setWidth 16 })
  | 1, true => (true, { s with baudDivisor := s.baudDivisor &&& 0x00ff ||| v.setWidth 16 <<< 8 })
  | 0, _ => s.writeData evt written v
  | 1, _ => s.writeInterruptEnable evt v
  | 3, _ => (true, { s with lineControl := v })
  | 4, _ => (true, { s with modemControl := v })
  | 7, _ => (true, { s with scratch := v })
  | _, _ => (true, s)

/-- The modem status, which a looped port makes from the control lines. -/
def readModemStatus : BitVec 8 :=
  if s.isLoop then
    s.modemStatus &&& 0x0f ||| (if s.modemControl.getLsbD 0 then 0x20 else 0) |||
      (if s.modemControl.getLsbD 1 then 0x10 else 0) |||
      (if s.modemControl.getLsbD 2 then 0x40 else 0) |||
      if s.modemControl.getLsbD 3 then 0x80 else 0
  else s.modemStatus

/-- Takes the first byte of the buffer; the data bit goes with the last one. -/
def popData : Serial :=
  { s.delIntrBit 0x04 with
    lineStatus := if s.inBuffer.length ≤ 1 then s.lineStatus &&& ~~~0x01 else s.lineStatus
    inBuffer := s.inBuffer.tail }

def readRegister (offset : BitVec 8) : BitVec 8 × Serial :=
  match offset.toNat, s.isDlabSet with
  | 0, true => (s.baudDivisor.setWidth 8, s)
  | 1, true => ((s.baudDivisor >>> 8).setWidth 8, s)
  | 0, _ => (s.inBuffer.headD 0, s.popData)
  | 1, _ => (s.interruptEnable, s)
  | 2, _ => (s.interruptIdentification ||| 0xc0, { s with interruptIdentification := 0x01 })
  | 3, _ => (s.lineControl, s)
  | 4, _ => (s.modemControl, s)
  | 5, _ => (s.lineStatus, s)
  | 6, _ => (s.readModemStatus, s)
  | 7, _ => (s.scratch, s)
  | _, _ => (0, s)

/-- The input thread sends a byte and then signals, the host queues bytes, the guest accesses. -/
inductive Access where
  | send (byte : BitVec 8)
  | notify
  | queue (c : List (BitVec 8))
  | write (written : Bool) (offset : BitVec 8) (data : List (BitVec 8))
  | read (offset : BitVec 8) (data : List (BitVec 8))

def step : Access → Option Serial
  | .send byte => some { s with inChannel := s.inChannel ++ [byte] }
  | .notify =>
    if ¬ s.isRecvIntrEnabled then some s
    else if evt s.signals then some (s.triggerInterrupt evt).2 else none
  | .queue c => some (s.queueInputBytes evt c).2
  | .write written offset [v] => some (s.handleWrite evt written offset v).2
  | .read offset [_] => (s.drainInChannel evt).map fun t => (t.readRegister offset).2
  | _ => some s

/-! ## The buffer -/

/-- The bytes an access brings in: none from outside while the port is looped. -/
def arrived : Access → List (BitVec 8)
  | .queue c => if s.isLoop then [] else c
  | .write _ offset [v] =>
    if (offset = 0 ∧ ¬ s.isDlabSet) ∧ s.isLoop ∧ s.inBuffer.length < 0x40 then [v] else []
  | .read _ [_] => if s.isLoop then [] else s.inChannel
  | _ => []

/-- The byte a read of the data register returns while the line status announces one. -/
def delivered : Access → List (BitVec 8)
  | .read offset [_] => match s.drainInChannel evt with
    | some t =>
      if offset = 0 ∧ ¬ t.isDlabSet ∧ t.isDataAvaiable then [(t.readRegister offset).1] else []
    | none => []
  | _ => []

/-- What holds between accesses: the line status announces what the buffer has, and a receive
interrupt is identified only while there is something to receive. -/
structure Sound : Prop where
  data : s.isDataAvaiable = true ↔ s.inBuffer ≠ []
  recv : s.interruptIdentification.getLsbD 2 = true → s.inBuffer ≠ []

/-- A call that brings in `c`, gives out `d`, and signals the first bytes of an empty buffer. -/
structure Moves (s t : Serial) (c d : List (BitVec 8)) : Prop where
  buffer : s.inBuffer ++ c = d ++ t.inBuffer
  sound : t.Sound
  signals : s.signals ≤ t.signals
  first : s.inBuffer = [] → t.inBuffer ≠ [] → t.isRecvIntrEnabled → s.signals < t.signals

variable {evt s} {t u : Serial} {c c' d d' : List (BitVec 8)}

lemma Moves.trans (h : Moves s t c d) (h' : Moves t u c' d')
    (he : u.interruptEnable = t.interruptEnable) : Moves s u (c ++ c') (d ++ d') := by
  refine ⟨?_, h'.sound, Nat.le_trans h.signals h'.signals, fun hs hu hr => ?_⟩
  · rw [← append_assoc, h.buffer, append_assoc, h'.buffer, append_assoc]
  by_cases ht : t.inBuffer = []
  · exact Nat.lt_of_le_of_lt h.signals (h'.first ht hu hr)
  · exact Nat.lt_of_lt_of_le (h.first hs ht (by rwa [isRecvIntrEnabled, ← he])) h'.signals

/-- A call that leaves the buffer alone and identifies no receive interrupt. -/
lemma Sound.quiet (hs : s.Sound) (hb : t.inBuffer = s.inBuffer) (hl : t.lineStatus = s.lineStatus)
    (hi : t.interruptIdentification.getLsbD 2 = true → s.interruptIdentification.getLsbD 2 = true)
    (hn : s.signals ≤ t.signals) : Moves s t [] [] := by
  refine ⟨by simp [hb], ⟨?_, fun h => ?_⟩, hn, fun h h' => absurd (hb.trans h) h'⟩
  · rw [isDataAvaiable, hl, hb]
    exact hs.data
  · rw [hb]
    exact hs.recv (hi h)

lemma Sound.refl (hs : s.Sound) : Moves s s [] [] := hs.quiet rfl rfl id (Nat.le_refl _)

lemma Sound.triggerThrEmpty (hs : s.Sound) : Moves s (s.triggerThrEmpty evt).2 [] [] ∧
    (s.triggerThrEmpty evt).2.interruptEnable = s.interruptEnable := by
  unfold Serial.triggerThrEmpty
  split
  · refine ⟨hs.quiet rfl rfl (fun h => ?_) (Nat.le_succ _), rfl⟩
    simpa [triggerInterrupt, addIntrBit] using h
  · exact ⟨hs.refl, rfl⟩

/-- The trigger identifies the interrupt and signals, unless that has been done already. -/
lemma triggerRecvInterrupt_eq (evt : Nat → Bool) (s : Serial) : ∃ bits n,
    (s.triggerRecvInterrupt evt).2 = { s with interruptIdentification := bits, signals := n } ∧
      s.signals ≤ n ∧
      (s.isRecvIntrEnabled = true → s.interruptIdentification.getLsbD 2 = false →
        s.signals < n) := by
  unfold triggerRecvInterrupt
  split_ifs with hr hi
  · exact ⟨_, _, rfl, Nat.le_refl _, fun _ h => absurd (hi.symm.trans h) (by simp)⟩
  · exact ⟨_, _, rfl, Nat.le_succ _, fun _ _ => Nat.lt_succ_self _⟩
  · exact ⟨_, _, rfl, Nat.le_refl _, fun h => absurd h hr⟩

lemma Sound.receive (hs : s.Sound) (hc : c ≠ []) : Moves s (s.receive evt c).2 c [] ∧
    (s.receive evt c).2.interruptEnable = s.interruptEnable ∧
    (s.receive evt c).2.modemControl = s.modemControl := by
  obtain ⟨bits, n, he, hle, hlt⟩ :=
    triggerRecvInterrupt_eq evt ({ s with inBuffer := s.inBuffer ++ c }.setDataBit)
  have hne : s.inBuffer ++ c ≠ [] := fun h => hc (append_eq_nil_iff.mp h).2
  rw [Serial.receive, he]
  refine ⟨⟨rfl, ⟨iff_of_true ?_ hne, fun _ => hne⟩, hle, fun hn _ hr => ?_⟩, rfl, rfl⟩
  · simp [isDataAvaiable, setDataBit]
  · -- No receive interrupt is identified while the buffer is empty.
    exact hlt hr (Bool.eq_false_iff.mpr fun h => hs.recv h hn)

lemma Sound.queueInputBytes (hs : s.Sound) (c : List (BitVec 8)) :
    Moves s (s.queueInputBytes evt c).2 (if s.isLoop then [] else c) [] ∧
      (s.queueInputBytes evt c).2.interruptEnable = s.interruptEnable ∧
      (s.queueInputBytes evt c).2.modemControl = s.modemControl := by
  unfold Serial.queueInputBytes
  split_ifs with h hl hl
  · exact absurd hl h.2
  · exact hs.receive h.1
  · exact ⟨hs.refl, rfl, rfl⟩
  · obtain rfl : c = [] := by simpa [hl] using h
    exact ⟨hs.refl, rfl, rfl⟩

lemma Sound.drain {bytes : List (BitVec 8)} (hs : s.Sound) (h : drain evt bytes s = some t) :
    Moves s t (if s.isLoop then [] else bytes) [] ∧ t.interruptEnable = s.interruptEnable := by
  induction bytes generalizing s with
  | nil =>
    cases h
    exact ⟨by simpa using hs.refl, rfl⟩
  | cons byte rest ih =>
    rw [Serial.drain] at h
    split_ifs at h
    obtain ⟨hq, he, hm⟩ := @Sound.queueInputBytes evt s hs [byte]
    obtain ⟨hr, he'⟩ := ih hq.sound h
    refine ⟨?_, he'.trans he⟩
    have hl : (s.queueInputBytes evt [byte]).2.isLoop = s.isLoop := congrArg (·.getLsbD 4) hm
    have hst := hq.trans hr he'
    rw [hl] at hst
    cases hs : s.isLoop <;> simpa [hs] using hst

lemma Sound.popData (hs : s.Sound) :
    Moves s s.popData [] (if s.isDataAvaiable then [s.inBuffer.headD 0] else []) := by
  have hd := hs.data
  refine ⟨?_, ⟨?_, fun h => ?_⟩, Nat.le_refl _, fun h h' => absurd (by simp [Serial.popData, h]) h'⟩
  · cases hb : s.inBuffer <;> simp_all [Serial.popData]
  · rcases hb : s.inBuffer with _ | ⟨b, _ | ⟨b', rest⟩⟩ <;>
      simp_all [Serial.popData, isDataAvaiable]
  · simp only [Serial.popData, delIntrBit] at h
    split_ifs at h <;> simp at h

lemma Sound.readRegister (hs : s.Sound) (offset : BitVec 8) :
    Moves s (s.readRegister offset).2 [] (if offset = 0 ∧ ¬ s.isDlabSet ∧ s.isDataAvaiable then
        [(s.readRegister offset).1] else []) ∧
      (s.readRegister offset).2.interruptEnable = s.interruptEnable := by
  by_cases h : offset = 0 ∧ ¬ s.isDlabSet
  · obtain ⟨rfl, hd⟩ := h
    have hr : s.readRegister 0 = (s.inBuffer.headD 0, s.popData) := by
      simp [Serial.readRegister, hd]
    rw [hr]
    exact ⟨by simpa [hd] using hs.popData, rfl⟩
  rw [if_neg fun h' => h ⟨h'.1, h'.2.1⟩]
  unfold Serial.readRegister
  split
  case h_3 ho hd => exact absurd ⟨BitVec.eq_of_toNat_eq ho, hd⟩ h
  case h_5 => exact ⟨hs.quiet rfl rfl (fun h => by simp at h) (Nat.le_refl _), rfl⟩
  all_goals exact ⟨hs.refl, rfl⟩

lemma Sound.writeData (hs : s.Sound) (written : Bool) (v : BitVec 8) :
    Moves s (s.writeData evt written v).2
      (if s.isLoop ∧ s.inBuffer.length < 0x40 then [v] else []) [] := by
  unfold Serial.writeData
  by_cases hl : s.isLoop
  · by_cases hr : s.inBuffer.length < 0x40
    · rw [if_pos hl, if_pos hr, if_pos ⟨hl, hr⟩]
      exact (hs.receive (cons_ne_nil v [])).1
    · rw [if_pos hl, if_neg hr, if_neg fun h => hr h.2]
      exact hs.refl
  · rw [if_neg hl, if_neg (fun h => hl h.1 : ¬ (s.isLoop ∧ s.inBuffer.length < 0x40))]
    split
    · exact hs.triggerThrEmpty.1
    · exact hs.refl

lemma Sound.writeInterruptEnable (hs : s.Sound) (v : BitVec 8) :
    Moves s (s.writeInterruptEnable evt v).2 [] [] := by
  unfold Serial.writeInterruptEnable
  extract_lets enabled r
  have hr : Moves s r.2 [] [] := by
    dsimp only [r]
    split
    · rename_i hda
      obtain ⟨bits, n, he, hle, -⟩ := triggerRecvInterrupt_eq evt enabled
      have hb := hs.data.mp hda
      rw [he]
      exact ⟨append_nil _, ⟨hs.data, fun _ => hb⟩, hle, fun h => absurd h hb⟩
    · exact hs.quiet rfl rfl id (Nat.le_refl _)
  split
  · exact hr.trans hr.sound.triggerThrEmpty.1 hr.sound.triggerThrEmpty.2
  · exact hr

lemma Sound.handleWrite (hs : s.Sound) (written : Bool) (offset v : BitVec 8) :
    Moves s (s.handleWrite evt written offset v).2 (s.arrived (.write written offset [v])) [] := by
  by_cases h : offset = 0 ∧ ¬ s.isDlabSet
  · obtain ⟨rfl, hd⟩ := h
    simpa [arrived, Serial.handleWrite, hd] using hs.writeData written v
  rw [show s.arrived (.write written offset [v]) = [] from if_neg fun h' => h h'.1]
  unfold Serial.handleWrite
  split
  case h_3 ho hd => exact absurd ⟨BitVec.eq_of_toNat_eq ho, hd⟩ h
  case h_4 => exact hs.writeInterruptEnable v
  all_goals exact hs.quiet rfl rfl id (Nat.le_refl _)

lemma Sound.step {op : Access} (hs : s.Sound) (h : s.step evt op = some t) :
    Moves s t (s.arrived op) (s.delivered evt op) := by
  match op with
  | .send byte =>
    cases h
    exact hs.quiet rfl rfl id (Nat.le_refl _)
  | .notify =>
    simp only [Serial.step] at h
    split_ifs at h
    · cases h
      exact hs.quiet rfl rfl id (Nat.le_succ _)
    · cases h
      exact hs.refl
  | .queue c =>
    cases h
    exact (hs.queueInputBytes c).1
  | .write written offset [v] =>
    cases h
    exact hs.handleWrite written offset v
  | .read offset [_] =>
    simp only [Serial.step, Option.map_eq_some_iff] at h
    obtain ⟨u, hu, rfl⟩ := h
    have hc : Sound { s with inChannel := [] } := ⟨hs.data, hs.recv⟩
    have hd := (hc.drain hu).1
    obtain ⟨hr, he⟩ := hd.sound.readRegister offset
    have hst := hd.trans hr he
    rw [append_nil, nil_append] at hst
    simp only [delivered, hu]
    exact ⟨hst.buffer, hst.sound, hst.signals, hst.first⟩
  | .write _ _ [] | .write _ _ (_ :: _ :: _) | .read _ [] | .read _ (_ :: _ :: _) =>
    cases h
    exact hs.refl

/-! ## Runs -/

/-- A port with the bytes that have reached it and those that the guest has been given. -/
structure Watched where
  port : Serial := {}
  arrived : List (BitVec 8) := []
  delivered : List (BitVec 8) := []

def Watched.step (evt : Nat → Bool) (w : Watched) (op : Access) : Option Watched :=
  (w.port.step evt op).map fun port =>
    ⟨port, w.arrived ++ w.port.arrived op, w.delivered ++ w.port.delivered evt op⟩

def Watched.Faithful (w : Watched) : Prop :=
  w.port.Sound ∧ w.arrived = w.delivered ++ w.port.inBuffer

lemma Watched.Faithful.step {w w' : Watched} {op : Access} (hw : w.Faithful)
    (h : w.step evt op = some w') : w'.Faithful := by
  obtain ⟨port, hp, rfl⟩ := Option.map_eq_some_iff.mp h
  have hm := hw.1.step hp
  refine ⟨hm.sound, ?_⟩
  rw [hw.2, append_assoc, hm.buffer, append_assoc]

lemma Watched.faithful_init : Watched.Faithful {} :=
  ⟨⟨by decide, by decide⟩, rfl⟩

lemma drain_completes (hevt : ∀ n, evt n = true) (bytes : List (BitVec 8)) (s : Serial) :
    ∃ t, drain evt bytes s = some t := by
  induction bytes generalizing s with
  | nil => exact ⟨s, rfl⟩
  | cons byte rest ih =>
    have hq : (s.queueInputBytes evt [byte]).1 = true := by
      unfold queueInputBytes receive triggerRecvInterrupt
      split_ifs <;> first | rfl | exact hevt _
    rw [drain, if_pos hq]
    exact ih _

lemma step_completes (hevt : ∀ n, evt n = true) (s : Serial) (op : Access) :
    ∃ t, s.step evt op = some t := by
  match op with
  | .send _ | .queue _ | .write _ _ [_] => exact ⟨_, rfl⟩
  | .write _ _ [] | .write _ _ (_ :: _ :: _) | .read _ [] | .read _ (_ :: _ :: _) => exact ⟨_, rfl⟩
  | .notify =>
    simp only [step, hevt, if_true]
    split_ifs <;> exact ⟨_, rfl⟩
  | .read offset [_] =>
    obtain ⟨t, ht⟩ := drain_completes hevt s.inChannel { s with inChannel := [] }
    exact ⟨_, by rw [step, drainInChannel, ht, Option.map_some]⟩

/-- **Conservation.** In whatever order the input thread, the host and the guest touch the port, the
bytes that reached it are those the guest has read, in order, and then those in the buffer, and the
line status announces data exactly if there is some. Only a failed signal aborts. -/
theorem serial_input_conserved (evt : Nat → Bool) (ops : List Access) :
    (∀ w, run (Watched.step evt) ops {} = some w →
      w.arrived = w.delivered ++ w.port.inBuffer ∧
        (w.port.isDataAvaiable = true ↔ w.port.inBuffer ≠ [])) ∧
      ((∀ n, evt n = true) → ∃ w, run (Watched.step evt) ops {} = some w) := by
  constructor
  · intro w hr
    have hw := run_invariant Watched.Faithful (fun _ _ _ hw h => hw.step h) ops {} w
      Watched.faithful_init hr
    exact ⟨hw.2, hw.1.data⟩
  · intro hevt
    obtain ⟨w, hw, -⟩ := run_completes (Watched.step evt) (fun _ _ => True) ops
      (fun _ w op _ _ => by
        obtain ⟨t, ht⟩ := step_completes hevt w.port op
        exact ⟨_, by rw [Watched.step, ht, Option.map_some], trivial⟩) [] {} trivial
    exact ⟨w, hw⟩

theorem serial_input_conserved_two : ∃ w,
    run (Watched.step fun _ => true) [.send 7, .send 8, .read 0 [0]] {} = some w ∧
      w.arrived = w.delivered ++ w.port.inBuffer ∧ w.delivered = [7] := by
  have hs := serial_input_conserved (fun _ => true) [.send 7, .send 8, .read 0 [0]]
  obtain ⟨w, hw⟩ := hs.2 fun _ => rfl
  refine ⟨w, hw, (hs.1 w hw).1, ?_⟩
  have hd : (run (Watched.step fun _ => true) [.send 7, .send 8, .read 0 [0]] {}).map
      Watched.delivered = some [7] := by decide
  rw [hw] at hd
  exact Option.some.inj hd

/-- **No lost interrupt.** Whatever has happened before, the access that brings the first bytes into
an empty buffer signals the event, if the guest has receive interrupts enabled. -/
theorem serial_first_byte_signalled (evt : Nat → Bool) (ops : List Access) (op : Access)
    (w : Watched) (port : Serial) (hr : run (Watched.step evt) ops {} = some w)
    (hst : w.port.step evt op = some port) (hn : w.port.inBuffer = [])
    (hb : port.inBuffer ≠ []) (he : port.isRecvIntrEnabled = true) :
    w.port.signals < port.signals := by
  have hw := run_invariant Watched.Faithful (fun _ _ _ hw h => hw.step h) ops {} w
    Watched.faithful_init hr
  exact (hw.1.step hst).first hn hb he

theorem serial_first_byte_signalled_queue :
    (({ interruptEnable := 0x01 } : Serial).signals <
      (({ interruptEnable := 0x01 } : Serial).queueInputBytes (fun _ => true) [7]).2.signals) :=
  serial_first_byte_signalled (fun _ => true) [.write true 1 [0x01]] (.queue [7])
    { port := { interruptEnable := 0x01 } } _ rfl rfl rfl (by decide) rfl

end Serial

end GunyahVmm
