import GunyahVmm.Lib.BTreeMap
import GunyahVmm.Lib.U64

/-! The bus that routes accesses to devices (`devices/src/bus.rs`). Its ranges stay disjoint as long
as none begins at the last address: the sums of the overlap test saturate. -/

namespace GunyahVmm
open List

def saturatingAdd (a b : Nat) : Nat := min (a + b) (u64Size - 1)

structure BusRange where
  base : Nat
  len : Nat

def BusRange.overlaps (range : BusRange) (base len : Nat) : Bool :=
  range.base < saturatingAdd base len && base < saturatingAdd range.base range.len

inductive BusDeviceEntry (D : Type) where
  | outerSync (device : D)
  | innerSync (device : D)
  deriving DecidableEq

/-- Ranges are compared by their bases: the key is the base, the length stands beside the device. -/
structure Bus (D : Type) where
  devices : BTreeMap Nat (Nat × BusDeviceEntry D)
  accessId : Nat

namespace Bus

inductive Error where
  | overlap (base len otherBase otherLen : Nat)
  | empty

structure BusAccessInfo where
  address : Nat
  offset : Nat
  id : Nat

/-- A call of the `read` or the `write` of a device. -/
structure Call (D : Type) where
  device : BusDeviceEntry D
  io : BusAccessInfo
  data : List (BitVec 8)

variable {D : Type}
section
variable (bus : Bus D) (device : D) (base len addr : Nat) (data : List (BitVec 8))

def firstBefore : Option (Nat × Nat × BusDeviceEntry D) := (bus.devices.below (addr + 1)).getLast?

def getDevice : Option (Nat × Nat × BusDeviceEntry D) :=
  match bus.firstBefore addr with
  | some (base, len, device) => if addr - base < len then some (addr - base, addr, device) else none
  | none => none

def insertDevice (device : BusDeviceEntry D) : Bus D × Option Error :=
  if len = 0 then (bus, some (.overlap base len 0 0))
  else
    match bus.devices.entries.find? fun e => BusRange.overlaps ⟨e.1, e.2.1⟩ base len with
    | some e => (bus, some (.overlap base len e.1 e.2.1))
    | none =>
      match bus.devices.get base with
      | none => ({ bus with devices := bus.devices.insert base (len, device) }, none)
      -- The value of an equal key is replaced, the key stays.
      | some (oldLen, _) =>
        ({ bus with devices := bus.devices.insert base (oldLen, device) },
          some (.overlap base len base len))

def insert : Bus D × Option Error := bus.insertDevice base len (.outerSync device)

def insertSync : Bus D × Option Error := bus.insertDevice base len (.innerSync device)

def remove : Bus D × Option Error :=
  if len = 0 then (bus, some (.overlap base len 0 0))
  else if bus.devices.entries.any fun e => e.1 = base ∧ e.2.1 = len then
    match bus.devices.get base with
    | some _ => ({ bus with devices := bus.devices.remove base }, none)
    | none => (bus, some .empty)
  else (bus, some .empty)

def access : Option (Call D) :=
  (bus.getDevice addr).map fun (offset, address, device) =>
    ⟨device, ⟨address, offset, bus.accessId⟩, data⟩

/-- The call that a read makes; the buffer is filled with zeroes before. -/
def read : Option (Call D) := bus.access addr (replicate data.length 0)

def write : Option (Call D) := bus.access addr data

end

inductive Op (D : Type) where
  | insert (device : BusDeviceEntry D) (base len : Nat)
  | remove (base len : Nat)

def step (bus : Bus D) : Op D → Bus D × Option Error
  | .insert (.outerSync device) base len => bus.insert device base len
  | .insert (.innerSync device) base len => bus.insertSync device base len
  | .remove base len => bus.remove base len

def after (id : Nat) (ops : List (Op D)) : Bus D :=
  ops.foldl (fun bus op => (bus.step op).1) ⟨.empty, id⟩

/-- Whether the entry is registered after a call that succeeds. -/
def Op.Registers (bus : Bus D) (e : Nat × Nat × BusDeviceEntry D) : Op D → Prop
  | insert device base len => e = (base, len, device) ∨ e ∈ bus.devices.entries
  | remove base len => e ∈ bus.devices.entries ∧ ¬ (e.1 = base ∧ e.2.1 = len)

/-- The call inserts no range that begins at the last address. -/
def Op.BelowLast : Op D → Prop
  | insert _ base _ => base + 1 < u64Size
  | remove _ _ => True

def Disjoint (bus : Bus D) : Prop := bus.devices.entries.Pairwise fun a b => a.1 + a.2.1 ≤ b.1

/-- The device of a range that holds the address is called with the offset in it. -/
def Routed (bus : Bus D) (addr : Nat) (data : List (BitVec 8)) (call : Call D) : Prop :=
  ∃ base len, (base, len, call.device) ∈ bus.devices.entries ∧ base ≤ addr ∧ addr < base + len ∧
    call.io = ⟨addr, addr - base, bus.accessId⟩ ∧ call.data = data

/-- A call that fails changes nothing, another one registers what it is to. -/
def Accounts (bus : Bus D) (op : Op D) (result : Bus D × Option Error) : Prop :=
  match result with
  | (next, none) => ∀ e, e ∈ next.devices.entries ↔ op.Registers bus e
  | (next, some _) => next = bus

structure Apart (bus : Bus D) : Prop where
  disjoint : bus.Disjoint
  bounds : ∀ e ∈ bus.devices.entries, 0 < e.2.1 ∧ e.1 + 1 < u64Size

variable {bus : Bus D} (h : bus.Apart)
include h

lemma insertDevice_accounts (device : BusDeviceEntry D) {base : Nat} (len : Nat)
    (hl : base + 1 < u64Size) :
    (bus.insertDevice base len device).1.Apart ∧
      bus.Accounts (.insert device base len) (bus.insertDevice base len device) := by
  unfold insertDevice
  by_cases hlen : len = 0
  · rw [if_pos hlen]
    exact ⟨h, rfl⟩
  rw [if_neg hlen]
  split
  · exact ⟨h, rfl⟩
  rename_i hn
  have hfar : ∀ e ∈ bus.devices.entries, e.1 + e.2.1 ≤ base ∨ base + len ≤ e.1 := by
    intro e he
    have hf := find?_eq_none.mp hn e he
    have hbnd := (h.bounds e he).2
    simp [BusRange.overlaps, saturatingAdd, u64Size] at hf hbnd hl
    omega
  have hk : ∀ e ∈ bus.devices.entries, e.1 ≠ base := by
    intro e he hb
    have hp := (h.bounds e he).1
    have hf := hfar e he
    omega
  rw [BTreeMap.get_eq_none.mpr hk]
  refine ⟨⟨?_, fun e he => ?_⟩, fun e => BTreeMap.mem_insert hk⟩
  · refine BTreeMap.pairwise_insert h.disjoint (fun e he hlt => ?_) fun e he hgt => ?_
    · have hp := (h.bounds e he).1
      exact (hfar e he).resolve_right (by omega)
    · exact (hfar e he).resolve_left (by omega)
  · rcases (BTreeMap.mem_insert hk).mp he with rfl | he
    · exact ⟨Nat.pos_of_ne_zero hlen, hl⟩
    · exact h.bounds e he

lemma remove_accounts (base len : Nat) :
    (bus.remove base len).1.Apart ∧ bus.Accounts (.remove base len) (bus.remove base len) := by
  unfold remove
  split
  · exact ⟨h, rfl⟩
  split
  · rename_i ha
    obtain ⟨old, ho, heq⟩ := any_eq_true.mp ha
    obtain ⟨rfl, rfl⟩ := of_decide_eq_true heq
    rw [BTreeMap.get_of_mem ho]
    refine ⟨⟨h.disjoint.sublist filter_sublist, ?_⟩, fun e => ?_⟩
    · exact fun e he => h.bounds e (BTreeMap.mem_remove.mp he).1
    · refine BTreeMap.mem_remove.trans (and_congr_right fun he =>
        not_congr ⟨fun hk => ?_, And.left⟩)
      rw [BTreeMap.eq_of_key_eq he ho hk]
      exact ⟨rfl, rfl⟩
  · exact ⟨h, rfl⟩

lemma step_accounts (op : Op D) (hl : op.BelowLast) :
    (bus.step op).1.Apart ∧ bus.Accounts op (bus.step op) := by
  cases op with
  | insert device base len => cases device <;> exact insertDevice_accounts h _ _ hl
  | remove base len => exact remove_accounts h base len

lemma access_eq_some (addr : Nat) (data : List (BitVec 8)) (call : Call D) :
    bus.access addr data = some call ↔ bus.Routed addr data call := by
  unfold access getDevice firstBefore Routed
  constructor
  · intro hc
    obtain ⟨found, hf, rfl⟩ := Option.map_eq_some_iff.mp hc
    split at hf
    · rename_i base len device hl
      split at hf
      · rename_i hin
        cases hf
        obtain ⟨hm, hb⟩ := BTreeMap.mem_below.mp (mem_of_getLast? hl)
        exact ⟨base, len, hm, Nat.le_of_lt_succ hb, by omega, rfl, rfl⟩
      · cases hf
    · cases hf
  · rintro ⟨base, len, hm, hb, hin, hio, rfl⟩
    have hbl := BTreeMap.mem_below.mpr ⟨hm, Nat.lt_succ_of_le hb⟩
    cases hl : (bus.devices.below (addr + 1)).getLast? with
    | none =>
      rw [getLast?_eq_none_iff.mp hl] at hbl
      cases hbl
    | some last =>
      rcases BTreeMap.rel_getLast (h.disjoint.sublist filter_sublist) hl hbl with rfl | hr
      · obtain ⟨device, io, data⟩ := call
        cases hio
        simp [show addr - base < len by omega]
      · have hlow := (BTreeMap.mem_below.mp (mem_of_getLast? hl)).2
        dsimp only at hr
        omega

omit h

lemma after_apart (id : Nat) {ops : List (Op D)} (ho : ∀ op ∈ ops, op.BelowLast) :
    (after id ops).Apart :=
  foldlRecOn ops _ ⟨.nil, fun _ he => absurd he not_mem_nil⟩ fun _ h op hop =>
    (step_accounts h op (ho op hop)).1

/-- **Routing.** -/
theorem accesses_routed (id : Nat) (ops : List (Op D)) (hops : ∀ op ∈ ops, op.BelowLast) :
    let bus := after id ops
    bus.Disjoint ∧ (∀ op, op.BelowLast → bus.Accounts op (bus.step op)) ∧ ∀ addr data call,
      (bus.read addr data = some call ↔ bus.Routed addr (replicate data.length 0) call) ∧
      (bus.write addr data = some call ↔ bus.Routed addr data call) := by
  have h := after_apart id hops
  refine ⟨h.disjoint, fun op hop => (step_accounts h op hop).2, fun addr data call => ⟨?_, ?_⟩⟩
  · exact access_eq_some h addr _ call
  · exact access_eq_some h addr data call

theorem accesses_routed_last :
    (after 0 [.insert (.outerSync 7) 16 8, .insert (.innerSync 9) (u64Size - 4096) 4096]).write
      (u64Size - 1) [1] = some ⟨.innerSync 9, ⟨u64Size - 1, 4095, 0⟩, [1]⟩ :=
  ((accesses_routed 0 [.insert (.outerSync 7) 16 8, .insert (.innerSync 9) (u64Size - 4096) 4096]
    (by simp [Op.BelowLast, u64Size])).2.2 (u64Size - 1) [1] _).2.mpr
    ⟨u64Size - 4096, 4096, by decide, by decide, by decide, rfl, rfl⟩

/-- The last address is put into two ranges; and a call that fails there exchanges the device. -/
theorem last_address_shared :
    (after 0 [.insert (.outerSync 7) (u64Size - 2) 2, .insert (.outerSync 9) (u64Size - 1) 1]
      ).devices.entries = [(u64Size - 2, 2, .outerSync 7), (u64Size - 1, 1, .outerSync 9)] ∧
    let bus := after 0 [.insert (.outerSync 7) (u64Size - 1) 1]
    bus.devices.entries = [(u64Size - 1, 1, .outerSync 7)] ∧
      (bus.insert 9 (u64Size - 1) 1).2.isSome ∧
      (bus.insert 9 (u64Size - 1) 1).1.devices.entries = [(u64Size - 1, 1, .outerSync 9)] := by
  decide

end Bus

end GunyahVmm
