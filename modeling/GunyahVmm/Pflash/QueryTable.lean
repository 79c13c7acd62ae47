import GunyahVmm.Pflash.FrameEffect

/-! The query table of the flash. A guest finds it `cfiHeaderOffset` higher than the common flash
interface has it. -/

namespace GunyahVmm.Pflash
open Run Device List

lemma readCfiInto_buildCfiTable {blockSize : BitVec 32} {imageSize : Nat} {cfi : List (BitVec 8)}
    (h : buildCfiTable blockSize imageSize = some cfi) :
    readCfiInto 0x27 [0] cfi = some [6] ∧ readCfiInto 0x2c [0] cfi = some [10] := by
  obtain ⟨region, -, h⟩ := Option.bind_eq_some_iff.mp h
  obtain rfl := Option.some.inj h
  exact ⟨rfl, rfl⟩

/-- A table needs a block of at least 256 bytes. -/
lemma le_of_buildCfiTable {blockSize : BitVec 32} {imageSize : Nat} {cfi : List (BitVec 8)}
    (h : buildCfiTable blockSize imageSize = some cfi) : 256 ≤ imageSize := by
  obtain ⟨region, hr, -⟩ := Option.bind_eq_some_iff.mp h
  simp only [cfiRegion] at hr
  split at hr
  · cases hr
  rename_i hn
  obtain ⟨hb, hz⟩ := not_or.mp hn
  by_contra hlt
  exact hz (by rw [Nat.div_eq_of_lt (by omega)]; rfl)

lemma read_readCfi {dev : Device} {offset : BitVec 64} {data bytes : List (BitVec 8)}
    (hmode : dev.state = .readCfi) (h : dev.read offset data none = some (dev, bytes)) :
    ∃ cfi, buildCfiTable dev.blockSize dev.imageSize = some cfi ∧
      readCfiInto offset.toNat data cfi = some bytes := by
  unfold Device.read at h
  rw [hmode] at h
  obtain ⟨cfi, hc, h⟩ := Option.bind_eq_some_iff.mp h
  obtain ⟨read, hr, h⟩ := Option.bind_eq_some_iff.mp h
  obtain ⟨-, rfl⟩ := Prod.mk.inj (Option.some.inj h)
  exact ⟨cfi, hc, hr⟩

/-- **Query.** In query mode, at the addresses of the common flash interface, no guest reads the
logarithm of the size, and none that there is one region. -/
theorem query_never_describes (image : List (BitVec 8)) (blockSize : BitVec 32) (start : Device)
    (hnew : new image blockSize = .ok start) (k : Nat) (hk : image.length = 2 ^ k)
    (hlen : image.length < u64Size) (past : List Access) (dev : Device)
    (hrun : run step past start = some dev) (hmode : dev.state = .readCfi) :
    dev.read 0x27 [0] none ≠ some (dev, [BitVec.ofNat 8 k]) ∧
      dev.read 0x2c [0] none ≠ some (dev, [1]) := by
  constructor
  · intro h
    obtain ⟨cfi, hc, hr⟩ := read_readCfi hmode h
    have hle := le_of_buildCfiTable hc
    rw [(remembers_run hnew hrun).imageSize, hk] at hle
    have hk8 : 8 ≤ k := (Nat.pow_le_pow_iff_right (by decide : 1 < 2)).mp hle
    have hk64 : k < 64 := (Nat.pow_lt_pow_iff_right (by decide : 1 < 2)).mp (hk ▸ hlen)
    have he := (readCfiInto_buildCfiTable hc).1.symm.trans hr
    have hv := congrArg BitVec.toNat (cons.inj (Option.some.inj he)).1
    rw [BitVec.toNat_ofNat, Nat.mod_eq_of_lt (by omega)] at hv
    exact absurd hv (by simp only [BitVec.reduceToNat]; omega)
  · intro h
    obtain ⟨cfi, hc, hr⟩ := read_readCfi hmode h
    exact absurd ((readCfiInto_buildCfiTable hc).2.symm.trans hr) (by decide)

def oneBlock (state : State) : Device := ⟨replicate 256 0, 256, 256, state, statusReady⟩

lemma new_oneBlock : new (replicate 256 0) 256 = .ok (oneBlock .readArray) := by
  rw [new, length_replicate]
  rfl

theorem query_never_describes_oneBlock :
    run step [.write 0 [commandCfiQuery] none] (oneBlock .readArray) = some (oneBlock .readCfi) ∧
      (oneBlock .readCfi).read 0x27 [0] none ≠ some (oneBlock .readCfi, [8]) :=
  ⟨rfl, (query_never_describes (replicate 256 0) 256 _ new_oneBlock 8 (length_replicate ..)
    (by rw [length_replicate]; decide) [.write 0 [commandCfiQuery] none] _ rfl rfl).1⟩

/-- At the address of the common flash interface the guest reads 2 ^ 6 for the size of this flash;
and if the blocks are smaller than 256 bytes, the read aborts. -/
theorem query_misplaced :
    (new (replicate 256 0) 256 = .ok (oneBlock .readArray) ∧
      run step [.write 0 [commandCfiQuery] none] (oneBlock .readArray) = some (oneBlock .readCfi) ∧
      (oneBlock .readCfi).read 0x27 [0] none = some (oneBlock .readCfi, [6])) ∧
    ∃ start dev, new [0] 1 = .ok start ∧
      run step [.write 0 [commandCfiQuery] none] start = some dev ∧ dev.read 0x27 [0] none = none :=
  ⟨⟨new_oneBlock, rfl, rfl⟩, _, _, rfl, rfl, rfl⟩

end GunyahVmm.Pflash
