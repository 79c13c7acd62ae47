import GunyahVmm.Disk.CreatedDisk

/-! The headers of a created disk. Both name the same sector for a table, and each has its own. -/

namespace GunyahVmm.Disk
open GunyahVmm.Run Run.Outcome List

/-- A header in a sector of the disk, in a file from `start` on, and the sectors it names. -/
structure HeaderAt (file : List (BitVec 8)) (start sector current backup table : Nat) : Prop where
  start_le : start ≤ sector * 512
  signature : (file.drop (sector * 512 - start)).take 8 =
    [0x45, 0x46, 0x49, 0x20, 0x50, 0x41, 0x52, 0x54]
  current : readU64 file (sector * 512 - start + 24) = current
  backup : readU64 file (sector * 512 - start + 32) = backup
  table : readU64 file (sector * 512 - start + 72) = table

structure TableAt (file : List (BitVec 8)) (start sector : Nat) (table : List (BitVec 8)) :
    Prop where
  start_le : start ≤ sector * 512
  bytes : (file.drop (sector * 512 - start)).take gptTableSize = table

variable {file front back : List (BitVec 8)} {start sector current backup : Nat}

lemma headerAt_of_eq {gpt : GptHeader} (hf : file = front ++ (gpt.writeBytes ++ back))
    (hfr : start + front.length = sector * 512) (hc : gpt.currentLba = current)
    (hb : gpt.backupLba = backup) (hlt : current < u64Size) (hlt' : backup < u64Size) :
    HeaderAt file start sector current backup 2 := by
  subst hc hb
  have hd (k : Nat) : file.drop (sector * 512 - start + k) = (gpt.writeBytes ++ back).drop k := by
    rw [hf, show sector * 512 - start = front.length by omega, drop_length_add_append]
  simp only [GptHeader.writeBytes, append_assoc] at hd
  refine ⟨by omega, ?_, ?_, ?_, ?_⟩
  · rw [← Nat.add_zero (_ - _), hd]
    rfl
  · exact readU64_of_drop ((hd 24).trans rfl) hlt
  · exact readU64_of_drop ((hd 32).trans rfl) hlt'
  · exact readU64_of_drop ((hd 72).trans rfl) (by decide)

lemma tableAt_of_eq {table : List (BitVec 8)} (hf : file = front ++ (table ++ back))
    (hfr : start + front.length = sector * 512) (ht : table.length = gptTableSize) :
    TableAt file start sector table := by
  refine ⟨by omega, ?_⟩
  rw [hf, show sector * 512 - start = front.length by omega, drop_left, ← ht, take_left]

lemma partitionsEnd_mod (ps : List PartitionInfo) (hs : start % 4096 = 0) :
    partitionsEnd start ps % 4096 = 0 := by
  induction ps generalizing start with
  | nil => exact hs
  | cons p ps ih =>
    have ha := room_mod p
    exact ih (by omega)

variable {creator : Creator} {ps : List PartitionInfo} {image : CompositeImage}

/-- **The headers.** The header file stands at the start of a created disk and the footer file at
its end. Each holds a header and a copy of the table. The header in the second sector names its own
sector, the last one and the sector of its table. The header in the last sector names its own sector
and the second one, but its table begins 32 sectors in front of it and it names sector 2. -/
theorem headers_name_sectors {zeroFillerPath headerFile footerFile : Option HostPath}
    (h : createCompositeDisk creator ps zeroFillerPath headerFile footerFile = .ok image) :
    ∃ headerPath footerPath pieces start last table, headerFile = some headerPath ∧
      footerFile = some footerPath ∧
      image.spec.componentDisks = ⟨headerPath, 0, capabilityReadOnly⟩ ::
        (pieces ++ [⟨footerPath, start, capabilityReadOnly⟩]) ∧
      image.spec.length = start + image.footer.length ∧ image.spec.length = (last + 1) * 512 ∧
      HeaderAt image.header 0 1 1 last 2 ∧ TableAt image.header 0 2 table ∧
      HeaderAt image.footer start last last 1 2 ∧ TableAt image.footer start (last - 32) table ∧
      2 < last - 32 := by
  unfold createCompositeDisk at h
  split at h
  · rename_i zeroFiller headerPath footerPath
    obtain ⟨st, hst, h⟩ := bind_eq_ok.mp h
    obtain ⟨-, -, -, hn, hlt, hr⟩ := addPartitions_eq_ok hst (Nat.zero_le _) (by decide)
    obtain ⟨mbr, primary, backup, hm, hp, hb, hh, hf, hs⟩ := finishDisk_files h
    obtain ⟨gpt, rfl, hc, ho⟩ := writeGptHeader_eq_ok hp
    obtain ⟨gpt', rfl, hc', ho'⟩ := writeGptHeader_eq_ok hb
    have hmod := hn ▸ partitionsEnd_mod ps (by decide : gptBeginningSize % 4096 = 0)
    have hstr := hn ▸ le_partitionsEnd gptBeginningSize ps
    have ht : (partitionsBuffer st).length = gptTableSize := by
      rw [partitionsBuffer, length_append, length_zeroBytes]
      omega
    simp only [if_true, Bool.false_eq_true, if_false, sectorSize] at hc ho hc' ho'
    have hpd : footerPadding = 3584 := rfl
    have hend : gptEndSize = 16896 := rfl
    have hsz : gptTableSize = 16384 := rfl
    have hbg : gptBeginningSize = 20480 := rfl
    refine ⟨headerPath, footerPath, st.componentDisks, st.nextDiskOffset,
      (st.nextDiskOffset + footerPadding + gptEndSize) / 512 - 1, partitionsBuffer st, rfl, rfl,
      by rw [hs], ?_, ?_, ?_, ?_, ?_, ?_, by omega⟩
    · simp only [hs, hf, length_append, length_zeroBytes, gpt'.length_writeBytes, ht]
      omega
    · rw [hs]
      dsimp only
      omega
    · exact headerAt_of_eq hh (by omega) hc ho (by decide) (by omega)
    · have hby : image.header = (mbr ++ (gpt.writeBytes ++ zeroBytes 420)) ++
          (partitionsBuffer st ++ zeroBytes 3072) := by
        rw [hh]
        simp
      refine tableAt_of_eq hby ?_ ht
      simp only [length_append, hm, gpt.length_writeBytes, length_zeroBytes]
    · have hby : image.footer = (zeroBytes footerPadding ++ partitionsBuffer st) ++
          (gpt'.writeBytes ++ zeroBytes 420) := by rw [hf, append_assoc]
      refine headerAt_of_eq hby ?_ hc' ho' (by omega) (by decide)
      rw [length_append, length_zeroBytes, ht]
      omega
    · exact tableAt_of_eq hf (by rw [length_zeroBytes]; omega) ht
  · cases h

theorem headers_name_sectors_two :
    ∃ image, plainDisk [plainPartition "a" 4000, plainPartition "b" 8192] = .ok image ∧
      ∃ last, image.spec.length = (last + 1) * 512 ∧ HeaderAt image.header 0 1 1 last 2 := by
  obtain ⟨image, hi⟩ :=
    exists_eq_ok (x := plainDisk [plainPartition "a" 4000, plainPartition "b" 8192])
      (by decide +kernel)
  obtain ⟨_, _, _, _, last, _, -, -, -, -, hl, hh, -⟩ := headers_name_sectors hi
  exact ⟨image, hi, last, hl, hh⟩

/-- The last of 88 sectors holds a header that names sector 2, and the copy of the table in the same
file, with the sector 40 in its first entry, is in sector 55. -/
theorem backup_names_other_table :
    ∃ image, plainDisk [plainPartition "a" 4096] = .ok image ∧ image.spec.length = 88 * 512 ∧
      image.spec.componentDisks.getLast?.map (·.offset) = some 24576 ∧
      readU64 (image.footer.drop (87 * 512 - 24576)) 24 = 87 ∧
      readU64 (image.footer.drop (87 * 512 - 24576)) 72 = 2 ∧
      readU64 (image.footer.drop (55 * 512 - 24576)) 32 = 40 :=
  exists_ok (by decide +kernel)

end GunyahVmm.Disk
