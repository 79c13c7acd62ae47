import GunyahVmm.VirtioScsi.PassThru

/-! The lengths in a response. The value subtracted has to be the one compared, and the host may
change it in between. -/

namespace GunyahVmm.VirtioScsi

/-- The calls of the transport before the response is read succeed. -/
structure Answered (packet : Packet) (transport : Transport) : Prop where
  request : transport.allocateRequest = true ∧ transport.mapRequest ≠ none
  inData : packet.inTransferLength > 0 →
    transport.allocateInData = true ∧ transport.mapInData ≠ none
  outData : packet.outTransferLength > 0 → transport.mapOutData ≠ none
  response : transport.allocateResponse = true ∧ transport.mapResponse ≠ none
  flush : transport.flush = true

/-- The second reads are as the comparisons expect, and the residual is not more than was asked
for. A sense length does not matter if the caller's is not above the size of the array. -/
structure Consistent (packet : Packet) (reads : ResponseReads) : Prop where
  senseLen : senseSize < packet.senseDataLength.toNat → reads.senseLen.toNat < senseSize →
    reads.senseLenAgain.toNat ≤ senseSize
  residualIn : reads.residual ≤ packet.inTransferLength →
    reads.residualAgain ≤ packet.inTransferLength
  residualOut : ¬ reads.residual ≤ packet.inTransferLength →
    packet.inTransferLength ≤ reads.residualAgain ∧ reads.residualAgain.toNat ≤
      packet.inTransferLength.toNat + packet.outTransferLength.toNat

variable {packet : Packet} {reads : ResponseReads}

/-- A response that the host leaves alone, with a residual that is not too large. -/
lemma Consistent.of_stable (hs : reads.senseLenAgain = reads.senseLen)
    (hr : reads.residualAgain = reads.residual)
    (hle : reads.residual.toNat ≤ packet.inTransferLength.toNat + packet.outTransferLength.toNat) :
    Consistent packet reads := by
  refine ⟨fun _ hlt => ?_, fun hin => ?_, fun hin => ?_⟩
  · rw [hs]
    omega
  · rwa [hr]
  · rw [hr]
    exact ⟨BitVec.le_of_lt (BitVec.not_le.mp hin), hle⟩

/-- The lengths are no larger than those of the request, and nothing outside the buffers is touched.
-/
structure WithinRequest (packet : Packet) (res : PassThruResult) : Prop where
  inData : res.inData.length ≤ packet.inTransferLength.toNat
  senseRead : res.senseData.length ≤ senseSize
  senseWritten : res.senseData.length ≤ packet.senseDataLength.toNat
  inTransferLength : res.packet.inTransferLength ≤ packet.inTransferLength
  outTransferLength : res.packet.outTransferLength ≤ packet.outTransferLength

lemma early_withinRequest (packet : Packet) (chain : List Desc) :
    WithinRequest packet { early (reportHostAdapterError packet) with chain } :=
  ⟨Nat.zero_le _, Nat.zero_le _, Nat.zero_le _, Nat.zero_le _, Nat.zero_le _⟩

/-- The sense data is cut to the caller's length and to the one that was taken from the response. -/
lemma length_senseData (packet : Packet) (reads : ResponseReads) :
    (parseResponse packet reads).2.2.length =
      min packet.senseDataLength.toNat (responseSenseLen reads) := by
  have hlt := packet.senseDataLength.isLt
  simp only [parseResponse, List.length_map, List.length_range]
  split_ifs with hc
  · simp only [BitVec.toNat_ofNat]
    omega
  · omega

lemma senseData_le_iff : (parseResponse packet reads).2.2.length ≤ senseSize ↔
    (senseSize < packet.senseDataLength.toNat → reads.senseLen.toNat < senseSize →
      reads.senseLenAgain.toNat ≤ senseSize) := by
  rw [length_senseData, responseSenseLen]
  split_ifs <;> omega

/-- A length without a residual is not larger exactly if the residual is not. -/
lemma sub_le_iff {a b : BitVec 32} : a - b ≤ a ↔ b ≤ a := by
  bv_omega

lemma parseResponse_lengths_iff
    (hle : packet.inTransferLength.toNat + packet.outTransferLength.toNat ≤ sizeOneGb) :
    ((parseResponse packet reads).2.1.inTransferLength ≤ packet.inTransferLength ∧
      (parseResponse packet reads).2.1.outTransferLength ≤ packet.outTransferLength) ↔
    (reads.residual ≤ packet.inTransferLength → reads.residualAgain ≤ packet.inTransferLength) ∧
      (¬ reads.residual ≤ packet.inTransferLength →
        packet.inTransferLength ≤ reads.residualAgain ∧ reads.residualAgain.toNat ≤
          packet.inTransferLength.toNat + packet.outTransferLength.toNat) := by
  unfold sizeOneGb at hle
  by_cases hin : reads.residual ≤ packet.inTransferLength
  · simp only [parseResponse, apply_ite Packet.inTransferLength,
      apply_ite Packet.outTransferLength, ite_self, hin, if_true, sub_le_iff, BitVec.le_refl,
      and_true, forall_const, not_true_eq_false, false_imp_iff]
  · simp only [parseResponse, apply_ite Packet.inTransferLength,
      apply_ite Packet.outTransferLength, ite_self, hin, if_false, sub_le_iff, false_imp_iff,
      true_and, not_false_eq_true, forall_const]
    bv_omega

/-- An accepted packet is not changed, and it asks for at most 1 GiB. -/
lemma populateRequest_success {dev : VscsiDev} {target : BitVec 16} {lun : BitVec 64}
    (h : (populateRequest dev target lun packet).1 = .success) :
    ∃ request, populateRequest dev target lun packet = (.success, packet, request) ∧
      packet.inTransferLength.toNat + packet.outTransferLength.toNat ≤ sizeOneGb := by
  simp only [populateRequest] at h ⊢
  split_ifs at h ⊢ with hle
  exact ⟨_, rfl, by simp only [not_or] at hle; omega⟩

lemma mapData_eq_some {length : BitVec 32} {address : Option (BitVec 64)}
    (h : 0 < length → address ≠ none) : ∃ mapped, mapData length address = some mapped := by
  unfold mapData
  split_ifs with hpos
  · exact Option.ne_none_iff_exists'.mp (h hpos)
  · exact ⟨0, rfl⟩

/-- **Bounds of a request.** A call with an accepted packet stays within what was asked for exactly
if the lengths in the response are consistent, where it comes to reading them. -/
theorem passThru_withinRequest_iff (dev : VscsiDev) (target : BitVec 16) (lun : BitVec 64)
    (packet : Packet) (transport : Transport) (reads : ResponseReads)
    (inDataShared : Nat → BitVec 8)
    (haccepted : (populateRequest dev target lun packet).1 = .success) :
    WithinRequest packet (virtioScsiPassThru dev target lun packet transport reads inDataShared) ↔
      (Answered packet transport → Consistent packet reads) := by
  have her := early_withinRequest packet []
  obtain ⟨request, hp, hle⟩ := populateRequest_success haccepted
  simp only [virtioScsiPassThru, hp]
  split
  · rename_i ha
    refine iff_of_true ⟨Nat.zero_le _, Nat.zero_le _, Nat.zero_le _, BitVec.le_refl _,
      BitVec.le_refl _⟩ fun h => absurd h.request.1 (by simpa using ha)
  split
  · rename_i hm
    exact iff_of_true her fun h => absurd hm h.request.2
  split
  · rename_i hn
    exact iff_of_true her fun h => absurd (h.inData hn.1).1 (by simpa using hn.2)
  rename_i hin
  split
  · rename_i hi ho
    split
    · rename_i hr
      exact iff_of_true her fun h => absurd h.response.1 (by simpa using hr)
    split
    · rename_i hr
      exact iff_of_true her fun h => absurd hr h.response.2
    split
    · rename_i hf
      exact iff_of_true (early_withinRequest packet _) fun h => absurd h.flush (by simpa using hf)
    have hans : Answered packet transport := by
      refine ⟨⟨by simp_all, by simp_all⟩, fun hpos => ⟨by simp_all, ?_⟩, fun hpos => ?_,
        ⟨by simp_all, by simp_all⟩, by simp_all⟩
      · rw [mapData, if_pos hpos] at hi
        simp [hi]
      · rw [mapData, if_pos hpos] at ho
        simp [ho]
    have hlen := @parseResponse_lengths_iff packet reads hle
    have hs := length_senseData packet reads
    rw [forall_prop_of_true hans]
    constructor
    · intro h
      obtain ⟨hri, hro⟩ := hlen.mp ⟨h.inTransferLength, h.outTransferLength⟩
      exact ⟨senseData_le_iff.mp h.senseRead, hri, hro⟩
    · intro h
      obtain ⟨hin, ho⟩ := hlen.mpr ⟨h.residualIn, h.residualOut⟩
      refine ⟨?_, senseData_le_iff.mpr h.senseLen, hs.le.trans (by omega), hin, ho⟩
      dsimp only
      split_ifs
      · rw [List.length_map, List.length_range]
        exact hin
      · exact Nat.zero_le _
  · rename_i hn
    refine iff_of_true her fun h => ?_
    obtain ⟨i, hi⟩ := mapData_eq_some fun hpos => (h.inData hpos).2
    obtain ⟨o, ho⟩ := mapData_eq_some h.outData
    exact (hn _ _ hi ho).elim

/-- A device with a large limit, and a read of 16 bytes with 200 bytes for sense data. -/
def exampleDev : VscsiDev := ⟨true, 0, 0, 0x800⟩

def exampleTransport : Transport :=
  ⟨true, some 0x1000, true, some 0x2000, some 0x3000, true, some 0x4000, true⟩

def readPacket : Packet where
  inDataBuffer := true
  outDataBuffer := false
  cdb := [0x12, 0, 0, 0, 16, 0]
  inTransferLength := 16
  outTransferLength := 0
  cdbLength := 6
  dataDirection := dataDirectionRead
  hostAdapterStatus := .ok
  targetStatus := 0
  senseDataLength := 200

def steadyReads : ResponseReads := ⟨18, 18, fun _ => 0x70, 0, 0, 0, 0⟩

theorem passThru_withinRequest_iff_read :
    (populateRequest exampleDev 0 0 readPacket).1 = .success ∧
      WithinRequest readPacket
        (virtioScsiPassThru exampleDev 0 0 readPacket exampleTransport steadyReads fun _ => 0) :=
  ⟨by decide, (passThru_withinRequest_iff exampleDev 0 0 readPacket exampleTransport steadyReads _
    (by decide)).mpr fun _ => .of_stable rfl rfl (by decide)⟩

/-- A host that grows the residual and the sense length between the two reads, and one that reports
a residual beyond the whole request. -/
theorem passThru_exceeds_request :
    (populateRequest exampleDev 0 0 readPacket).1 = .success ∧
      (virtioScsiPassThru exampleDev 0 0 readPacket exampleTransport
        { steadyReads with senseLenAgain := 0xffffffff } fun _ => 0).senseData.length = 200 ∧
      (virtioScsiPassThru exampleDev 0 0 readPacket exampleTransport
        { steadyReads with residualAgain := 0xfffffff0 } fun _ => 0).inData.length = 32 ∧
      (virtioScsiPassThru exampleDev 0 0 readPacket exampleTransport
        { steadyReads with residualAgain := 0xfffffff0 } fun _ => 0).packet.inTransferLength = 32 ∧
      (virtioScsiPassThru exampleDev 0 0 readPacket exampleTransport
        { steadyReads with residual := 17, residualAgain := 17 }
          fun _ => 0).packet.outTransferLength =
          0xffffffff :=
  ⟨by decide, by decide +kernel, by decide +kernel, by decide +kernel, by decide +kernel⟩

end GunyahVmm.VirtioScsi
