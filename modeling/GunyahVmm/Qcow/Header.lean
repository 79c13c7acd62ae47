import GunyahVmm.Disk.Composite
import GunyahVmm.Lib.Bytes

/-! The header of a qcow2 image, written and read back. The L1 size is counted in entries where it
is rounded to clusters, and the limits on the path differ. -/

namespace GunyahVmm.Qcow
open Run Run.Outcome Disk List Nat

def maxQcowFileSize : Nat := 0x100000000000

def qcowMagic : BitVec 32 := 0x514649fb

def defaultClusterBits : Nat := 16

def defaultRefcountOrder : Nat := 4

def v3BareHeaderSize : Nat := 104

def qcowEmptyHeaderExtensionSize : Nat := 8

def maxBackingFileSize : Nat := 1023

/-- The size of the record in memory: the numbers and a string of three words. -/
def sizeOfQcowHeader : Nat := 128

inductive QcowError where
  | backingFileTooLong (excess : Nat)
  | invalidBackingFileName
  | invalidMagic
  | readingHeader

structure QcowHeader where
  magic : BitVec 32
  version : BitVec 32
  backingFileOffset : BitVec 64
  backingFileSize : BitVec 32
  clusterBits : BitVec 32
  size : BitVec 64
  cryptMethod : BitVec 32
  l1Size : BitVec 32
  l1TableOffset : BitVec 64
  refcountTableOffset : BitVec 64
  refcountTableClusters : BitVec 32
  nbSnapshots : BitVec 32
  snapshotsOffset : BitVec 64
  incompatibleFeatures : BitVec 64
  compatibleFeatures : BitVec 64
  autoclearFeatures : BitVec 64
  refcountOrder : BitVec 32
  headerSize : BitVec 32
  backingFilePath : Option String

/-- The unread bytes of a file start with an integer. -/
def readU32 : List (BitVec 8) → Outcome QcowError (BitVec 32 × List (BitVec 8))
  | a :: b :: c :: d :: rest => .ok (ofBe32 a b c d, rest)
  | _ => .err .readingHeader

def readU64 (f : List (BitVec 8)) : Outcome QcowError (BitVec 64 × List (BitVec 8)) :=
  match f with
  | a :: b :: c :: d :: a' :: b' :: c' :: d' :: rest =>
    .ok (ofBe32 a b c d ++ ofBe32 a' b' c' d', rest)
  | _ => .err .readingHeader

def mulU64 (a b : Nat) : Outcome QcowError Nat := if a * b < u64Size then .ok (a * b) else .panic

def shlU64 (a bits : Nat) : Outcome QcowError Nat :=
  if bits < 64 then .ok (a <<< bits % u64Size) else .panic

def pathBytes (path : String) : List (BitVec 8) := path.toUTF8.data.toList.map UInt8.toBitVec

namespace QcowHeader

def readPath (file : List (BitVec 8)) (header : QcowHeader) : Outcome QcowError QcowHeader :=
  if header.backingFileOffset = 0 then .ok header
  else
    let unread := file.drop header.backingFileOffset.toNat
    if unread.length < header.backingFileSize.toNat then .err .readingHeader
    else
      let name := (unread.take header.backingFileSize.toNat).map UInt8.ofBitVec
      match String.fromUTF8? ⟨name.toArray⟩ with
      | none => .err .invalidBackingFileName
      | some path => .ok { header with backingFilePath := some path }

def new (file : List (BitVec 8)) : Outcome QcowError QcowHeader := do
  let (magic, f) ← readU32 file
  if magic ≠ qcowMagic then .err .invalidMagic
  else do
    let (version, f) ← readU32 f
    let (backingFileOffset, f) ← readU64 f
    let (backingFileSize, f) ← readU32 f
    let (clusterBits, f) ← readU32 f
    let (size, f) ← readU64 f
    let (cryptMethod, f) ← readU32 f
    let (l1Size, f) ← readU32 f
    let (l1TableOffset, f) ← readU64 f
    let (refcountTableOffset, f) ← readU64 f
    let (refcountTableClusters, f) ← readU32 f
    let (nbSnapshots, f) ← readU32 f
    let (snapshotsOffset, f) ← readU64 f
    let (incompatibleFeatures, f) ← readU64 f
    let (compatibleFeatures, f) ← readU64 f
    let (autoclearFeatures, f) ← readU64 f
    let (refcountOrder, f) ← readU32 f
    let (headerSize, _) ← readU32 f
    if maxBackingFileSize < backingFileSize.toNat then
      .err (.backingFileTooLong backingFileSize.toNat)
    else readPath file ⟨magic, version, backingFileOffset, backingFileSize, clusterBits, size,
      cryptMethod, l1Size, l1TableOffset, refcountTableOffset, refcountTableClusters, nbSnapshots,
      snapshotsOffset, incompatibleFeatures, compatibleFeatures, autoclearFeatures, refcountOrder,
      headerSize, none⟩

def maxRefcountClusters (refcountOrder clusterSize numClusters : Nat) : Nat :=
  let refcountBytes := 2 ^ refcountOrder / 8
  let forData := divCeil (numClusters * refcountBytes) clusterSize
  let forRefcounts := divCeil (forData * refcountBytes) clusterSize
  forData + forRefcounts

/-- Only the number of all clusters can be too large for 32 bits. -/
def createForSizeAndPath (size : BitVec 64) (backingFile : Option String) :
    Outcome QcowError QcowHeader :=
  let clusterSize := 2 ^ defaultClusterBits
  let maxLength := clusterSize - v3BareHeaderSize - qcowEmptyHeaderExtensionSize
  let pathLen := (backingFile.map String.utf8ByteSize).getD 0
  if maxLength < pathLen then .err (.backingFileTooLong (pathLen - maxLength))
  else do
    let l2Size := clusterSize / 8
    let numClusters := divCeil size.toNat clusterSize % u32Size
    let numL2Clusters := divCeil numClusters l2Size
    let l1Clusters := divCeil numL2Clusters clusterSize
    let headerClusters := divCeil sizeOfQcowHeader clusterSize
    let clusters ← addU32 numClusters l1Clusters
    let clusters ← addU32 clusters numL2Clusters
    let clusters ← addU32 clusters headerClusters
    .ok {
      magic := qcowMagic
      version := 3
      backingFileOffset :=
        if backingFile.isNone then 0
        else BitVec.ofNat 64 (v3BareHeaderSize + qcowEmptyHeaderExtensionSize)
      backingFileSize := BitVec.ofNat 32 pathLen
      clusterBits := BitVec.ofNat 32 defaultClusterBits
      size := size
      cryptMethod := 0
      l1Size := BitVec.ofNat 32 numL2Clusters
      l1TableOffset := BitVec.ofNat 64 clusterSize
      refcountTableOffset := BitVec.ofNat 64 (clusterSize * (l1Clusters + 1))
      refcountTableClusters := BitVec.ofNat 32
        (divCeil (maxRefcountClusters defaultRefcountOrder clusterSize clusters * 8) clusterSize)
      nbSnapshots := 0
      snapshotsOffset := 0
      incompatibleFeatures := 0
      compatibleFeatures := 0
      autoclearFeatures := 0
      refcountOrder := BitVec.ofNat 32 defaultRefcountOrder
      headerSize := BitVec.ofNat 32 v3BareHeaderSize
      backingFilePath := backingFile }

def fields (h : QcowHeader) : List (BitVec 8) :=
  beBytes32 h.magic ++ (beBytes32 h.version ++ (beBytes64 h.backingFileOffset ++
    (beBytes32 h.backingFileSize ++ (beBytes32 h.clusterBits ++ (beBytes64 h.size ++
    (beBytes32 h.cryptMethod ++ (beBytes32 h.l1Size ++ (beBytes64 h.l1TableOffset ++
    (beBytes64 h.refcountTableOffset ++ (beBytes32 h.refcountTableClusters ++
    (beBytes32 h.nbSnapshots ++ (beBytes64 h.snapshotsOffset ++
    (beBytes64 h.incompatibleFeatures ++ (beBytes64 h.compatibleFeatures ++
    (beBytes64 h.autoclearFeatures ++ (beBytes32 h.refcountOrder ++ (beBytes32 h.headerSize ++
    (beBytes32 0 ++ beBytes32 0))))))))))))))))))

/-- `QcowHeader::write_to` with an empty file, whose length a zero in the refcount table gives. -/
def writeTo (h : QcowHeader) : Outcome QcowError (List (BitVec 8)) := do
  let file := h.fields ++ (h.backingFilePath.map pathBytes).getD []
  let clusterSize ← shlU64 1 h.clusterBits.toNat
  let refcountBlocksSize ← mulU64 h.refcountTableClusters.toNat clusterSize
  let tableEnd ← addU64 h.refcountTableOffset.toNat refcountBlocksSize
  let last ← subU64 tableEnd 2
  .ok (overwrite file last [0])

/-! ## The tables of a new image -/

/-- Neither of two ranges of bytes begins in the other one. -/
def Apart (a b : Nat × Nat) : Prop := a.2 ≤ b.1 ∨ b.2 ≤ a.1

def ranges (h : QcowHeader) : List (Nat × Nat) :=
  [(0, 0x10000), (h.l1TableOffset.toNat, h.l1TableOffset.toNat + h.l1Size.toNat * 8),
    (h.refcountTableOffset.toNat,
      h.refcountTableOffset.toNat + h.refcountTableClusters.toNat * 0x10000)]

/-- The clusters of a full image but for the blocks of counts. -/
def clustersNeeded (h : QcowHeader) : Nat :=
  1 + divCeil (h.l1Size.toNat * 8) 0x10000 + h.l1Size.toNat + divCeil h.size.toNat 0x10000 +
    h.refcountTableClusters.toNat

variable {size : BitVec 64} {path : Option String} {h : QcowHeader}

/-- The numbers of a header that was laid out. -/
structure LaidOut (size : BitVec 64) (path : Option String) (h : QcowHeader) : Prop where
  magic : h.magic = qcowMagic
  clusterBits : h.clusterBits = 16
  size_eq : h.size = size
  l1Size : h.l1Size.toNat = divCeil (divCeil size.toNat 0x10000 % u32Size) 0x2000
  l1TableOffset : h.l1TableOffset.toNat = 0x10000
  refcountTableOffset : h.refcountTableOffset.toNat = 0x10000 * (divCeil h.l1Size.toNat 0x10000 + 1)
  refcountTableClusters : h.refcountTableClusters.toNat =
    divCeil (maxRefcountClusters 4 0x10000 (divCeil size.toNat 0x10000 % u32Size +
      divCeil h.l1Size.toNat 0x10000 + h.l1Size.toNat + 1) * 8) 0x10000
  pathOffset : h.backingFileOffset = if path.isNone then 0 else 112
  pathSize : h.backingFileSize.toNat = (path.map String.utf8ByteSize).getD 0
  path_le : h.backingFileSize.toNat ≤ 0xff90
  path_eq : h.backingFilePath = path

lemma laidOut (hcr : createForSizeAndPath size path = .ok h) : LaidOut size path h := by
  have hh : divCeil sizeOfQcowHeader 0x10000 = 1 := rfl
  have hc : divCeil size.toNat 0x10000 % u32Size < u32Size := mod_lt _ (by decide)
  simp only [createForSizeAndPath, defaultClusterBits, defaultRefcountOrder, v3BareHeaderSize,
    qcowEmptyHeaderExtensionSize, reducePow, reduceDiv, hh] at hcr
  split at hcr
  · cases hcr
  rename_i hp
  generalize hn : divCeil size.toNat 0x10000 % u32Size = n at hcr hc
  obtain ⟨_, hsum, hcr⟩ := bind_eq_ok.mp hcr
  obtain ⟨-, rfl⟩ := addIn_eq_ok.mp hsum
  obtain ⟨_, hsum, hcr⟩ := bind_eq_ok.mp hcr
  obtain ⟨-, rfl⟩ := addIn_eq_ok.mp hsum
  obtain ⟨_, hsum, hcr⟩ := bind_eq_ok.mp hcr
  obtain ⟨hf, rfl⟩ := addIn_eq_ok.mp hsum
  cases hcr
  have hl1 : (BitVec.ofNat 32 (divCeil n 0x2000)).toNat = divCeil n 0x2000 := by
    rw [BitVec.toNat_ofNat, mod_eq_of_lt]
    simp only [divCeil, u32Size] at hc ⊢
    omega
  have hs : (BitVec.ofNat 32 ((path.map String.utf8ByteSize).getD 0)).toNat =
      (path.map String.utf8ByteSize).getD 0 := by
    rw [BitVec.toNat_ofNat, mod_eq_of_lt (by omega)]
  refine ⟨rfl, rfl, rfl, hn.symm ▸ hl1, rfl, ?_, ?_, rfl, hs, hs.le.trans (by omega), rfl⟩
  · rw [hl1, BitVec.toNat_ofNat, mod_eq_of_lt]
    simp only [divCeil, u32Size] at hc ⊢
    omega
  · rw [hn, hl1, BitVec.toNat_ofNat, mod_eq_of_lt]
    simp only [divCeil, maxRefcountClusters, u32Size, reducePow, reduceDiv] at hf ⊢
    omega

/-- **The tables.** For every size the reader accepts, the L1 table has an entry for every cluster
and the refcount table has room for the blocks of a full image; the tables are apart from each
other exactly up to 4 TiB. -/
theorem tables_apart_iff (size : BitVec 64) (path : Option String) (h : QcowHeader)
    (hcreate : createForSizeAndPath size path = .ok h) (hsize : size.toNat ≤ maxQcowFileSize) :
    (h.ranges.Pairwise Apart ↔ size.toNat ≤ 0x40000000000) ∧
      (∀ cluster, cluster * 0x10000 < size.toNat → cluster / 0x2000 < h.l1Size.toNat) ∧
      ∃ blocks, blocks ≤ h.refcountTableClusters.toNat * 0x2000 ∧
        h.clustersNeeded + blocks ≤ blocks * 0x8000 := by
  obtain ⟨-, -, hs, hl1, hl1Offset, ho, hc, -⟩ := laidOut hcreate
  have hcnt : divCeil size.toNat 0x10000 % u32Size = divCeil size.toNat 0x10000 := by
    refine mod_eq_of_lt ?_
    simp only [divCeil, u32Size, maxQcowFileSize] at hsize ⊢
    omega
  rw [hcnt] at hl1 hc
  simp only [divCeil, maxRefcountClusters, maxQcowFileSize, reducePow, reduceDiv]
    at hsize hl1 ho hc
  refine ⟨?_, fun cluster hcl => ?_, h.refcountTableClusters.toNat * 0x2000, le_rfl, ?_⟩
  · -- The L1 table is taken to fill one cluster, whatever its length.
    have hone : h.l1Size.toNat ≤ 0x10000 * ((h.l1Size.toNat + 0x10000 - 1) / 0x10000) ∧
        (h.l1Size.toNat + 0x10000 - 1) / 0x10000 ≤ 1 := by omega
    simp only [ranges, Apart, pairwise_cons, mem_cons, not_mem_nil, or_false,
      forall_eq_or_imp, forall_eq, false_implies, implies_true, List.Pairwise.nil, and_true,
      hl1Offset, ho]
    generalize (h.l1Size.toNat + 0x10000 - 1) / 0x10000 = l1Clusters at hone ⊢
    clear hc
    omega
  · omega
  · simp only [clustersNeeded, hs, divCeil]
    generalize hd : (size.toNat + 0x10000 - 1) / 0x10000 = dataClusters at hl1 hc ⊢
    generalize hl1Clusters : (h.l1Size.toNat + 0x10000 - 1) / 0x10000 = l1Clusters at hc
    generalize hb : ((dataClusters + l1Clusters + h.l1Size.toNat + 1) * 2 + 0x10000 - 1) /
      0x10000 = forData at hc
    -- One block more than the clusters need is enough for the blocks and the table.
    have hf : h.refcountTableClusters.toNat ≤ 2 := by omega
    have hr : forData + 1 ≤ h.refcountTableClusters.toNat * 0x2000 := by omega
    clear hc
    omega

theorem tables_apart_iff_one_cluster : ∃ h, createForSizeAndPath 0x10000 none = .ok h ∧
    h.ranges.Pairwise Apart := by
  obtain ⟨h, hc⟩ := exists_eq_ok (x := createForSizeAndPath 0x10000 none) (by decide +kernel)
  exact ⟨h, hc, (tables_apart_iff 0x10000 none h hc (by decide)).1.mpr (by decide)⟩

/-- For 8 TiB the L1 table has two clusters, and the refcount table stands in the second one. -/
theorem refcount_table_in_l1_table :
    (createForSizeAndPath 0x80000000000 none).okAnd (fun h =>
      h.ranges == [(0, 0x10000), (0x10000, 0x30000), (0x20000, 0x30000)]) = true := by
  decide +kernel

/-! ## Reading back -/

lemma readU32_append (v : BitVec 32) (rest : List (BitVec 8)) :
    readU32 (beBytes32 v ++ rest) = .ok (v, rest) := by
  obtain ⟨a, b, c, d, hby, hv⟩ := exists_beBytes32 v
  rw [hby]
  exact congrArg (fun v => Outcome.ok (v, rest)) hv

lemma readU64_append (v : BitVec 64) (rest : List (BitVec 8)) :
    readU64 (beBytes64 v ++ rest) = .ok (v, rest) := by
  obtain ⟨a, b, c, d, hby, hv⟩ := exists_beBytes32 (v.extractLsb' 32 32)
  obtain ⟨a', b', c', d', hby', hv'⟩ := exists_beBytes32 (v.extractLsb' 0 32)
  rw [beBytes64, hby, hby']
  change Outcome.ok (ofBe32 a b c d ++ ofBe32 a' b' c' d', rest) = .ok (v, rest)
  rw [hv, hv', BitVec.extractLsb'_append_extractLsb'_eq_extractLsb' (by rfl)]
  exact congrArg (fun v => Outcome.ok (v, rest)) BitVec.extractLsb'_eq_self

lemma fromUTF8_pathBytes (path : String) :
    String.fromUTF8? ⟨((pathBytes path).map UInt8.ofBitVec).toArray⟩ = some path := by
  have hby : (⟨((pathBytes path).map UInt8.ofBitVec).toArray⟩ : ByteArray) = path.toByteArray := by
    simp [pathBytes, Function.comp_def]
  rw [hby, String.fromUTF8?, dif_pos path.isValidUTF8]
  rfl

lemma length_pathBytes (path : String) : (pathBytes path).length = path.utf8ByteSize := by
  rw [pathBytes, length_map, Array.length_toList]
  rfl

lemma length_fields (h : QcowHeader) : h.fields.length = 112 := rfl

lemma new_fields (hm : h.magic = qcowMagic) (rest : List (BitVec 8)) :
    new (h.fields ++ rest) = if maxBackingFileSize < h.backingFileSize.toNat then
      .err (.backingFileTooLong h.backingFileSize.toNat)
      else readPath (h.fields ++ rest) { h with backingFilePath := none } := by
  conv_lhs => unfold new
  simp [fields, readU32_append, readU64_append, hm]

lemma writeTo_eq (hl : LaidOut size path h) :
    ∃ rest, h.writeTo = .ok (h.fields ++ ((path.map pathBytes).getD [] ++ rest)) := by
  have hlen : ((path.map pathBytes).getD []).length ≤ 0xff90 := by
    have hle := hl.path_le
    rw [hl.pathSize] at hle
    cases path with
    | none => exact zero_le _
    | some path => exact (length_pathBytes path).le.trans hle
  have hb : h.clusterBits.toNat = 16 := by
    rw [hl.clusterBits]
    rfl
  have hc := h.refcountTableClusters.isLt
  have hl1 := h.l1Size.isLt
  have ho := hl.refcountTableOffset
  have ht := hl.refcountTableClusters
  simp only [divCeil, maxRefcountClusters, u32Size, reducePow, reduceDiv] at ho ht
  have hp : 1 ≤ h.refcountTableClusters.toNat := by omega
  have hm : h.refcountTableClusters.toNat * 0x10000 < u64Size := by
    simp only [u64Size]
    omega
  have ha : h.refcountTableOffset.toNat + h.refcountTableClusters.toNat * 0x10000 < u64Size := by
    simp only [u64Size]
    omega
  have hs : shlU64 1 16 = .ok 0x10000 := rfl
  rw [writeTo, hb, hs, ok_bind, mulU64, if_pos hm, ok_bind, addU64_of_lt ha, ok_bind,
    subU64_of_le (by omega), ok_bind, hl.path_eq, overwrite, take_of_length_le,
    drop_of_length_le]
  · exact ⟨_, by rw [append_nil, append_assoc, append_assoc]⟩
  · rw [length_append, length_fields]
    omega
  · rw [length_append, length_fields]
    omega

lemma readPath_written (hl : LaidOut size path h) (rest : List (BitVec 8)) :
    readPath (h.fields ++ ((path.map pathBytes).getD [] ++ rest))
      { h with backingFilePath := none } = .ok h := by
  have hp := hl.path_eq
  have ho := hl.pathOffset
  have hs := hl.pathSize
  unfold readPath
  cases path with
  | none =>
    have hz : h.backingFileOffset = 0 := ho
    rw [if_pos hz, ← hp]
  | some path =>
    have hpl : h.backingFileOffset = 112 := ho
    have hd : (h.fields ++ (pathBytes path ++ rest)).drop (112 : BitVec 64).toNat =
        pathBytes path ++ rest :=
      drop_left' rfl
    simp only [Option.map_some, Option.getD_some] at hs ⊢
    rw [hpl, if_neg (by decide), hd, hs, ← length_pathBytes, if_neg (by simp),
      take_left, fromUTF8_pathBytes, ← hpl]
    dsimp only
    rw [← hp]

lemma new_writeTo (hc : createForSizeAndPath size path = .ok h) :
    ∃ file, h.writeTo = .ok file ∧ new file =
      if maxBackingFileSize < (path.map String.utf8ByteSize).getD 0 then
        .err (.backingFileTooLong ((path.map String.utf8ByteSize).getD 0))
      else .ok h := by
  have hl := laidOut hc
  obtain ⟨rest, hf⟩ := writeTo_eq hl
  refine ⟨_, hf, ?_⟩
  rw [new_fields hl.magic, hl.pathSize, readPath_written hl]

/-- **Reading back.** A header that was laid out is read back from the file it was written to
exactly if its path has at most 1023 bytes. -/
theorem header_read_back_iff (size : BitVec 64) (path : Option String) (h : QcowHeader)
    (hcreate : createForSizeAndPath size path = .ok h) :
    (∃ file, h.writeTo = .ok file ∧ new file = .ok h) ↔
      ∀ p ∈ path, p.utf8ByteSize ≤ maxBackingFileSize := by
  obtain ⟨file, hw, hn⟩ := new_writeTo hcreate
  constructor
  · rintro ⟨file', hw', hn'⟩ p rfl
    obtain rfl : file = file' := Outcome.ok.inj (hw.symm.trans hw')
    rw [hn] at hn'
    split at hn'
    · cases hn'
    · rename_i hle
      exact not_lt.mp hle
  · intro hpath
    refine ⟨file, hw, hn.trans (if_neg ?_)⟩
    cases path with
    | none => exact not_lt_zero _
    | some path => exact not_lt.mpr (hpath path rfl)

theorem header_read_back_iff_base : ∃ h, createForSizeAndPath 0x10000 (some "base.img") = .ok h ∧
    ∃ file, h.writeTo = .ok file ∧ new file = .ok h := by
  obtain ⟨h, hc⟩ := exists_eq_ok (x := createForSizeAndPath 0x10000 (some "base.img"))
    (by decide +kernel)
  exact ⟨h, hc, (header_read_back_iff _ _ h hc).mpr (by rintro _ ⟨⟩; decide +kernel)⟩

/-- A path of 1024 bytes is written and then refused. -/
theorem long_path_refused : ∃ path h file,
    createForSizeAndPath 0x10000 (some path) = .ok h ∧ h.writeTo = .ok file ∧
      new file = .err (.backingFileTooLong 1024) := by
  obtain ⟨h, hc⟩ := exists_eq_ok
    (x := createForSizeAndPath 0x10000 (some (String.ofList (replicate 1024 'a'))))
    (by decide +kernel)
  have hl : (String.ofList (replicate 1024 'a')).utf8ByteSize = 1024 := by
    decide +kernel
  obtain ⟨file, hw, hn⟩ := new_writeTo hc
  simp only [Option.map_some, Option.getD_some, hl] at hn
  exact ⟨_, h, file, hc, hw, hn⟩

end QcowHeader

end GunyahVmm.Qcow
