import GunyahVmm.Disk.Composite
import GunyahVmm.Lib.Tiling

/-! The components of an accepted specification tile the disk up to the declared length. -/

namespace GunyahVmm.Disk.CompositeDiskFile
open Run Tiling Run.Outcome List
variable {env : Environment} {params : DiskFileParams} {version total : Nat}
  {disks parts : List ComponentDiskPart} {disk : CompositeDiskFile} {proto : CompositeDisk}
  {c : Prop}

abbrev Covers (lo : Nat) (parts : List ComponentDiskPart) (hi : Nat) : Prop :=
  Tiles ComponentDiskPart.offset ComponentDiskPart.length lo parts hi

section
variable (disks : List ComponentDiskPart)

abbrev Sorted : Prop := disks.Pairwise fun d1 d2 => d1.offset ≤ d2.offset

lemma sorted_sortByOffset : Sorted (sortByOffset disks) := by
  exact pairwise_insertionSort _ disks

lemma perm_sortByOffset : (sortByOffset disks).Perm disks := perm_insertionSort _ disks

end

lemma sortByOffset_eq_self (h : Sorted disks) : sortByOffset disks = disks := h.insertionSort_eq

lemma openComponents_eq_ok {ds : List ComponentDisk}
    (h : openComponents env params version ds = .ok parts) :
    parts.map (·.offset) = ds.map (·.offset) := by
  induction ds generalizing parts with
  | nil =>
    cases h
    rfl
  | cons d ds ih =>
    obtain ⟨part, hp, h⟩ := bind_eq_ok.mp h
    obtain ⟨rest, hr, h⟩ := bind_eq_ok.mp h
    cases h
    obtain ⟨path, -, hp⟩ := bind_eq_ok.mp hp
    obtain ⟨depth, -, hp⟩ := bind_eq_ok.mp hp
    split at hp
    all_goals cases hp
    rw [map_cons, map_cons, ih hr]

lemma assignLengths_yields {first : ComponentDiskPart} (h : Sorted (first :: disks)) :
    (assignLengths total (first :: disks)).Yields fun parts =>
      Covers first.offset parts total ∧ parts.map (·.offset) = (first :: disks).map (·.offset) := by
  induction disks generalizing first with
  | nil =>
    unfold assignLengths
    split
    · trivial
    rw [subU64_of_le (by omega)]
    refine ⟨⟨rfl, ?_, ?_⟩, rfl⟩
    · dsimp only
      omega
    · change first.offset + (total - first.offset) = total
      omega
  | cons next rest ih =>
    obtain ⟨hf, hr⟩ := pairwise_cons.mp h
    have hle := hf next mem_cons_self
    unfold assignLengths
    rw [subU64_of_le hle, ok_bind]
    split
    · trivial
    rename_i hne
    refine (ih hr).bind fun parts hp => ?_
    refine ⟨⟨rfl, Nat.pos_of_ne_zero hne, ?_⟩, ?_⟩
    · rw [Nat.add_sub_of_le hle]
      exact hp.1
    · rw [map_cons, hp.2]
      rfl

lemma Covers.sorted {lo hi : Nat} (h : Covers lo parts hi) : Sorted parts :=
  h.pairwise.imp fun hle => Nat.le_trans (Nat.le_add_right _ _) hle

lemma new_of_covers {lo hi : Nat} (h : Covers lo parts hi) : new parts = .ok ⟨parts⟩ := by
  have hc : checkOffsets parts = .ok () := by
    induction parts generalizing lo with
    | nil => rfl
    | cons d rest ih =>
      cases rest with
      | nil => rfl
      | cons e rest =>
        obtain ⟨hd, hp, hr⟩ := h
        rw [checkOffsets, if_neg, ih hr]
        have he := hr.1
        omega
  rw [new, sortByOffset_eq_self h.sorted, hc]
  rfl

structure Accepted (proto : CompositeDisk) (disk : CompositeDiskFile) : Prop where
  covers : ∃ first rest, disk.componentDisks = first :: rest ∧
    Covers first.offset disk.componentDisks proto.length
  offsets : (disk.componentDisks.map (·.offset)).Perm (proto.componentDisks.map (·.offset))

lemma layOut_yields {opened : List ComponentDiskPart}
    (ho : opened.map (·.offset) = proto.componentDisks.map (·.offset))
    (hne : c → opened ≠ []) :
    YieldsIf c ((subU64 (sortByOffset opened).length 1 : Outcome CompositeError Nat) >>= fun _ =>
      assignLengths proto.length (sortByOffset opened) >>= new) (Accepted proto) := by
  have hp := perm_sortByOffset opened
  have hs := sorted_sortByOffset opened
  cases hl : sortByOffset opened with
  | nil =>
    rw [hl] at hp
    exact fun hc => hne hc hp.symm.eq_nil
  | cons first rest =>
    rw [hl] at hs hp
    refine (assignLengths_yields hs).yieldsIf.bind fun parts hpr => ?_
    rw [new_of_covers hpr.1]
    refine ⟨?_, ?_⟩
    · cases parts with
      | nil => simp at hpr
      | cons p ps =>
        have hh : p.offset = first.offset := hpr.1.1
        exact ⟨p, ps, rfl, hh ▸ hpr.1⟩
    · rw [hpr.2, ← ho]
      exact hp.map _

/-- Opening aborts for a specification without components, or with a component. -/
lemma fromProto_ne_panic :
    fromProto env params proto ≠ .panic ↔ (proto.version ≤ compositeDiskVersion →
      proto.componentDisks ≠ [] ∧
        openComponents env params proto.version proto.componentDisks ≠ .panic) := by
  unfold fromProto
  split
  · rename_i hv
    exact iff_of_true nofun fun hle => absurd hle (not_le.mpr hv)
  rename_i hv
  rw [forall_prop_of_true (not_lt.mp hv)]
  cases ho : openComponents env params proto.version proto.componentDisks with
  | panic => exact iff_of_false (fun h => h rfl) fun h => h.2 rfl
  | err e =>
    refine iff_of_true nofun ⟨fun hn => ?_, nofun⟩
    rw [hn] at ho
    cases ho
  | ok opened =>
    have hl := openComponents_eq_ok ho
    refine ⟨fun h => ⟨fun hn => h ?_, nofun⟩, fun h => ?_⟩
    · rw [hn] at ho
      cases ho
      rfl
    · refine (yieldsIf_iff.mp (layOut_yields (c := True) hl fun _ hn => h.1 ?_)).1 trivial
      rw [hn] at hl
      exact map_eq_nil_iff.mp hl.symm

lemma fromFile_eq_ok {content : List (BitVec 8)} (h : fromFile env content params = .ok disk) :
    ∃ proto, env.parseFromReader (content.drop cdiskMagic.length) = some proto ∧
      Accepted proto disk := by
  unfold fromFile at h
  split at h
  · cases h
  split at h
  · cases h
  split at h
  · cases h
  · rename_i proto hp
    unfold fromProto at h
    split at h
    · cases h
    obtain ⟨opened, ho, h⟩ := bind_eq_ok.mp h
    have hl := layOut_yields (c := False) (openComponents_eq_ok ho) False.elim
    exact ⟨proto, hp, (yieldsIf_iff.mp hl).2 disk h⟩

/-! ## Which files can be opened -/

/-- The specification in a file that is not refused before its components are opened. -/
def specification (env : Environment) (content : List (BitVec 8)) : Option CompositeDisk :=
  if content.take cdiskMagic.length = cdiskMagic then
    (env.parseFromReader (content.drop cdiskMagic.length)).filter (·.version ≤ compositeDiskVersion)
  else none

section
variable (env) (params) (version) (safe : DiskFileParams → Prop)

/-- As far as the components are opened one after the other, each has a path and a depth, and its
file is `safe`. -/
def ComponentsSafe : List ComponentDisk → Prop
  | [] => True
  | d :: ds => (∃ path, componentPath params version d.filePath = .ok path ∧
      params.depth + 1 < u32Size ∧ safe (componentParams params d path (params.depth + 1))) ∧
    ∀ part, openComponent env params version d = .ok part → ComponentsSafe ds

/-- The specification has components, and they are safe to open. -/
def SpecificationSafe (content : List (BitVec 8)) : Prop :=
  ∀ proto, specification env content = some proto → proto.componentDisks ≠ [] ∧
    ComponentsSafe env params proto.version safe proto.componentDisks

end

section
variable {safe : DiskFileParams → Prop} (hsafe : ∀ p, env.openDiskFile p ≠ .panic ↔ safe p)
include hsafe

lemma openComponent_ne_panic (d : ComponentDisk) :
    openComponent env params version d ≠ .panic ↔
      ∃ path, componentPath params version d.filePath = .ok path ∧ params.depth + 1 < u32Size ∧
        safe (componentParams params d path (params.depth + 1)) := by
  unfold openComponent
  cases hp : componentPath params version d.filePath with
  | panic => simp
  | err e =>
    unfold componentPath at hp
    split at hp
    · cases hd : params.path.parent <;> simp [Outcome.expect, hd] at hp
    · cases hp
  | ok path =>
    by_cases hd : params.depth + 1 < u32Size
    · simp only [ok_bind, addU32, addIn_of_lt hd, Outcome.ok.injEq, exists_eq_left', hd, true_and,
        ← hsafe]
      cases env.openDiskFile (componentParams params d path (params.depth + 1)) <;> simp
    · simp [addU32, addIn, hd]

lemma openComponents_ne_panic (ds : List ComponentDisk) :
    openComponents env params version ds ≠ .panic ↔
      ComponentsSafe env params version safe ds := by
  induction ds with
  | nil => exact iff_of_true nofun trivial
  | cons d ds ih =>
    rw [ComponentsSafe, ← openComponent_ne_panic hsafe, ← ih, openComponents]
    cases openComponent env params version d with
    | panic => simp
    | err e => simp
    | ok part =>
      cases openComponents env params version ds <;> simp

lemma fromFile_ne_panic (content : List (BitVec 8)) :
    fromFile env content params ≠ .panic ↔ SpecificationSafe env params safe content := by
  unfold fromFile SpecificationSafe specification
  by_cases hm : content.take cdiskMagic.length = cdiskMagic
  · have hl : ¬ content.length < cdiskMagic.length := by
      rw [← hm, length_take]
      omega
    rw [if_neg hl, if_neg (not_not.mpr hm), if_pos hm]
    cases env.parseFromReader (content.drop cdiskMagic.length) with
    | none => simp
    | some proto =>
      simp [fromProto_ne_panic, openComponents_ne_panic hsafe, Option.filter_eq_some_iff]
  · refine iff_of_true ?_ (by simp [hm])
    split <;> nofun

end

/-- What opening a file must not meet: a composite disk without components, and an image of another
format that aborts. -/
def FileSafe (host : HostFiles) : Nat → DiskFileParams → Prop
  | 0, _ => True
  | levels + 1, params => params.depth ≤ maxNestingDepth → ∀ raw,
    host.openRawDiskImage params = some raw →
      if raw.2.take cdiskMagic.length = cdiskMagic then
        SpecificationSafe ⟨host.parseFromReader, host.openDiskFile levels⟩ params
          (FileSafe host levels) raw.2
      else host.openOther params ≠ .panic

lemma openDiskFile_ne_panic (host : HostFiles) (levels : Nat) (params : DiskFileParams) :
    host.openDiskFile levels params ≠ .panic ↔ FileSafe host levels params := by
  induction levels generalizing params with
  | zero => exact iff_of_true nofun trivial
  | succ levels ih =>
    rw [HostFiles.openDiskFile, FileSafe]
    split
    · rename_i hd
      exact iff_of_true nofun fun hle => absurd hle (not_le.mpr hd)
    rename_i hd
    rw [forall_prop_of_true (not_lt.mp hd)]
    split
    · rename_i hr
      exact iff_of_true nofun (by simp [hr])
    · rename_i file content hr
      simp only [hr, Option.some.injEq, forall_eq']
      split
      · rw [← @fromFile_ne_panic ⟨_, host.openDiskFile levels⟩ params _ ih content]
        split <;> simp [*]
      · rfl

lemma Accepted.nodup (h : Accepted proto disk) : (proto.componentDisks.map (·.offset)).Nodup := by
  obtain ⟨first, rest, -, hc⟩ := h.covers
  refine h.offsets.nodup (pairwise_map.mpr (hc.pairwise.imp_of_mem fun hd _ hle heq => ?_))
  have := (hc.bounds hd).2.1
  omega

lemma Accepted.end_last {last : ComponentDiskPart} (h : Accepted proto disk)
    (hl : disk.componentDisks.getLast? = some last) :
    last.offset + last.length = proto.length := by
  obtain ⟨first, rest, -, hc⟩ := h.covers
  obtain ⟨init, hi⟩ := getLast?_eq_some_iff.mp hl
  rw [hi] at hc
  exact hc.end_of_append

/-- **Opening a composite disk.** A file is accepted or rejected exactly if no specification without
components is met, in it or in the files of its components. If it is accepted, the components in the
order of their offsets are disjoint, leave no gap, and end at the declared length. -/
theorem open_covers_iff (host : HostFiles) (content : List (BitVec 8)) (params : DiskFileParams) :
    (fromFile host.environment content params ≠ .panic ∧
      ∀ disk, fromFile host.environment content params = .ok disk →
        ∃ proto, host.parseFromReader (content.drop cdiskMagic.length) = some proto ∧
          Accepted proto disk ∧
          disk.componentDisks.Pairwise (fun d1 d2 => d1.offset + d1.length ≤ d2.offset) ∧
          ∀ last, disk.componentDisks.getLast? = some last →
            last.offset + last.length = proto.length) ↔
      SpecificationSafe host.environment params
        (fun p => FileSafe host (maxNestingDepth + 1 - p.depth) p) content := by
  rw [← fromFile_ne_panic fun p => openDiskFile_ne_panic host _ p, and_iff_left]
  intro disk hd
  obtain ⟨proto, hp, ha⟩ := fromFile_eq_ok hd
  obtain ⟨first, rest, -, hc⟩ := ha.covers
  exact ⟨proto, hp, ha, hc.pairwise, fun last => ha.end_last⟩

/-- Files that open, and a parser that finds the given specification. -/
def openingEnvironment (proto : CompositeDisk) : Environment where
  parseFromReader := fun _ => some proto
  openDiskFile := fun params => .ok params.path.components.length

/-- The parameters for a composite disk in the directory `/d`. -/
def plainParams : DiskFileParams := ⟨⟨true, ["d", "disk"]⟩, false, false, false, false, false, 0⟩

/-- Raw files, and composite disks with the first byte of their text as the number of components. -/
def numberedFiles (content : DiskFileParams → List (BitVec 8)) : HostFiles where
  parseFromReader := fun text => some ⟨2, (range (text.headD 0).toNat).map fun i =>
    ⟨⟨false, [toString i]⟩, i * 512, 0⟩, 4096⟩
  openRawDiskImage := fun params => some (params.depth, content params)
  openOther := fun params => .ok params.depth

/-- A specification without components ends the process: the bound of the loop over the
neighbours is one less than 0. So does a component that is such a composite disk. -/
theorem open_without_components :
    fromFile (numberedFiles fun _ => []).environment (cdiskMagic ++ [0]) plainParams = .panic ∧
      fromFile (numberedFiles fun _ => cdiskMagic ++ [0]).environment (cdiskMagic ++ [2])
        plainParams = .panic := by
  decide

/-! ## Specifications in order -/

section Ascending
variable {file : ComponentDisk → FileId} {ds b e : List ComponentDisk}

/-- Where the first of the components starts, or else the end. -/
def headOffset (total : Nat) : List ComponentDisk → Nat
  | [] => total
  | d :: _ => d.offset

/-- Each component starts before the next one, the last one before the end. -/
def Ascends (total : Nat) : List ComponentDisk → Prop
  | [] => True
  | d :: ds => d.offset < headOffset total ds ∧ Ascends total ds

/-- The components of a specification in order, with their files and lengths. -/
def layOut (file : ComponentDisk → FileId) (total : Nat) :
    List ComponentDisk → List ComponentDiskPart
  | [] => []
  | d :: ds => ⟨file d, d.offset, headOffset total ds - d.offset⟩ :: layOut file total ds

lemma headOffset_append : headOffset total (b ++ e) = headOffset (headOffset total e) b := by
  cases b <;> rfl

lemma layOut_append :
    layOut file total (b ++ e) = layOut file (headOffset total e) b ++ layOut file total e := by
  induction b with
  | nil => rfl
  | cons d b ih => rw [cons_append, layOut, ih, headOffset_append, layOut, cons_append]

lemma Ascends.append (hb : Ascends (headOffset total e) b) (he : Ascends total e) :
    Ascends total (b ++ e) := by
  induction b with
  | nil => exact he
  | cons d b ih =>
    exact ⟨headOffset_append ▸ hb.1, ih hb.2⟩

lemma Ascends.covers (h : Ascends total ds) :
    Covers (headOffset total ds) (layOut file total ds) total := by
  induction ds with
  | nil => rfl
  | cons d ds ih =>
    obtain ⟨hd, hds⟩ := h
    refine ⟨rfl, Nat.sub_pos_of_lt hd, ?_⟩
    change Covers (d.offset + (headOffset total ds - d.offset)) (layOut file total ds) total
    rw [Nat.add_sub_of_le (Nat.le_of_lt hd)]
    exact ih hds

def openedPart (file : ComponentDisk → FileId) (d : ComponentDisk) : ComponentDiskPart :=
  ⟨file d, d.offset, 0⟩

lemma map_offset_layOut : (layOut file total ds).map (·.offset) = ds.map (·.offset) := by
  induction ds with
  | nil => rfl
  | cons d ds ih => rw [layOut, map_cons, ih, map_cons]

lemma Ascends.sorted (h : Ascends total ds) : Sorted (ds.map (openedPart file)) := by
  have hc : Sorted (layOut file total ds) := h.covers.sorted
  have ho : ((layOut file total ds).map (·.offset)).Pairwise (· ≤ ·) := pairwise_map.mpr hc
  rw [map_offset_layOut] at ho
  exact pairwise_map.mpr (pairwise_map.mp ho)

lemma Ascends.assignLengths (h : Ascends total ds) (hne : ds ≠ []) :
    assignLengths total (ds.map (openedPart file)) = .ok (layOut file total ds) := by
  induction ds with
  | nil => contradiction
  | cons d ds ih =>
    obtain ⟨hd, hds⟩ := h
    cases ds with
    | nil =>
      change d.offset < total at hd
      simp only [map_cons, map_nil, CompositeDiskFile.assignLengths, openedPart]
      rw [if_neg (by omega), subU64_of_le (by omega)]
      rfl
    | cons e ds =>
      change d.offset < e.offset at hd
      have hr := ih hds (by simp)
      simp only [map_cons, openedPart] at hr ⊢
      rw [CompositeDiskFile.assignLengths, subU64_of_le (by dsimp only; omega), ok_bind,
        if_neg (by dsimp only; omega), hr]
      rfl

/-- The files of the components open, in the directory of the composite disk. -/
structure Opens (env : Environment) (params : DiskFileParams) (file : ComponentDisk → FileId)
    (ds : List ComponentDisk) : Prop where
  depth : params.depth + 1 < u32Size
  opens : ∃ parent, params.path.parent = some parent ∧ ∀ d ∈ ds,
    env.openDiskFile (componentParams params d (parent.join d.filePath) (params.depth + 1)) =
      .ok (file d)

lemma Opens.openComponents (h : Opens env params file ds) (hv : 1 < version) :
    openComponents env params version ds = .ok (ds.map (openedPart file)) := by
  obtain ⟨hdp, parent, hpr, ho⟩ := h
  induction ds with
  | nil => rfl
  | cons d ds ih =>
    obtain ⟨hd, hds⟩ := forall_mem_cons.mp ho
    have hp : componentPath params version d.filePath = .ok (parent.join d.filePath) := by
      rw [componentPath, if_pos (by simp [hv]), hpr]
      rfl
    rw [CompositeDiskFile.openComponents, openComponent, hp, ok_bind, addU32,
      addIn_of_lt hdp, ok_bind, hd, ih hds]
    rfl

/-- A specification in order whose files open is accepted. -/
lemma Ascends.fromProto (h : Ascends proto.length proto.componentDisks)
    (hne : proto.componentDisks ≠ []) (ho : Opens env params file proto.componentDisks)
    (hv : proto.version = compositeDiskVersion) :
    fromProto env params proto = .ok ⟨layOut file proto.length proto.componentDisks⟩ := by
  have hl : 1 ≤ (proto.componentDisks.map (openedPart file)).length := by
    rw [length_map]
    exact length_pos_of_ne_nil hne
  rw [CompositeDiskFile.fromProto, if_neg (by omega),
    ho.openComponents (by rw [hv]; decide), ok_bind]
  dsimp only
  rw [sortByOffset_eq_self h.sorted, subU64_of_le hl, ok_bind, h.assignLengths hne,
    ok_bind, new_of_covers h.covers]

end Ascending

end GunyahVmm.Disk.CompositeDiskFile
