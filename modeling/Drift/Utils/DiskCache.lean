/-
  `free_disk_space_for` of `utils/disk_cache.py`: deleting the least recently used files of the
  Hugging Face cache.

  A cached file is a link to a blob.  The loop removes the link and the blob of one file after the
  other until their sizes make up for the missing space.  Two revisions may link to one blob: then
  the second removal of it raises, although its size has been counted once only.

  The function does what it is for exactly if no path occurs twice among the files that it would
  have to delete (`freeDiskSpaceFor_frees_iff`).

  The listing of the cache and the free space of the disk are what `huggingface_hub` and `shutil`
  report; the names of the repositories and the messages of the log are left out.
-/
import Drift.Python
import Mathlib.Algebra.BigOperators.Group.List.Basic
import Mathlib.Data.Finset.Basic
import Mathlib.Tactic.Tauto

namespace Drift

/-- A `CachedFileInfo`: a file of a revision. -/
structure CachedFile (Path Time : Type) where
  filePath : Path
  blobPath : Path
  sizeOnDisk : Nat
  blobLastAccessed : Time

/-- What `scan_cache_dir` returns: the files of the revisions of the repositories, and the size of
    all blobs. -/
structure CacheInfo (Path Time : Type) where
  repos : List (List (List (CachedFile Path Time)))
  sizeOnDisk : Nat

/-- What the function raises. -/
inductive DiskError (Path : Type) where
  /-- `FileNotFoundError` of `os.remove`. -/
  | fileNotFound (path : Path)
  /-- `RuntimeError`, with the bytes to be freed. -/
  | insufficientSpace (missing : Int)

/-- `{size / gib:.1f}`, as long as the division is exact: the next tenth, the even one of two. -/
def shownGib (size : Int) : String :=
  let gib : Int := 1024 ^ 3
  let tenths := 10 * size / gib
  let rest := 10 * size % gib
  let rounded := if gib < 2 * rest ∨ gib = 2 * rest ∧ tenths % 2 = 1 then tenths + 1 else tenths
  let whole := rounded / 10
  let tenth := rounded % 10
  s!"{whole}.{tenth}"

/-- `str(exc)`, with the `repr` of a path. -/
def DiskError.text {Path : Type} (shownPath : Path → String) (cacheDir : String) :
    DiskError Path → String
  | .fileNotFound path =>
    let shown := shownPath path
    s!"[Errno 2] No such file or directory: {shown}"
  | .insufficientSpace missing =>
    let shown := shownGib missing
    s!"Insufficient disk space to load a block. Please free {shown} GiB " ++
      s!"on the volume for {cacheDir} or increase --max_disk_space if you set it manually"

/-- The files that exist, what the loop has removed of the cache and the sizes of that. -/
structure FreeState (Path Time : Type) where
  existing : Finset Path
  removedFiles : List (CachedFile Path Time)
  freedSpace : Nat

section

variable {Path Time : Type} [DecidableEq Path] [LinearOrder Time]

/-- `os.remove`. -/
def osRemove (path : Path) (existing : Finset Path) : Except (DiskError Path) (Finset Path) :=
  if path ∈ existing then .ok (existing.erase path) else .error (.fileNotFound path)

/-- The loop over the sorted files. -/
def freeLoop (extraSpaceNeeded : Int) : List (CachedFile Path Time) → FreeState Path Time →
    FreeState Path Time × Option (DiskError Path)
  | [], s => (s, none)
  | file :: files, s =>
    match osRemove file.filePath s.existing with
    | .error exc => (s, some exc)
    | .ok existing =>
      match osRemove file.blobPath existing with
      | .error exc => ({ s with existing := existing }, some exc)
      | .ok existing =>
        let s : FreeState Path Time :=
          ⟨existing, s.removedFiles ++ [file], s.freedSpace + file.sizeOnDisk⟩
        if extraSpaceNeeded ≤ s.freedSpace then (s, none) else freeLoop extraSpaceNeeded files s

/-- `sorted(cached_files, key=lambda file: file.blob_last_accessed)`. -/
def leastRecentlyUsed (cacheInfo : CacheInfo Path Time) : List (CachedFile Path Time) :=
  cacheInfo.repos.flatten.flatten.insertionSort fun file file' =>
    file.blobLastAccessed ≤ file'.blobLastAccessed

/-- `available_space`. -/
def availableSpace (free osQuota : Int) (maxDiskSpace : Option Int)
    (cacheInfo : CacheInfo Path Time) : Int :=
  match maxDiskSpace with
  | none => free - osQuota
  | some maxDiskSpace => min (free - osQuota) (maxDiskSpace - cacheInfo.sizeOnDisk)

/-- `free_disk_space_for`, with the free space of the disk. -/
def freeDiskSpaceFor (size free osQuota : Int) (maxDiskSpace : Option Int)
    (cacheInfo : CacheInfo Path Time) (existing : Finset Path) :
    FreeState Path Time × Option (DiskError Path) :=
  let available := availableSpace free osQuota maxDiskSpace cacheInfo
  if size ≤ available then (⟨existing, [], 0⟩, none)
  else
    match freeLoop (size - available) (leastRecentlyUsed cacheInfo) ⟨existing, [], 0⟩ with
    | (s, some exc) => (s, some exc)
    | (s, none) =>
      if (s.freedSpace : Int) < size - available then
        (s, some (.insufficientSpace (size - available - s.freedSpace)))
      else (s, none)

end

/-! ## What is promised -/

section Spec

variable {Path Time : Type}

/-- The paths that are removed with a file. -/
def CachedFile.paths (file : CachedFile Path Time) : List Path := [file.filePath, file.blobPath]

/-- The sizes of files. -/
def totalSize (files : List (CachedFile Path Time)) : Nat := (files.map CachedFile.sizeOnDisk).sum

/-- The first files that make up for the missing space, or all if they do not. -/
def neededFiles (missing : Int) : List (CachedFile Path Time) → List (CachedFile Path Time)
  | [] => []
  | file :: files =>
    if missing ≤ 0 then [] else file :: neededFiles (missing - file.sizeOnDisk) files

variable [DecidableEq Path]

/-- **Space is freed** by removing the first files of `files`: no path is removed twice, so no blob
    is counted twice, and what is left of the disk is the rest.  The function returns if that is
    enough, and then no fewer files would have been, or it raises when there are no more. -/
structure FreesSpace (missing : Int) (files : List (CachedFile Path Time)) (existing : Finset Path)
    (s : FreeState Path Time) (result : Option (DiskError Path)) : Prop where
  inOrder : s.removedFiles <+: files
  distinct : (s.removedFiles.flatMap CachedFile.paths).Nodup
  left : s.existing = existing \ (s.removedFiles.flatMap CachedFile.paths).toFinset
  counted : s.freedSpace = totalSize s.removedFiles
  outcome : (result = none ∧ missing ≤ totalSize s.removedFiles ∧
      ∀ n < s.removedFiles.length, (totalSize (s.removedFiles.take n) : Int) < missing) ∨
    (result = some (.insufficientSpace (missing - totalSize s.removedFiles)) ∧
      s.removedFiles = files ∧ (totalSize files : Int) < missing)

/-! ## The files that are needed -/

omit [DecidableEq Path] in
theorem neededFiles_isPrefix (missing : Int) : ∀ files : List (CachedFile Path Time),
    neededFiles missing files <+: files := by
  intro files
  induction files generalizing missing with
  | nil => exact List.prefix_rfl
  | cons file files ih =>
    rw [neededFiles]
    split
    · exact List.nil_prefix
    · exact List.cons_prefix_cons.mpr ⟨rfl, ih _⟩

omit [DecidableEq Path] in
theorem neededFiles_of_nonpos {missing : Int} (h : missing ≤ 0)
    (files : List (CachedFile Path Time)) : neededFiles missing files = [] := by
  cases files with
  | nil => rfl
  | cons file files => exact if_pos h

omit [DecidableEq Path] in
/-- They are enough and no fewer are, or they are all and not enough. -/
theorem neededFiles_total (missing : Int) : ∀ files : List (CachedFile Path Time),
    (missing ≤ totalSize (neededFiles missing files) ∧
      ∀ n < (neededFiles missing files).length,
        (totalSize ((neededFiles missing files).take n) : Int) < missing) ∨
    (neededFiles missing files = files ∧ (totalSize files : Int) < missing) := by
  intro files
  induction files generalizing missing with
  | nil =>
    rcases Int.lt_or_le 0 missing with h | h
    · exact Or.inr ⟨rfl, h⟩
    · exact Or.inl ⟨h, fun n hn => absurd hn (Nat.not_lt_zero n)⟩
  | cons file files ih =>
    rcases Int.lt_or_le 0 missing with hmissing | hmissing
    · rw [neededFiles, if_neg (Int.not_le.mpr hmissing)]
      have htotal : ∀ rest : List (CachedFile Path Time),
          totalSize (file :: rest) = file.sizeOnDisk + totalSize rest := fun _ => rfl
      rcases ih (missing - file.sizeOnDisk) with ⟨henough, hfewer⟩ | ⟨hall, hshort⟩
      · refine Or.inl ⟨by rw [htotal]; omega, fun n hn => ?_⟩
        cases n with
        | zero => exact hmissing
        | succ n =>
          have hrest := hfewer n (Nat.lt_of_succ_lt_succ hn)
          rw [List.take_succ_cons, htotal]
          omega
      · refine Or.inr ⟨by rw [hall], ?_⟩
        rw [htotal]
        omega
    · rw [neededFiles_of_nonpos hmissing]
      exact Or.inl ⟨hmissing, fun n hn => absurd hn (Nat.not_lt_zero n)⟩

/-! ## The loop -/

/-- The paths of these files exist, each once. -/
def Removable (files : List (CachedFile Path Time)) (existing : Finset Path) : Prop :=
  (files.flatMap CachedFile.paths).Nodup ∧ ∀ path ∈ files.flatMap CachedFile.paths, path ∈ existing

omit [DecidableEq Path] in
theorem removable_nil (existing : Finset Path) :
    Removable ([] : List (CachedFile Path Time)) existing :=
  ⟨List.nodup_nil, fun _ h => nomatch h⟩

theorem removable_cons {file : CachedFile Path Time} {files : List (CachedFile Path Time)}
    {existing : Finset Path} : Removable (file :: files) existing ↔
      file.filePath ∈ existing ∧ file.blobPath ∈ existing.erase file.filePath ∧
        Removable files ((existing.erase file.filePath).erase file.blobPath) := by
  have hpaths : (file :: files).flatMap CachedFile.paths
      = file.filePath :: file.blobPath :: files.flatMap CachedFile.paths := rfl
  rw [Removable, Removable, hpaths, List.nodup_cons, List.nodup_cons, List.forall_mem_cons,
    List.forall_mem_cons]
  simp only [List.mem_cons, Finset.mem_erase]
  constructor
  · rintro ⟨⟨hfile, hblob, hnodup⟩, hfileIn, hblobIn, hall⟩
    refine ⟨hfileIn, ⟨fun heq => hfile (Or.inl heq.symm), hblobIn⟩, hnodup, fun path hpath => ?_⟩
    exact ⟨fun heq => hblob (heq ▸ hpath), fun heq => hfile (Or.inr (heq ▸ hpath)),
      hall path hpath⟩
  · rintro ⟨hfileIn, ⟨hne, hblobIn⟩, hnodup, hall⟩
    refine ⟨⟨?_, fun hmem => (hall _ hmem).1 rfl, hnodup⟩, hfileIn, hblobIn,
      fun path hpath => (hall path hpath).2.2⟩
    rintro (heq | hmem)
    · exact hne heq.symm
    · exact (hall _ hmem).2.1 rfl

/-- **The loop** removes the files that are needed, or meets a path that is gone. -/
theorem freeLoop_spec {extra : Int} : ∀ (files : List (CachedFile Path Time))
    {s : FreeState Path Time}, (s.freedSpace : Int) < extra →
    (Removable (neededFiles (extra - s.freedSpace) files) s.existing ∧
      freeLoop extra files s = (⟨s.existing \
          ((neededFiles (extra - s.freedSpace) files).flatMap CachedFile.paths).toFinset,
        s.removedFiles ++ neededFiles (extra - s.freedSpace) files,
        s.freedSpace + totalSize (neededFiles (extra - s.freedSpace) files)⟩, none)) ∨
    (¬ Removable (neededFiles (extra - s.freedSpace) files) s.existing ∧
      ∃ s' path, freeLoop extra files s = (s', some (.fileNotFound path))) := by
  intro files
  induction files with
  | nil =>
    intro s _
    refine Or.inl ⟨removable_nil _, ?_⟩
    simp [neededFiles, freeLoop, totalSize]
  | cons file files ih =>
    intro s hextra
    have hneeded : neededFiles (extra - s.freedSpace) (file :: files)
        = file :: neededFiles (extra - s.freedSpace - file.sizeOnDisk) files :=
      if_neg (by omega)
    rw [hneeded, removable_cons, freeLoop]
    by_cases hfile : file.filePath ∈ s.existing
    · rw [osRemove, if_pos hfile]
      by_cases hblob : file.blobPath ∈ s.existing.erase file.filePath
      · simp only [osRemove, if_pos hblob]
        have hminus : extra - s.freedSpace - file.sizeOnDisk
            = extra - ((s.freedSpace + file.sizeOnDisk : Nat) : Int) := by omega
        have hpaths : ∀ rest : List (CachedFile Path Time), s.existing \
            ((file :: rest).flatMap CachedFile.paths).toFinset
            = ((s.existing.erase file.filePath).erase file.blobPath) \
              (rest.flatMap CachedFile.paths).toFinset := by
          intro rest
          ext path
          simp only [List.flatMap_cons, CachedFile.paths, Finset.mem_sdiff, List.mem_toFinset,
            List.mem_append, List.mem_cons, Finset.mem_erase, List.not_mem_nil, or_false]
          tauto
        have htotal : ∀ rest : List (CachedFile Path Time),
            totalSize (file :: rest) = file.sizeOnDisk + totalSize rest := fun _ => rfl
        rw [hminus, hpaths, htotal]
        by_cases henough : extra ≤ ((s.freedSpace + file.sizeOnDisk : Nat) : Int)
        · -- the loop breaks
          rw [if_pos henough, neededFiles_of_nonpos (by omega)]
          refine Or.inl ⟨⟨hfile, hblob, removable_nil _⟩, ?_⟩
          simp [totalSize]
        · rw [if_neg henough]
          rcases ih (s := ⟨(s.existing.erase file.filePath).erase file.blobPath,
            s.removedFiles ++ [file], s.freedSpace + file.sizeOnDisk⟩) (Int.not_le.mp henough)
            with ⟨hrest, hloop⟩ | ⟨hrest, hloop⟩
          · refine Or.inl ⟨⟨hfile, hblob, hrest⟩, ?_⟩
            rw [hloop, List.append_assoc, Nat.add_assoc]
            rfl
          · exact Or.inr ⟨fun h => hrest h.2.2, hloop⟩
      · simp only [osRemove, if_neg hblob]
        exact Or.inr ⟨fun h => hblob h.2.1, _, _, rfl⟩
    · rw [osRemove, if_neg hfile]
      exact Or.inr ⟨fun h => hfile h.1, _, _, rfl⟩

end Spec

/-! ## The function -/

section Main

variable {Path Time : Type} [DecidableEq Path] [LinearOrder Time]
  {cacheInfo : CacheInfo Path Time} {existing : Finset Path}

omit [DecidableEq Path] in
theorem leastRecentlyUsed_perm (cacheInfo : CacheInfo Path Time) :
    (leastRecentlyUsed cacheInfo).Perm cacheInfo.repos.flatten.flatten :=
  List.perm_insertionSort _ _

omit [DecidableEq Path] in
/-- They are in the order of their last access. -/
theorem leastRecentlyUsed_pairwise (cacheInfo : CacheInfo Path Time) :
    (leastRecentlyUsed cacheInfo).Pairwise fun file file' =>
      file.blobLastAccessed ≤ file'.blobLastAccessed := by
  have : Std.Total fun file file' : CachedFile Path Time =>
      file.blobLastAccessed ≤ file'.blobLastAccessed := ⟨fun _ _ => le_total _ _⟩
  have : IsTrans (CachedFile Path Time) fun file file' =>
      file.blobLastAccessed ≤ file'.blobLastAccessed := ⟨fun _ _ _ => le_trans⟩
  exact List.pairwise_insertionSort _ _

/-- **Space is freed** exactly if no path occurs twice among the files that are needed. -/
theorem freeDiskSpaceFor_frees_iff (size free osQuota : Int) (maxDiskSpace : Option Int)
    (hlisted : ∀ file ∈ cacheInfo.repos.flatten.flatten,
      file.filePath ∈ existing ∧ file.blobPath ∈ existing) :
    FreesSpace (size - availableSpace free osQuota maxDiskSpace cacheInfo)
        (leastRecentlyUsed cacheInfo) existing
        (freeDiskSpaceFor size free osQuota maxDiskSpace cacheInfo existing).1
        (freeDiskSpaceFor size free osQuota maxDiskSpace cacheInfo existing).2 ↔
      ((neededFiles (size - availableSpace free osQuota maxDiskSpace cacheInfo)
        (leastRecentlyUsed cacheInfo)).flatMap CachedFile.paths).Nodup := by
  simp only [freeDiskSpaceFor]
  generalize availableSpace free osQuota maxDiskSpace cacheInfo = available
  generalize hfiles : leastRecentlyUsed cacheInfo = files
  -- so a file can be removed unless the loop has done it
  have hexist : ∀ path ∈ (neededFiles (size - available) files).flatMap CachedFile.paths,
      path ∈ existing := by
    intro path hpath
    obtain ⟨file, hfile, hpath⟩ := List.mem_flatMap.mp hpath
    have hmem := (neededFiles_isPrefix _ files).subset hfile
    rw [← hfiles, (leastRecentlyUsed_perm cacheInfo).mem_iff] at hmem
    rcases List.mem_pair.mp hpath with rfl | rfl
    · exact (hlisted file hmem).1
    · exact (hlisted file hmem).2
  by_cases henough : size ≤ available
  · have hnone : neededFiles (size - available) files = [] :=
      neededFiles_of_nonpos (by omega) files
    rw [if_pos henough, hnone]
    refine iff_of_true ⟨List.nil_prefix, List.nodup_nil, ?_, rfl, Or.inl ⟨rfl, ?_, ?_⟩⟩
      List.nodup_nil
    · simp
    · simp only [totalSize, List.map_nil, List.sum_nil]
      omega
    · exact fun n hn => absurd hn (Nat.not_lt_zero n)
  · have hmissing : ((⟨existing, [], 0⟩ : FreeState Path Time).freedSpace : Int)
        < size - available := by
      show ((0 : Nat) : Int) < _
      omega
    rw [if_neg henough]
    have hloop := freeLoop_spec files hmissing
    simp only [Int.natCast_zero, Int.sub_zero, List.nil_append, Nat.zero_add] at hloop
    rcases hloop with ⟨⟨hnodup, -⟩, hloop⟩ | ⟨hgone, s', path, hloop⟩
    · refine iff_of_true ?_ hnodup
      rw [hloop]
      rcases neededFiles_total (size - available) files with ⟨hsize, hfewer⟩ | ⟨hall, hshort⟩
      · simp only [if_neg (Int.not_lt.mpr hsize)]
        exact ⟨neededFiles_isPrefix _ _, hnodup, rfl, rfl, Or.inl ⟨rfl, hsize, hfewer⟩⟩
      · rw [hall] at hnodup ⊢
        simp only [if_pos hshort]
        exact ⟨List.prefix_rfl, hnodup, rfl, rfl, Or.inr ⟨rfl, rfl, hshort⟩⟩
    · rw [hloop]
      refine iff_of_false ?_ fun hnodup => hgone ⟨hnodup, hexist⟩
      rintro ⟨-, -, -, -, ⟨hresult, -⟩ | ⟨hresult, -⟩⟩
      · cases hresult
      · cases hresult

/-- Three files of one revision, of which the two that were read first are enough. -/
theorem freeDiskSpaceFor_frees_iff_distinct :
    let cacheInfo : CacheInfo Nat Nat :=
      ⟨[[[⟨0, 10, 4, 2⟩, ⟨1, 11, 5, 1⟩], [⟨2, 12, 6, 3⟩]]], 15⟩
    FreesSpace (8 - availableSpace 3 2 (some 15) cacheInfo) (leastRecentlyUsed cacheInfo)
      {0, 1, 2, 10, 11, 12}
      (freeDiskSpaceFor 8 3 2 (some 15) cacheInfo {0, 1, 2, 10, 11, 12}).1
      (freeDiskSpaceFor 8 3 2 (some 15) cacheInfo {0, 1, 2, 10, 11, 12}).2 :=
  (freeDiskSpaceFor_frees_iff 8 3 2 (some 15) (by decide)).mpr (by decide)

/-- Two revisions with one unchanged file: its blob has been removed when the second link to it is
    met, and the files that could still be removed stay. -/
theorem shared_blob_raises :
    let cacheInfo : CacheInfo Nat Nat :=
      ⟨[[[⟨0, 10, 4, 1⟩], [⟨1, 10, 4, 1⟩, ⟨2, 11, 6, 2⟩]]], 10⟩
    (∀ file ∈ cacheInfo.repos.flatten.flatten,
      file.filePath ∈ ({0, 1, 2, 10, 11} : Finset Nat) ∧
        file.blobPath ∈ ({0, 1, 2, 10, 11} : Finset Nat)) ∧
    ¬ FreesSpace (8 - availableSpace 2 2 none cacheInfo) (leastRecentlyUsed cacheInfo)
      {0, 1, 2, 10, 11}
      (freeDiskSpaceFor 8 2 2 none cacheInfo {0, 1, 2, 10, 11}).1
      (freeDiskSpaceFor 8 2 2 none cacheInfo {0, 1, 2, 10, 11}).2 := by
  refine ⟨by decide, fun hfrees => ?_⟩
  rcases hfrees.outcome with ⟨hresult, -⟩ | ⟨hresult, -⟩
  · cases hresult
  · cases hresult

end Main

end Drift
