import OstreeTar.Export.Checkout

/-!
# The two format versions

The format version is read in three places.  It decides where the repository configuration
goes; how xattrs are recorded (format 0: a blob per digest under `repo/xattrs/` and a
`.file.xattrs` link, for non-empty xattrs only; format 1: a `.file-xattrs` object and a
`.file-xattrs-link`, for every file); and `filter_mode`, which in format 1 clears the file-type
bits of a mode.  Set those entries aside and clear the format-0 modes, and the two exports of a
commit are the same archive, or both fail (`exportCommit_formats_agree`).

The two runs are compared step by step: each step of the writer, run from two states that agree
so far, fails in both or succeeds in both, and the states still agree.  They hold the same
membership sets but for the xattrs set, which decides only whether a blob is written.
-/

namespace OstreeTar

/-! ## Normalizing an archive -/

/-- The name of an object file past its checksum: what follows the first dot. -/
def objectSuffix (name : String) : String := String.mk ((name.data.dropWhile (· != '.')).drop 1)

/-- The suffixes of the xattrs objects and links of the two formats. -/
def xattrsSuffixes : List String := ["file.xattrs", "file-xattrs", "file-xattrs-link"]

/-- A path the format version decides: the repository configuration in either place, the
format-0 xattrs directory and its blobs, and the xattrs objects and links of either format. -/
def isFormatPath (p : Utf8PathBuf) : Bool :=
  decide (p = [.normal sysroot, .normal "config"] ∨
    p = ostreeDir ++ [.normal "repo", .normal "config"] ∨
    ostreeDir ++ [.normal "repo", .normal "xattrs"] <+: p ∨
    (p.length = 6 ∧ ostreeDir ++ [.normal "repo", .normal "objects"] <+: p ∧
      ((Utf8Path.fileName p).map objectSuffix).any (· ∈ xattrsSuffixes)))

/-- A header with the file-type bits of its mode cleared. -/
def Header.clearFileType (h : Header) : Header := { h with mode := h.mode &&& ~~~S_IFMT }

/-- An entry with the file-type bits of its mode cleared. -/
def Entry.clearFileType (e : Entry) : Entry := { e with header := e.header.clearFileType }

/-- An archive less the entries the format version decides. -/
def withoutFormatEntries (out : List Entry) : List Entry :=
  out.filter fun e => !isFormatPath e.path

@[simp] theorem Entry.clearFileType_path (e : Entry) : e.clearFileType.path = e.path := rfl

@[simp] theorem withoutFormatEntries_append (a b : List Entry) :
    withoutFormatEntries (a ++ b) = withoutFormatEntries a ++ withoutFormatEntries b :=
  List.filter_append _ _

@[simp] theorem withoutFormatEntries_nil : withoutFormatEntries [] = [] := rfl

@[simp] theorem withoutFormatEntries_cons {e : Entry} (l : List Entry)
    (he : isFormatPath e.path = true) : withoutFormatEntries (e :: l) = withoutFormatEntries l := by
  simp [withoutFormatEntries, he]

/-! ## Which paths the format decides -/

theorem objectSuffix_objectName (c : Checksum) (suffix : String) :
    objectSuffix (c.splitAt.2 ++ "." ++ suffix) = suffix := by
  have hrest : ∀ ch ∈ c.splitAt.2.data, (ch != '.') = true := fun ch h => by
    have hmem : ch ∈ c.str.data := List.mem_of_mem_drop (by simpa [Checksum.splitAt] using h)
    have hdot := @Checksum.not_mem c '.' (by decide)
    exact bne_iff_ne.mpr (by rintro rfl; exact hdot hmem)
  unfold objectSuffix
  rw [String.data_append, String.data_append, List.append_assoc,
    List.dropWhile_append_of_pos hrest]
  simp

theorem isFormatPath_objectsPath (c : Checksum) (suffix : String) :
    isFormatPath (objectsPath c suffix) = decide (suffix ∈ xattrsSuffixes) := by
  simp [isFormatPath, objectsPath_eq, ostreeDir, sysroot, Utf8Path.fileName,
    objectSuffix_objectName]

@[simp] theorem isFormatPath_objectPath (objtype : ObjectType) (checksum : Checksum) :
    isFormatPath (objectPath objtype checksum) = false := by
  rw [objectPath, isFormatPath_objectsPath]
  cases objtype <;> decide

@[simp] theorem isFormatPath_xattrsBlobPath (options : ExportOptions) (xattrsChecksum : Checksum) :
    isFormatPath (xattrsBlobPath options xattrsChecksum) = true := by
  unfold xattrsBlobPath
  split
  · simp [isFormatPath, v0XattrsPath, ostreeDir]
  · rw [v1XattrsObjectPath, isFormatPath_objectsPath]; decide

@[simp] theorem isFormatPath_xattrsLinkPath (options : ExportOptions) (checksum : Checksum) :
    isFormatPath (xattrsLinkPath options checksum) = true := by
  unfold xattrsLinkPath
  split
  · rw [v0XattrsObjectPath, isFormatPath_objectsPath]; decide
  · rw [v1XattrsLinkObjectPath, isFormatPath_objectsPath]; decide

@[simp] theorem isFormatPath_xattrsDir :
    isFormatPath (ostreeDir ++ [.normal "repo", .normal "xattrs"]) = true := by
  simp [isFormatPath]

theorem isFormatPath_of_walkPath {p : Utf8PathBuf} (hp : WalkPath p) : isFormatPath p = false := by
  obtain ⟨t, rfl | rfl, -⟩ := hp <;> simp [isFormatPath, ostreeDir]

theorem isFormatPath_of_configPath {options : ExportOptions} {p : Utf8PathBuf}
    (h : configPath options = some p) : isFormatPath p = true := by
  unfold configPath at h; split_ifs at h <;> cases h <;> simp [isFormatPath]

/-- Format 0 has one more directory than format 1: `repo/xattrs`. -/
theorem repoStructureDirs_zero :
    repoStructureDirs ⟨0⟩ = repoStructureDirs ⟨1⟩ ++ [ostreeDir ++ [.normal "repo", .normal "xattrs"]] := by
  simp [repoStructureDirs]

theorem isFormatPath_of_mem_repoStructureDirs {p : Utf8PathBuf} (h : p ∈ repoStructureDirs ⟨1⟩) :
    isFormatPath p = false := by
  simp only [repoStructureDirs, List.mem_append, List.mem_map] at h
  rcases h with (((h | ⟨d, -, rfl⟩) | ⟨d, hd, rfl⟩) | ⟨d, hd, rfl⟩) | h
  · revert h p; decide
  · simp [isFormatPath, ostreeDir]
  · revert hd d; decide
  · revert hd d; decide
  · simp at h

/-! ## Modes -/

@[simp] theorem dirEntry_clearFileType (path : Utf8PathBuf) (meta : DirMetaParsed) :
    (dirEntry ⟨0⟩ path meta).clearFileType = dirEntry ⟨1⟩ path meta := rfl

@[simp] theorem defaultDirEntry_clearFileType (path : Utf8PathBuf) :
    (defaultDirEntry path).clearFileType = defaultDirEntry path := by
  simp only [defaultDirEntry, Entry.clearFileType, Header.clearFileType,
    show (0o755 : UInt32) &&& ~~~S_IFMT = 0o755 by decide]

@[simp] theorem defaultDataEntry_clearFileType (path : Utf8PathBuf) (data : Bytes) :
    (defaultDataEntry path data).clearFileType = defaultDataEntry path data := by
  simp only [defaultDataEntry, Entry.clearFileType, Header.clearFileType,
    show (0o644 : UInt32) &&& ~~~S_IFMT = 0o644 by decide]

theorem setLinkName_clearFileType (h : Header) (target : String) :
    h.clearFileType.setLinkName target = (h.setLinkName target).map Header.clearFileType :=
  setLinkName_mapMode (· &&& ~~~S_IFMT) h target

theorem symlinkHeader_clearFileType (h : Header) (target : String) :
    symlinkHeader h.clearFileType target = (symlinkHeader h target).map Header.clearFileType := by
  unfold symlinkHeader
  split
  · exact setLinkNameLiteral_mapMode (· &&& ~~~S_IFMT) h target
  · exact prepareHeaderLink_mapMode (· &&& ~~~S_IFMT) h target

/-- The object entry of a file in format 1 is that of format 0 with its mode's file-type bits
cleared, and the two fail alike. -/
theorem contentEntry_clearFileType (checksum : Checksum) (file : LoadedFile) (meta : FileInfo) :
    contentEntry ⟨1⟩ checksum file meta = (contentEntry ⟨0⟩ checksum file meta).map Entry.clearFileType := by
  unfold contentEntry
  split
  · split <;> rfl
  · split
    · split
      · rfl
      · next target _ =>
        rw [show { contentHeader ⟨1⟩ meta with entryType := .symlink, size := 0 } =
            Header.clearFileType { contentHeader ⟨0⟩ meta with entryType := .symlink, size := 0 }
            from rfl, symlinkHeader_clearFileType]
        cases symlinkHeader { contentHeader ⟨0⟩ meta with entryType := .symlink, size := 0 } target <;> rfl
    · rfl

/-! ## Two writers in step -/

/-- Two writers, one per format version, that have written the same archive so far up to the
entries the format version decides, and hold the same membership sets but for the xattrs set. -/
structure FormatsAgree (s₀ s₁ : OstreeTarWriter) : Prop where
  out : (withoutFormatEntries s₀.out).map Entry.clearFileType = withoutFormatEntries s₁.out
  wroteInitdirs : s₀.wroteInitdirs = s₁.wroteInitdirs
  wroteDirtree : s₀.wroteDirtree = s₁.wroteDirtree
  wroteDirmeta : s₀.wroteDirmeta = s₁.wroteDirmeta
  wroteContent : s₀.wroteContent = s₁.wroteContent
  inv₀ : WriterInv s₀
  inv₁ : WriterInv s₁

namespace FormatsAgree

variable {s₀ s₁ : OstreeTarWriter}

theorem new : FormatsAgree OstreeTarWriter.new OstreeTarWriter.new :=
  ⟨rfl, rfl, rfl, rfl, rfl, fun _ h => absurd h (List.not_mem_nil _),
    fun _ h => absurd h (List.not_mem_nil _)⟩

/-- Entries appended on both sides that agree once normalized. -/
theorem append (h : FormatsAgree s₀ s₁) (l₀ l₁ : List Entry)
    (hl : (withoutFormatEntries l₀).map Entry.clearFileType = withoutFormatEntries l₁) :
    FormatsAgree { s₀ with out := s₀.out ++ l₀ } { s₁ with out := s₁.out ++ l₁ } :=
  ⟨by simp only [withoutFormatEntries_append, List.map_append, h.out, hl], h.wroteInitdirs,
    h.wroteDirtree, h.wroteDirmeta, h.wroteContent, h.inv₀, h.inv₁⟩

/-- One entry on both sides, at a path the format does not decide: format 1's is format 0's
with the file-type bits cleared. -/
theorem appendEntry (h : FormatsAgree s₀ s₁) (e : Entry) (he : isFormatPath e.path = false) :
    FormatsAgree { s₀ with out := s₀.out ++ [e] } { s₁ with out := s₁.out ++ [e.clearFileType] } :=
  h.append _ _ (by simp [withoutFormatEntries, he])

theorem objectWritten (h : FormatsAgree s₀ s₁) {set : WroteSet}
    (hset : set = .dirtree ∨ set = .dirmeta) (objtype : ObjectType) (checksum : Checksum)
    (v : Bytes) :
    FormatsAgree (s₀.objectWritten set objtype checksum v) (s₁.objectWritten set objtype checksum v) := by
  have happ := h.appendEntry (defaultDataEntry (objectPath objtype checksum) v) (by simp)
  rw [defaultDataEntry_clearFileType] at happ
  unfold OstreeTarWriter.objectWritten
  rcases hset with rfl | rfl
  · simp only [OstreeTarWriter.wrote_dirtree, OstreeTarWriter.setWrote_dirtree, h.wroteDirtree]
    split
    · exact h
    · exact { happ with wroteDirtree := rfl }
  · simp only [OstreeTarWriter.wrote_dirmeta, OstreeTarWriter.setWrote_dirmeta, h.wroteDirmeta]
    split
    · exact h
    · exact { happ with wroteDirmeta := rfl }

theorem withoutFormatEntries_xattrsStep (options : ExportOptions) (sha256 : Bytes → Checksum)
    (s : OstreeTarWriter) (checksum : Checksum) (xattrs : Bytes) :
    withoutFormatEntries (xattrsStep options sha256 s checksum xattrs).out =
      withoutFormatEntries s.out := by
  simp only [xattrsStep, xattrsWritten]
  split_ifs <;> simp [withoutFormatEntries]

/-- Exporting a file's xattrs in each format writes only entries the format decides. -/
theorem xattrsStep (h : FormatsAgree s₀ s₁) (sha256 : Bytes → Checksum) (checksum : Checksum)
    (xattrs : Bytes) :
    FormatsAgree (OstreeTar.xattrsStep ⟨0⟩ sha256 s₀ checksum xattrs)
      (OstreeTar.xattrsStep ⟨1⟩ sha256 s₁ checksum xattrs) :=
  ⟨by simp only [withoutFormatEntries_xattrsStep, h.out], by simp [h.wroteInitdirs],
    by simp [h.wroteDirtree], by simp [h.wroteDirmeta], by simp [h.wroteContent],
    h.inv₀.xattrsStep _ _ _ _, h.inv₁.xattrsStep _ _ _ _⟩

theorem appendEntry_same (h : FormatsAgree s₀ s₁) (e : Entry) (he : isFormatPath e.path = false)
    (hclear : e.clearFileType = e) :
    FormatsAgree { s₀ with out := s₀.out ++ [e] } { s₁ with out := s₁.out ++ [e] } := by
  have happ := h.appendEntry e he
  rwa [hclear] at happ

end FormatsAgree

/-! ## The steps in lockstep -/

/-- `anyhow`'s context changes only the message of an error. -/
theorem Agree.context {α₀ α₁ : Type} {Q : α₀ → α₁ → OstreeTarWriter → OstreeTarWriter → Prop}
    {x₀ : WriterM α₀} {x₁ : WriterM α₁} {s₀ s₁ : OstreeTarWriter} (msg : String)
    (h : Agree Q (x₀ s₀) (x₁ s₁)) : Agree Q (context msg x₀ s₀) (context msg x₁ s₁) := by
  unfold OstreeTar.context
  revert h
  cases x₀ s₀ <;> cases x₁ s₁ <;> exact id

theorem configPath_zero : configPath ⟨0⟩ = some [.normal sysroot, .normal "config"] := rfl

theorem configPath_one : configPath ⟨1⟩ = some (ostreeDir ++ [.normal "repo", .normal "config"]) :=
  rfl

section Lockstep

variable (repo : Repo) (sha256 : Bytes → Checksum) {s₀ s₁ : OstreeTarWriter}

theorem appendDir_formats {path : Utf8PathBuf} (meta : DirMetaParsed)
    (hp : isFormatPath path = false) (h : FormatsAgree s₀ s₁) :
    Agree (fun _ _ => FormatsAgree) (appendDir ⟨0⟩ path meta s₀) (appendDir ⟨1⟩ path meta s₁) := by
  rw [appendDir_run, appendDir_run]
  exact h.appendEntry _ hp

theorem append_formats (objtype : ObjectType) (checksum : Checksum) (v : Bytes)
    (h : FormatsAgree s₀ s₁) :
    Agree (fun _ _ => FormatsAgree) (append objtype checksum v s₀) (append objtype checksum v s₁) := by
  cases objtype with
  | file => rw [append_run, append_run]; trivial
  | dirTree =>
    rw [append_dirTree_run, append_dirTree_run]; exact h.objectWritten (.inl rfl) _ _ _
  | dirMeta =>
    rw [append_dirMeta_run, append_dirMeta_run]; exact h.objectWritten (.inr rfl) _ _ _
  | commit =>
    rw [append_commit_run _ _ (.inl rfl), append_commit_run _ _ (.inl rfl)]
    exact h.appendEntry_same _ (by simp) (defaultDataEntry_clearFileType _ _)
  | commitMeta =>
    rw [append_commit_run _ _ (.inr rfl), append_commit_run _ _ (.inr rfl)]
    exact h.appendEntry_same _ (by simp) (defaultDataEntry_clearFileType _ _)

/-- The scaffolding: format 0's extra `repo/xattrs` directory and the configuration, in either
place, are entries the format decides. -/
theorem writeRepoStructure_formats (h : FormatsAgree s₀ s₁) :
    Agree (fun _ _ => FormatsAgree) (writeRepoStructure ⟨0⟩ s₀) (writeRepoStructure ⟨1⟩ s₁) := by
  rw [writeRepoStructure_run, writeRepoStructure_run, ← h.wroteInitdirs]
  split
  · exact h
  · have hdirs : withoutFormatEntries ((repoStructureDirs ⟨1⟩).map defaultDirEntry) =
        (repoStructureDirs ⟨1⟩).map defaultDirEntry := List.filter_eq_self.mpr fun e he => by
      obtain ⟨p, hp, rfl⟩ := List.mem_map.mp he
      simp [isFormatPath_of_mem_repoStructureDirs hp]
    have happ := h.append ((repoStructureDirs ⟨0⟩).map defaultDirEntry ++
      [defaultDataEntry [.normal sysroot, .normal "config"] repoConfig.toUTF8.data.toList])
      ((repoStructureDirs ⟨1⟩).map defaultDirEntry ++
      [defaultDataEntry (ostreeDir ++ [.normal "repo", .normal "config"]) repoConfig.toUTF8.data.toList])
      (by simp [repoStructureDirs_zero, hdirs, isFormatPath_of_configPath configPath_zero,
        isFormatPath_of_configPath configPath_one, List.map_map, Function.comp_def])
    rw [configPath_zero, configPath_one]
    simp only [List.append_assoc]
    exact { happ with wroteInitdirs := rfl }

/-- A file object: the same path and, but for the file-type bits, the same header for the links
to it, and the same entries but for the xattrs records. -/
theorem appendContent_formats (h : FormatsAgree s₀ s₁) (checksum : Checksum) :
    Agree (fun r₀ r₁ t₀ t₁ => r₁ = (r₀.1, r₀.2.clearFileType) ∧ FormatsAgree t₀ t₁)
      (appendContent repo ⟨0⟩ sha256 checksum s₀) (appendContent repo ⟨1⟩ sha256 checksum s₁) := by
  rw [appendContent_run_of_inv repo ⟨0⟩ sha256 s₀ (.inl rfl) h.inv₀,
    appendContent_run_of_inv repo ⟨1⟩ sha256 s₁ (.inr rfl) h.inv₁, ← h.wroteContent]
  rcases loadContent repo checksum with e | ⟨file, meta, xattrs⟩
  · trivial
  dsimp only
  split
  · exact ⟨rfl, h⟩
  rw [contentEntry_clearFileType]
  rcases hentry : contentEntry ⟨0⟩ checksum file meta with e | e
  · trivial
  · exact ⟨rfl, (h.xattrsStep sha256 checksum xattrs).appendEntry e
      (by simp [contentEntry_path hentry])⟩

theorem appendFileEntry_formats {dirpath : Utf8PathBuf} (hp : WalkPath dirpath)
    (file : String × Checksum) (h : FormatsAgree s₀ s₁) :
    Agree (fun _ _ => FormatsAgree) (appendFileEntry repo ⟨0⟩ sha256 dirpath file s₀)
      (appendFileEntry repo ⟨1⟩ sha256 dirpath file s₁) := by
  obtain ⟨name, csum⟩ := file
  unfold appendFileEntry
  refine Agree.bind (appendContent_formats repo sha256 h csum) ?_
  rintro ⟨objpath, hd⟩ _ t₀ t₁ ⟨rfl, ht⟩
  refine Agree.bind
    (Agree.liftExcept_map (setLinkName_clearFileType { hd with entryType := .link } _) ht) ?_
  rintro hl _ t₀ t₁ ⟨rfl, ht⟩
  exact ht.appendEntry _ (isFormatPath_of_walkPath (hp.join name).mapPath)

theorem appendDirEntry_formats {rec₀ rec₁ : Utf8PathBuf → Checksum → WriterM Unit}
    (hrec : ∀ p c t₀ t₁, WalkPath p → FormatsAgree t₀ t₁ →
      Agree (fun _ _ => FormatsAgree) (rec₀ p c t₀) (rec₁ p c t₁))
    {dirpath : Utf8PathBuf} (hp : WalkPath dirpath) (isRoot : Bool)
    (item : String × Checksum × Checksum) (h : FormatsAgree s₀ s₁) :
    Agree (fun _ _ => FormatsAgree) (appendDirEntry repo ⟨0⟩ rec₀ dirpath isRoot item s₀)
      (appendDirEntry repo ⟨1⟩ rec₁ dirpath isRoot item s₁) := by
  obtain ⟨name, contents, metaCsum⟩ := item
  rw [appendDirEntry_run, appendDirEntry_run]
  rcases repo.loadDirMeta metaCsum with e | metaV
  · trivial
  have hw := h.objectWritten (.inr rfl) .dirMeta metaCsum metaV.bytes
  dsimp only
  split
  · exact hw
  · have hsub := (hp.join name).mapPath
    exact hrec _ _ _ _ hsub (hw.appendEntry _ (isFormatPath_of_walkPath hsub))

/-- The tree, by induction on the fuel: each subtree is walked in lockstep. -/
theorem appendDirtree_formats : ∀ (fuel : Nat) (dirpath : Utf8PathBuf) (checksum : Checksum)
    (isRoot : Bool) {s₀ s₁ : OstreeTarWriter}, WalkPath dirpath → FormatsAgree s₀ s₁ →
    Agree (fun _ _ => FormatsAgree) (appendDirtree repo ⟨0⟩ sha256 fuel dirpath checksum isRoot s₀)
      (appendDirtree repo ⟨1⟩ sha256 fuel dirpath checksum isRoot s₁)
  | 0, _, _, _, _, _, _, _ => trivial
  | fuel + 1, dirpath, checksum, isRoot, _, _, hp, h => by
    rw [appendDirtree_succ, appendDirtree_succ]
    rcases repo.loadDirTree checksum with e | v
    · trivial
    refine Agree.bind (Agree.forM FormatsAgree v.files _ _
      (fun file _ _ _ ht => appendFileEntry_formats repo sha256 hp file ht) _ _
      (h.objectWritten (.inl rfl) _ _ _)) fun _ _ _ _ ht => ?_
    exact Agree.forM FormatsAgree v.dirs _ _ (fun item _ _ _ ht =>
      appendDirEntry_formats repo (fun p c _ _ hp ht => appendDirtree_formats fuel p c false hp ht)
        hp isRoot item ht) _ _ ht

theorem writeCommit_formats (fuel : Nat) (checksum : Checksum) (h : FormatsAgree s₀ s₁) :
    Agree (fun _ _ => FormatsAgree) (writeCommit repo ⟨0⟩ sha256 fuel checksum s₀)
      (writeCommit repo ⟨1⟩ sha256 fuel checksum s₁) := by
  have hroot : WalkPath (Utf8Path.new "./") := new_curDir ▸ walkPath_curDir.mapPath
  unfold writeCommit
  refine Agree.bind (Agree.liftExcept_same h) ?_
  rintro commitV _ t₀ t₁ ⟨rfl, ht⟩
  refine Agree.bind (Agree.liftExcept_same ht) ?_
  rintro metadataV _ t₀ t₁ ⟨rfl, ht⟩
  refine Agree.bind (appendDir_formats _ (isFormatPath_of_walkPath hroot) ht) ?_
  rintro - - t₀ t₁ ht
  refine Agree.bind (writeRepoStructure_formats ht) ?_
  rintro - - t₀ t₁ ht
  refine Agree.bind (append_formats _ _ _ ht) ?_
  rintro - - t₀ t₁ ht
  refine Agree.bind (Agree.liftExcept_same ht) ?_
  rintro commitmeta _ t₀ t₁ ⟨rfl, ht⟩
  have htail : ∀ t₀ t₁, FormatsAgree t₀ t₁ → Agree (fun _ _ => FormatsAgree)
      ((append .dirMeta commitV.metadata metadataV.bytes >>= fun _ =>
        appendDirtree repo ⟨0⟩ sha256 fuel (Utf8Path.new "./") commitV.contents true) t₀)
      ((append .dirMeta commitV.metadata metadataV.bytes >>= fun _ =>
        appendDirtree repo ⟨1⟩ sha256 fuel (Utf8Path.new "./") commitV.contents true) t₁) :=
    fun t₀ t₁ ht => Agree.bind (append_formats _ _ _ ht) fun _ _ _ _ ht =>
      appendDirtree_formats repo sha256 fuel _ _ true hroot ht
  cases commitmeta with
  | none => exact htail t₀ t₁ ht
  | some m => exact Agree.bind (append_formats _ _ _ ht) fun _ _ _ _ ht => htail _ _ ht

end Lockstep

/-- The format version decides nothing but the configuration's place, the xattrs records and the
file-type bits of modes: export in format 0 succeeds exactly when export in format 1 does, and
then the two archives, less the configuration, the `repo/xattrs` directory and every xattrs blob
and link, are the same once the format-0 modes are cleared of their file-type bits. -/
theorem exportCommit_formats_agree (repo : Repo) (sha256 : Bytes → Checksum) (fuel : Nat)
    (rev : String) :
    Agree (fun _ _ w₀ w₁ =>
        (withoutFormatEntries w₀.out).map Entry.clearFileType = withoutFormatEntries w₁.out)
      (exportCommit repo sha256 fuel rev (some ⟨0⟩)) (exportCommit repo sha256 fuel rev (some ⟨1⟩)) := by
  unfold exportCommit
  refine (Agree.context _ (Agree.bind (Agree.liftExcept_same FormatsAgree.new) ?_)).mono
    fun _ _ _ _ (h : FormatsAgree _ _) => h.out
  rintro commit _ t₀ t₁ ⟨rfl, ht⟩
  exact writeCommit_formats repo sha256 fuel commit ht

end OstreeTar
