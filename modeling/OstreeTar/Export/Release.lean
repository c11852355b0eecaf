import OstreeTar.Export.Steps

/-!
# The assertions hold

The writer checks three of its insertions with `debug_assert!(inserted)`: into `wrote_dirtree`
and `wrote_dirmeta` in `append`, into `wrote_content` in `append_content`, and into
`wrote_xattrs` in `append_xattrs`.  A release build compiles the checks out.  The functions below
are the writer as a release build runs it, each the function of the same name with its
`debug_assert!` left out, and the export computes the same with or without them.

The checks in `append` and `append_content` follow a test of the set they insert into.  The one in
`append_xattrs` does not: the set is tested for the digest of the xattrs, and the file's checksum
is inserted.  It holds because `append_content` calls `append_xattrs` once per file, right after
adding the file to `wrote_content`, and `wrote_xattrs` only ever holds files of `wrote_content`
(`WriterInv`).
-/

namespace OstreeTar

namespace Release

section Writer

variable (repo : Repo) (options : ExportOptions) (sha256 : Bytes → Checksum)

/-- `append`, without its `debug_assert!`. -/
def append (objtype : ObjectType) (checksum : Checksum) (v : Bytes) : WriterM Unit := do
  let write := context ("Writing object " ++ checksum.str)
    (appendDefaultData (objectPath objtype checksum) v)
  match ← liftExcept (appendSet objtype) with
  | some set =>
    if checksum ∈ (← get).wrote set then pure () else
    let _ ← insertWrote set checksum
    write
  | none => write

/-- `append_xattrs`, without its `debug_assert!`. -/
def appendXattrs (checksum : Checksum) (xattrs : Bytes) : WriterM Bool :=
  context "Writing xattrs" do
    if xattrs.isEmpty && options.formatVersion == 0 then pure false else
    let xattrsChecksum := sha256 xattrs
    match xattrsPaths options.formatVersion xattrsChecksum checksum with
    | none => throw ("Unknown format version '" ++ toString options.formatVersion ++ "'")
    | some (path, linkPath) =>
      if xattrsChecksum ∉ (← get).wroteXattrs then
        let _ ← insertWrote .xattrs checksum
        appendDefaultData path xattrs
      appendDefaultHardlink linkPath path
      pure true

/-- `append_content`, without its `debug_assert!`. -/
def appendContent (checksum : Checksum) : WriterM (Utf8PathBuf × Header) := do
  let path := objectPath .file checksum
  let file ← liftExcept (repo.loadFile checksum)
  let meta ← match file.meta with
    | some meta => pure meta
    | none => throw ("Missing metadata for object " ++ checksum.str)
  let xattrs ← match file.xattrs with
    | some xattrs => pure xattrs
    | none => throw ("Missing xattrs for object " ++ checksum.str)
  let h := { Header.newGnu with uid := meta.uid.toNat, gid := meta.gid.toNat,
                                 mode := filterMode options meta.mode }
  let targetHeader := { h with size := 0 }
  if checksum ∉ (← get).wroteContent then
    let _ ← insertWrote .content checksum
    -- The xattrs objects need to be exported before the regular object they refer to.
    let _ ← appendXattrs options sha256 checksum xattrs
    match file.instream with
    | some instream =>
      ensure (meta.fileType == .regular) "meta.file_type() == gio::FileType::Regular"
      context ("Writing regfile " ++ checksum.str)
        (appendData { h with entryType := .regular, size := meta.size } path instream)
    | none =>
      ensure (meta.fileType == .symbolicLink) "meta.file_type() == gio::FileType::SymbolicLink"
      let target ← match meta.symlinkTarget with
        | some target => pure target
        | none => throw "Missing symlink target"
      let h := { h with entryType := .symlink, size := 0 }
      context ("Writing content symlink: " ++ checksum.str) do
        if symlinkIsDenormal target then
          let h ← liftExcept (h.setLinkNameLiteral target)
          appendData h path []
        else appendLink h path target
  pure (path, targetHeader)

/-- The loop over files of `append_dirtree`, calling the `append_content` above. -/
def appendFileEntry (dirpath : Utf8PathBuf) (file : String × Checksum) : WriterM Unit := do
  let (name, csum) := file
  let (objpath, h) ← appendContent repo options sha256 csum
  let h ← liftExcept ({ h with entryType := .link }.setLinkName (Utf8Path.render objpath))
  appendData h (mapPath (Utf8Path.join dirpath (Utf8Path.new name))) []

/-- The loop over directories of `append_dirtree`, calling the `append` above. -/
def appendDirEntry (recurse : Utf8PathBuf → Checksum → WriterM Unit) (dirpath : Utf8PathBuf)
    (isRoot : Bool) (item : String × Checksum × Checksum) : WriterM Unit := do
  let (name, contentsCsum, metaCsum) := item
  let metaV ← liftExcept (repo.loadDirMeta metaCsum)
  append .dirMeta metaCsum metaV.bytes
  -- Special hack because tar stream for containers can't have duplicates.
  if isRoot && name == sysroot then pure () else
  let subpath := mapPath (Utf8Path.join dirpath (Utf8Path.new name))
  appendDir options subpath metaV.parsed
  recurse subpath contentsCsum

/-- `append_dirtree` of a release build. -/
def appendDirtree : Nat → Utf8PathBuf → Checksum → Bool → WriterM Unit
  | 0, _, _, _ => throw "recursion depth exhausted"
  | fuel + 1, dirpath, checksum, isRoot => do
    let v ← liftExcept (repo.loadDirTree checksum)
    append .dirTree checksum v.bytes
    v.files.forM (appendFileEntry repo options sha256 dirpath)
    v.dirs.forM (appendDirEntry repo options (fun p c => appendDirtree fuel p c false) dirpath isRoot)

/-- `write_commit` of a release build. -/
def writeCommit (fuel : Nat) (checksum : Checksum) : WriterM Unit := do
  let commitV ← liftExcept (repo.loadCommit checksum)
  let metadataV ← liftExcept (repo.loadDirMeta commitV.metadata)
  -- The root directory is written before any objects.
  appendDir options (Utf8Path.new "./") metadataV.parsed
  writeRepoStructure options
  append .commit checksum commitV.bytes
  match ← liftExcept (repo.readCommitDetachedMetadata checksum) with
  | some commitmeta => append .commitMeta checksum commitmeta
  | none => pure ()
  append .dirMeta commitV.metadata metadataV.bytes
  appendDirtree repo options sha256 fuel (Utf8Path.new "./") commitV.contents true

end Writer

/-- `export_commit` of a release build. -/
def exportCommit (repo : Repo) (sha256 : Bytes → Checksum) (fuel : Nat) (rev : String)
    (options : Option ExportOptions) : EStateM.Result String OstreeTarWriter Unit :=
  context "Exporting commit" (do
    let commit ← liftExcept (repo.requireRev rev)
    writeCommit repo (options.getD {}) sha256 fuel commit) OstreeTarWriter.new

end Release

/-! ## Two builds in lockstep -/

section Lockstep

variable {α β : Type}

/-- An action keeps the writer's invariant. -/
def KeepsInv (x : WriterM α) : Prop := ∀ s a s', WriterInv s → x s = .ok a s' → WriterInv s'

/-- Two actions run alike from every state with the writer's invariant, and the first keeps it. -/
def AlikeOnInv (x y : WriterM α) : Prop := KeepsInv x ∧ ∀ s, WriterInv s → x s = y s

theorem KeepsInv.bind {x : WriterM α} {f : α → WriterM β} (hx : KeepsInv x)
    (hf : ∀ a, KeepsInv (f a)) : KeepsInv (x >>= f) := fun s b s' hs h => by
  obtain ⟨a, s₁, h₁, h₂⟩ := run_bind_eq_ok.mp h
  exact hf a s₁ b s' (hx s a s₁ hs h₁) h₂

theorem keepsInv_pure (a : α) : KeepsInv (pure a : WriterM α) := fun _ _ _ hs h => by
  cases h; exact hs

theorem keepsInv_liftExcept (x : Except String α) : KeepsInv (liftExcept x : WriterM α) :=
  fun s a s' hs h => by cases x <;> cases h; exact hs

theorem AlikeOnInv.refl {x : WriterM α} (h : KeepsInv x) : AlikeOnInv x x := ⟨h, fun _ _ => rfl⟩

theorem AlikeOnInv.bind {x y : WriterM α} {f g : α → WriterM β} (hxy : AlikeOnInv x y)
    (hfg : ∀ a, AlikeOnInv (f a) (g a)) : AlikeOnInv (x >>= f) (y >>= g) := by
  refine ⟨hxy.1.bind fun a => (hfg a).1, fun s hs => ?_⟩
  rw [run_bind, run_bind, ← hxy.2 s hs]
  cases hx : x s with
  | ok a s₁ => exact (hfg a).2 s₁ (hxy.1 s a s₁ hs hx)
  | error e s₁ => rfl

theorem AlikeOnInv.forM {γ : Type} {l : List γ} {f g : γ → WriterM PUnit}
    (h : ∀ a ∈ l, AlikeOnInv (f a) (g a)) : AlikeOnInv (l.forM f) (l.forM g) := by
  induction l with
  | nil => exact .refl (keepsInv_pure _)
  | cons a l ih =>
    simp only [List.forM_cons']
    exact (h a (List.mem_cons_self _ _)).bind fun _ => ih fun b hb => h b (List.mem_cons_of_mem _ hb)

end Lockstep

section Builds

variable (repo : Repo) (options : ExportOptions) (sha256 : Bytes → Checksum)

theorem keepsInv_appendData (h : Header) (path : Utf8PathBuf) (data : Bytes) :
    KeepsInv (appendData h path data) := fun _ _ _ hs h => by
  rw [appendData_run] at h; cases h; exact hs

theorem keepsInv_appendDir (path : Utf8PathBuf) (meta : DirMetaParsed) :
    KeepsInv (appendDir options path meta) := fun _ _ _ hs h => by
  rw [appendDir_run] at h; cases h; exact hs

theorem keepsInv_append (objtype : ObjectType) (checksum : Checksum) (v : Bytes) :
    KeepsInv (append objtype checksum v) := fun s _ _ hs h => by
  rw [append_run] at h
  cases objtype <;> simp only [appendSet] at h <;> (try split_ifs at h) <;> cases h <;> exact hs

theorem keepsInv_writeRepoStructure : KeepsInv (writeRepoStructure options) := fun s _ _ hs h => by
  rw [writeRepoStructure_run] at h
  split_ifs at h <;> (try split at h) <;> cases h <;> exact hs

/-- The `debug_assert!` of `append` follows the test of the set it inserts into. -/
theorem append_eq_release (objtype : ObjectType) (checksum : Checksum) (v : Bytes) :
    append objtype checksum v = Release.append objtype checksum v := by
  funext s
  cases objtype <;>
    by_cases h : checksum ∈ s.wroteDirtree <;> by_cases h' : checksum ∈ s.wroteDirmeta <;>
    simp [append, Release.append, appendSet, h, h', insertWrote, debugAssert, context, run_bind]

/-- The `debug_assert!` of `append_xattrs` holds for a file not in the xattrs set. -/
theorem appendXattrs_eq_release (s : OstreeTarWriter) (checksum : Checksum) (xattrs : Bytes)
    (hc : checksum ∉ s.wroteXattrs) :
    appendXattrs options sha256 checksum xattrs s =
      Release.appendXattrs options sha256 checksum xattrs s := by
  simp only [appendXattrs, Release.appendXattrs, context]
  congr 1
  split
  · rfl
  · rcases xattrsPaths options.formatVersion (sha256 xattrs) checksum with _ | ⟨path, linkPath⟩
    · rfl
    · by_cases hw : sha256 xattrs ∈ s.wroteXattrs <;>
        simp [run_bind, insertWrote, debugAssert, hc, hw]

/-- `append_xattrs`, for a file not in the xattrs set, adds at most that file to it. -/
theorem appendXattrs_sets {s s' : OstreeTarWriter} {checksum : Checksum} {xattrs : Bytes} {b : Bool}
    (hc : checksum ∉ s.wroteXattrs) (h : appendXattrs options sha256 checksum xattrs s = .ok b s') :
    s'.wroteContent = s.wroteContent ∧ ∀ d ∈ s'.wroteXattrs, d = checksum ∨ d ∈ s.wroteXattrs := by
  by_cases hfmt : options.formatVersion = 0 ∨ options.formatVersion = 1
  · rw [appendXattrs_run options sha256 s hfmt checksum xattrs hc] at h
    split at h <;> cases h
    · exact ⟨rfl, fun d hd => .inr hd⟩
    · exact ⟨xattrsWritten_wroteContent .., fun d hd => mem_xattrsWritten_wroteXattrs options sha256 s hd⟩
  · push_neg at hfmt
    simp [appendXattrs, context, xattrsPaths, hfmt.1, hfmt.2] at h

theorem keepsInv_appendContent (checksum : Checksum) :
    KeepsInv (appendContent repo options sha256 checksum) := fun s r s' hs h => by
  rw [appendContent_run] at h
  split at h
  · cases h
  split at h
  · cases h; exact hs
  rename_i hc
  have hc' : checksum ∉ ({ s with wroteContent := s.wroteContent.insert checksum } : OstreeTarWriter).wroteXattrs :=
    fun h => hc (hs _ h)
  split at h
  · cases h
  rename_i s₁ hx
  obtain ⟨hcont, hxs⟩ := appendXattrs_sets options sha256 hc' hx
  have hs₁ : WriterInv s₁ := fun d hd => by
    rw [hcont, List.mem_insert_iff]
    exact (hxs d hd).imp_right (hs d)
  split at h <;> cases h
  exact hs₁

theorem appendContent_alike (checksum : Checksum) :
    AlikeOnInv (appendContent repo options sha256 checksum)
      (Release.appendContent repo options sha256 checksum) := by
  refine ⟨keepsInv_appendContent repo options sha256 checksum, fun s hinv => ?_⟩
  unfold appendContent Release.appendContent
  cases hload : repo.loadFile checksum with
  | error e => rfl
  | ok file =>
    rcases hm : file.meta with _ | meta
    · simp [run_bind, hm]
    rcases hx : file.xattrs with _ | xattrs
    · simp [run_bind, hm, hx]
    simp only [hm, hx, run_bind, run_liftExcept_ok]
    by_cases hc : checksum ∈ s.wroteContent
    · simp [hc]
    simp only [hc, insertWrote, debugAssert, run_bind, run_modifyGet, run_get, if_false,
      not_false_eq_true, decide_False, Bool.not_false, ↓reduceIte, run_pure,
      OstreeTarWriter.wrote_content, OstreeTarWriter.setWrote_content]
    exact appendXattrs_eq_release options sha256 { s with wroteContent := s.wroteContent.insert checksum }
      checksum xattrs (fun h => hc (hinv _ h)) ▸ rfl

theorem appendFileEntry_alike (dirpath : Utf8PathBuf) (file : String × Checksum) :
    AlikeOnInv (appendFileEntry repo options sha256 dirpath file)
      (Release.appendFileEntry repo options sha256 dirpath file) := by
  obtain ⟨name, csum⟩ := file
  simp only [appendFileEntry, Release.appendFileEntry]
  exact (appendContent_alike repo options sha256 csum).bind fun ⟨objpath, h⟩ =>
    .refl ((keepsInv_liftExcept _).bind fun _ => keepsInv_appendData _ _ _)

theorem appendDirEntry_alike {recurse recurse' : Utf8PathBuf → Checksum → WriterM Unit}
    (hrec : ∀ p c, AlikeOnInv (recurse p c) (recurse' p c)) (dirpath : Utf8PathBuf) (isRoot : Bool)
    (item : String × Checksum × Checksum) :
    AlikeOnInv (appendDirEntry repo options recurse dirpath isRoot item)
      (Release.appendDirEntry repo options recurse' dirpath isRoot item) := by
  obtain ⟨name, contents, metaCsum⟩ := item
  simp only [appendDirEntry, Release.appendDirEntry, ← append_eq_release]
  refine (AlikeOnInv.refl (keepsInv_liftExcept _)).bind fun metaV => ?_
  refine (AlikeOnInv.refl (keepsInv_append _ _ _)).bind fun _ => ?_
  split
  · exact .refl (keepsInv_pure _)
  · exact (AlikeOnInv.refl (keepsInv_appendDir options _ _)).bind fun _ => hrec _ _

theorem appendDirtree_alike : ∀ (fuel : Nat) (dirpath : Utf8PathBuf) (checksum : Checksum)
    (isRoot : Bool), AlikeOnInv (appendDirtree repo options sha256 fuel dirpath checksum isRoot)
      (Release.appendDirtree repo options sha256 fuel dirpath checksum isRoot)
  | 0, _, _, _ => .refl fun _ _ _ _ h => nomatch h
  | fuel + 1, dirpath, checksum, isRoot => by
    simp only [appendDirtree, Release.appendDirtree, ← append_eq_release]
    refine (AlikeOnInv.refl (keepsInv_liftExcept _)).bind fun v => ?_
    refine (AlikeOnInv.refl (keepsInv_append _ _ _)).bind fun _ => ?_
    refine (AlikeOnInv.forM fun f _ => appendFileEntry_alike repo options sha256 dirpath f).bind
      fun _ => ?_
    exact .forM fun d _ => appendDirEntry_alike repo options
      (fun p c => appendDirtree_alike fuel p c false) dirpath isRoot d

theorem writeCommit_alike (fuel : Nat) (checksum : Checksum) :
    AlikeOnInv (writeCommit repo options sha256 fuel checksum)
      (Release.writeCommit repo options sha256 fuel checksum) := by
  simp only [writeCommit, Release.writeCommit, ← append_eq_release]
  refine (AlikeOnInv.refl (keepsInv_liftExcept _)).bind fun commitV => ?_
  refine (AlikeOnInv.refl (keepsInv_liftExcept _)).bind fun metadataV => ?_
  refine (AlikeOnInv.refl (keepsInv_appendDir options _ _)).bind fun _ => ?_
  refine (AlikeOnInv.refl (keepsInv_writeRepoStructure options)).bind fun _ => ?_
  refine (AlikeOnInv.refl (keepsInv_append _ _ _)).bind fun _ => ?_
  refine (AlikeOnInv.refl (keepsInv_liftExcept _)).bind fun commitmeta => ?_
  have tree := (AlikeOnInv.refl (keepsInv_append .dirMeta commitV.metadata
    metadataV.bytes)).bind fun (_ : Unit) =>
      appendDirtree_alike repo options sha256 fuel (Utf8Path.new "./") commitV.contents true
  cases commitmeta with
  | some m => exact (AlikeOnInv.refl (keepsInv_append _ _ _)).bind fun _ => tree
  | none => exact (AlikeOnInv.refl (keepsInv_pure _)).bind fun _ => tree

end Builds

/-- No `debug_assert!(inserted)` fails, for any store, commit, format version and fuel: every
insertion adds a checksum the set did not have, so the export computes exactly what a release
build computes.  A successful export ends with every file of the xattrs set in the content set,
the invariant the check in `append_xattrs` rests on. -/
theorem exportCommit_asserts_hold (repo : Repo) (sha256 : Bytes → Checksum) (fuel : Nat)
    (rev : String) (options : Option ExportOptions) :
    exportCommit repo sha256 fuel rev options = Release.exportCommit repo sha256 fuel rev options ∧
      ∀ w, exportCommit repo sha256 fuel rev options = .ok () w → WriterInv w := by
  have halike := (AlikeOnInv.refl (keepsInv_liftExcept (repo.requireRev rev))).bind fun commit =>
    writeCommit_alike repo (options.getD {}) sha256 fuel commit
  have hnew : WriterInv OstreeTarWriter.new := fun _ h => nomatch h
  refine ⟨by simp only [exportCommit, Release.exportCommit, context, halike.2 _ hnew], fun w h => ?_⟩
  simp only [exportCommit, context] at h
  split at h <;> cases h
  exact halike.1 _ _ _ hnew ‹_›

end OstreeTar
