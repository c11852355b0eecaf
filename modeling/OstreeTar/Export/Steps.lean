import OstreeTar.Export.Writer
import OstreeTar.Run

/-!
# What each step of the writer does

One lemma per method of `OstreeTarWriter`, giving its result on any writer state: the entries it
appends and the membership sets it changes.  The steps without a loop over the store are given in
closed form; `append_content` is given through what it loads and the entry it makes.  The proofs
about whole exports cite these lemmas and never unfold a method.
-/

namespace OstreeTar

/-! ## The entries the steps write -/

/-- The entry `append_default_dir` writes. -/
def defaultDirEntry (path : Utf8PathBuf) : Entry :=
  ⟨path, { Header.newGnu with entryType := .directory, uid := 0, gid := 0, mode := 0o755,
                              size := 0 }, []⟩

/-- The entry `append_default_data` writes. -/
def defaultDataEntry (path : Utf8PathBuf) (data : Bytes) : Entry :=
  ⟨path, { Header.newGnu with entryType := .regular, uid := 0, gid := 0, mode := 0o644,
                              size := data.length }, data⟩

/-- The entry `append_default_hardlink` writes for a target the link name takes whole. -/
def defaultHardlinkEntry (path linkTarget : Utf8PathBuf) : Entry :=
  ⟨path, { Header.newGnu with entryType := .link, uid := 0, gid := 0, mode := 0o644, size := 0,
                              linkName := some (Utf8Path.render linkTarget) }, []⟩

/-- The entry `append_dir` writes. -/
def dirEntry (options : ExportOptions) (path : Utf8PathBuf) (meta : DirMetaParsed) : Entry :=
  ⟨path, { Header.newGnu with entryType := .directory, size := 0, uid := meta.uid.toNat,
                              gid := meta.gid.toNat, mode := filterMode options meta.mode }, []⟩

/-- The header `append_content` starts from: the object's owner and filtered mode. -/
def contentHeader (options : ExportOptions) (meta : FileInfo) : Header :=
  { Header.newGnu with uid := meta.uid.toNat, gid := meta.gid.toNat,
                       mode := filterMode options meta.mode }

@[simp] theorem defaultDirEntry_path (path : Utf8PathBuf) : (defaultDirEntry path).path = path := rfl

@[simp] theorem defaultDataEntry_path (path : Utf8PathBuf) (data : Bytes) :
    (defaultDataEntry path data).path = path := rfl

@[simp] theorem defaultHardlinkEntry_path (path linkTarget : Utf8PathBuf) :
    (defaultHardlinkEntry path linkTarget).path = path := rfl

@[simp] theorem dirEntry_path (options : ExportOptions) (path : Utf8PathBuf) (meta : DirMetaParsed) :
    (dirEntry options path meta).path = path := rfl

namespace OstreeTarWriter

@[simp] theorem wrote_dirtree (w : OstreeTarWriter) : w.wrote .dirtree = w.wroteDirtree := rfl
@[simp] theorem wrote_dirmeta (w : OstreeTarWriter) : w.wrote .dirmeta = w.wroteDirmeta := rfl
@[simp] theorem wrote_content (w : OstreeTarWriter) : w.wrote .content = w.wroteContent := rfl
@[simp] theorem wrote_xattrs (w : OstreeTarWriter) : w.wrote .xattrs = w.wroteXattrs := rfl

@[simp] theorem setWrote_dirtree (w : OstreeTarWriter) (l : List Checksum) :
    w.setWrote .dirtree l = { w with wroteDirtree := l } := rfl
@[simp] theorem setWrote_dirmeta (w : OstreeTarWriter) (l : List Checksum) :
    w.setWrote .dirmeta l = { w with wroteDirmeta := l } := rfl
@[simp] theorem setWrote_content (w : OstreeTarWriter) (l : List Checksum) :
    w.setWrote .content l = { w with wroteContent := l } := rfl
@[simp] theorem setWrote_xattrs (w : OstreeTarWriter) (l : List Checksum) :
    w.setWrote .xattrs l = { w with wroteXattrs := l } := rfl

end OstreeTarWriter

/-! ## Loops that only append -/

/-- A loop whose body appends entries computed from the item appends them all, in order. -/
theorem forM_appends {α : Type} (l : List α) (body : α → WriterM Unit) (f : α → List Entry)
    (h : ∀ a s, body a s = .ok () { s with out := s.out ++ f a }) (s : OstreeTarWriter) :
    l.forM body s = .ok () { s with out := s.out ++ l.flatMap f } := by
  induction l generalizing s with
  | nil => simp [List.forM]
  | cons a l ih => simp [List.forM_cons, run_bind_ok (h a s), ih]

section Steps

variable (repo : Repo) (options : ExportOptions) (sha256 : Bytes → Checksum) (s : OstreeTarWriter)

@[simp] theorem appendData_run (h : Header) (path : Utf8PathBuf) (data : Bytes) :
    appendData h path data s = .ok () { s with out := s.out ++ [⟨path, h, data⟩] } := rfl

@[simp] theorem appendDefaultDir_run (path : Utf8PathBuf) :
    appendDefaultDir path s = .ok () { s with out := s.out ++ [defaultDirEntry path] } := rfl

@[simp] theorem appendDefaultData_run (path : Utf8PathBuf) (data : Bytes) :
    appendDefaultData path data s = .ok () { s with out := s.out ++ [defaultDataEntry path data] } :=
  rfl

@[simp] theorem appendDir_run (path : Utf8PathBuf) (meta : DirMetaParsed) :
    appendDir options path meta s = .ok () { s with out := s.out ++ [dirEntry options path meta] } :=
  rfl

theorem appendLink_run (h : Header) (path : Utf8PathBuf) (target : String) :
    appendLink h path target s =
      match prepareHeaderLink h target with
      | .ok h' => .ok () { s with out := s.out ++ [⟨path, h', []⟩] }
      | .error e => .error e s := by
  unfold appendLink
  cases prepareHeaderLink h target <;> rfl

/-- A hard link to a path of plain names is always written. -/
theorem appendDefaultHardlink_run (path : Utf8PathBuf) {names : List String}
    (hplain : ∀ n ∈ names, PlainName n) (hne : names ≠ []) :
    appendDefaultHardlink path (names.map .normal) s =
      .ok () { s with out := s.out ++ [defaultHardlinkEntry path (names.map .normal)] } := by
  rw [appendDefaultHardlink, appendLink_run,
    prepareHeaderLink_render (fun n hn => (hplain n hn).1) hne (fun n hn => (hplain n hn).2)]
  rfl

/-- The directories `write_repo_structure` creates, in order. -/
def repoStructureDirs (options : ExportOptions) : List Utf8PathBuf :=
  let objdir := ostreeDir ++ [.normal "repo", .normal "objects"]
  ((Utf8Path.ancestors objdir).reverse.filter fun path => !decide (path = [] ∨ path = [.rootDir])) ++
    (List.range 256).map (fun d => objdir ++ [.normal (hex2 d)]) ++
    ["tmp", "tmp/cache"].map (fun d => ostreeDir ++ [.normal "repo"] ++ Utf8Path.new d) ++
    ["refs", "refs/heads", "refs/mirrors", "refs/remotes"].map
      (fun d => ostreeDir ++ [.normal "repo"] ++ Utf8Path.new d) ++
    (if options.formatVersion = 0 then [ostreeDir ++ [.normal "repo", .normal "xattrs"]] else [])

/-- Where `write_repo_structure` puts the repository configuration, in the versions it knows. -/
def configPath (options : ExportOptions) : Option Utf8PathBuf :=
  if options.formatVersion = 0 then some [.normal sysroot, .normal "config"]
  else if options.formatVersion = 1 then some (ostreeDir ++ [.normal "repo", .normal "config"])
  else none

/-- `write_repo_structure` once: the directories and the configuration, or, for an unknown
format version, the directories and an error. -/
theorem writeRepoStructure_run :
    writeRepoStructure options s =
      if s.wroteInitdirs then .ok () s else
      match configPath options with
      | some path => .ok () { s with
          out := s.out ++ (repoStructureDirs options).map defaultDirEntry ++
            [defaultDataEntry path repoConfig.toUTF8.data.toList],
          wroteInitdirs := true }
      | none => .error ("Unsupported ostree tar format version " ++ toString options.formatVersion)
          { s with out := s.out ++ (repoStructureDirs options).map defaultDirEntry } := by
  by_cases hinit : s.wroteInitdirs
  · simp [writeRepoStructure, hinit]
  have hdirs : ∀ {α : Type} (l : List α) (g : α → Utf8PathBuf) (s : OstreeTarWriter),
      l.forM (fun a => appendDefaultDir (g a)) s =
        .ok () { s with out := s.out ++ l.map (fun a => defaultDirEntry (g a)) } := fun l g s => by
    rw [forM_appends l (fun a => appendDefaultDir (g a)) (fun a => [defaultDirEntry (g a)])
      (fun _ _ => rfl) s, List.map_eq_flatMap]
  have hanc := forM_appends ((Utf8Path.ancestors (ostreeDir ++ [.normal "repo", .normal "objects"])).reverse)
    (fun path => if path = [] ∨ path = [.rootDir] then pure () else appendDefaultDir path)
    (fun path => if path = [] ∨ path = [.rootDir] then [] else [defaultDirEntry path])
    (fun path s => by dsimp only; split <;> simp) s
  simp only [writeRepoStructure, run_get_bind, hinit, Bool.false_eq_true, ↓reduceIte]
  rw [run_bind_ok hanc, run_bind_ok (hdirs _ _ _), run_bind_ok (hdirs _ _ _),
    run_bind_ok (hdirs _ _ _)]
  by_cases h0 : options.formatVersion = 0
  · simp [h0, configPath, repoStructureDirs, run_bind, Utf8Path.ancestors, ostreeDir]
  · by_cases h1 : options.formatVersion = 1
    · simp [h0, h1, configPath, repoStructureDirs, run_bind, Utf8Path.ancestors, ostreeDir]
    · simpa [h0, h1, configPath, repoStructureDirs, run_bind, Utf8Path.ancestors, ostreeDir]
        using hinit

/-- `append`: the object's entry, unless its DirTree or DirMeta checksum was written already. -/
theorem append_run (objtype : ObjectType) (checksum : Checksum) (v : Bytes) :
    append objtype checksum v s =
      match appendSet objtype with
      | .ok none => .ok () { s with out := s.out ++ [defaultDataEntry (objectPath objtype checksum) v] }
      | .ok (some set) =>
        if checksum ∈ s.wrote set then .ok () s
        else .ok () { s.setWrote set ((s.wrote set).insert checksum) with
          out := s.out ++ [defaultDataEntry (objectPath objtype checksum) v] }
      | .error e => .error e s := by
  cases objtype <;>
    by_cases h : checksum ∈ s.wroteDirtree <;> by_cases h' : checksum ∈ s.wroteDirmeta <;>
    simp [append, appendSet, h, h', insertWrote, debugAssert, context, run_bind]

/-- The state `append` leaves for a DirTree or DirMeta object: its entry and its checksum in the
set, unless the set had it. -/
def OstreeTarWriter.objectWritten (w : OstreeTarWriter) (set : WroteSet) (objtype : ObjectType)
    (checksum : Checksum) (v : Bytes) : OstreeTarWriter :=
  if checksum ∈ w.wrote set then w
  else { w.setWrote set ((w.wrote set).insert checksum) with
    out := w.out ++ [defaultDataEntry (objectPath objtype checksum) v] }

theorem append_dirTree_run (checksum : Checksum) (v : Bytes) :
    append .dirTree checksum v s = .ok () (s.objectWritten .dirtree .dirTree checksum v) := by
  rw [append_run, OstreeTarWriter.objectWritten]
  by_cases h : checksum ∈ s.wroteDirtree <;> simp [appendSet, h]

theorem append_dirMeta_run (checksum : Checksum) (v : Bytes) :
    append .dirMeta checksum v s = .ok () (s.objectWritten .dirmeta .dirMeta checksum v) := by
  rw [append_run, OstreeTarWriter.objectWritten]
  by_cases h : checksum ∈ s.wroteDirmeta <;> simp [appendSet, h]

theorem append_commit_run (objtype : ObjectType) (hobj : objtype = .commit ∨ objtype = .commitMeta)
    (checksum : Checksum) (v : Bytes) :
    append objtype checksum v s =
      .ok () { s with out := s.out ++ [defaultDataEntry (objectPath objtype checksum) v] } := by
  rcases hobj with rfl | rfl <;> rfl

/-- Where a format version puts an xattrs blob, named by its digest. -/
def xattrsBlobPath (options : ExportOptions) (xattrsChecksum : Checksum) : Utf8PathBuf :=
  if options.formatVersion = 0 then v0XattrsPath xattrsChecksum else v1XattrsObjectPath xattrsChecksum

/-- Where a format version puts a file's link to its xattrs blob. -/
def xattrsLinkPath (options : ExportOptions) (checksum : Checksum) : Utf8PathBuf :=
  if options.formatVersion = 0 then v0XattrsObjectPath checksum else v1XattrsLinkObjectPath checksum

/-- The state `append_xattrs` leaves when it exports: the blob, unless the set says it was
written (the set is checked for the blob's digest but given the file's checksum), then the
file's link to it. -/
def xattrsWritten (checksum : Checksum) (xattrs : Bytes) : OstreeTarWriter :=
  let blob := xattrsBlobPath options (sha256 xattrs)
  let s₁ := if sha256 xattrs ∈ s.wroteXattrs then s
    else { s with wroteXattrs := s.wroteXattrs.insert checksum,
                  out := s.out ++ [defaultDataEntry blob xattrs] }
  { s₁ with out := s₁.out ++ [defaultHardlinkEntry (xattrsLinkPath options checksum) blob] }

@[simp] theorem xattrsWritten_wroteContent (checksum : Checksum) (xattrs : Bytes) :
    (xattrsWritten options sha256 s checksum xattrs).wroteContent = s.wroteContent := by
  simp only [xattrsWritten]; split <;> rfl

theorem mem_xattrsWritten_wroteXattrs {checksum c : Checksum} {xattrs : Bytes}
    (h : c ∈ (xattrsWritten options sha256 s checksum xattrs).wroteXattrs) :
    c = checksum ∨ c ∈ s.wroteXattrs := by
  simp only [xattrsWritten] at h; split at h <;> simp_all

theorem xattrsBlobPath_plain (options : ExportOptions) (xattrsChecksum : Checksum) :
    ∃ names, xattrsBlobPath options xattrsChecksum = names.map .normal ∧ names ≠ [] ∧
      ∀ n ∈ names, PlainName n := by
  unfold xattrsBlobPath
  split
  · exact ⟨_, v0XattrsPath_eq _, by simp, v0XattrsPath_plainName _⟩
  · exact ⟨_, objectsPath_eq _ _, by simp, objectsPath_plainName _ (by decide)⟩

/-- `append_xattrs` in the two format versions, for a file whose checksum is not in the xattrs
set (so its `debug_assert!` holds): nothing for empty xattrs in format 0, else the blob and the
link. -/
theorem appendXattrs_run (hfmt : options.formatVersion = 0 ∨ options.formatVersion = 1)
    (checksum : Checksum) (xattrs : Bytes) (hc : checksum ∉ s.wroteXattrs) :
    appendXattrs options sha256 checksum xattrs s =
      if xattrs = [] ∧ options.formatVersion = 0 then .ok false s
      else .ok true (xattrsWritten options sha256 s checksum xattrs) := by
  obtain ⟨names, hblob, hne, hplain⟩ := xattrsBlobPath_plain options (sha256 xattrs)
  have hpaths : xattrsPaths options.formatVersion (sha256 xattrs) checksum =
      some (xattrsBlobPath options (sha256 xattrs), xattrsLinkPath options checksum) := by
    rcases hfmt with h | h <;> simp [xattrsPaths, xattrsBlobPath, xattrsLinkPath, h]
  have hlink : ∀ s : OstreeTarWriter,
      appendDefaultHardlink (xattrsLinkPath options checksum) (xattrsBlobPath options (sha256 xattrs)) s =
        .ok () { s with out := s.out ++ [defaultHardlinkEntry (xattrsLinkPath options checksum)
          (xattrsBlobPath options (sha256 xattrs))] } := fun s => by
    rw [hblob]; exact appendDefaultHardlink_run s _ hplain hne
  by_cases hx : xattrs = [] ∧ options.formatVersion = 0
  · simp [appendXattrs, context, hx, run_bind]
  · have hx' : ¬ (xattrs.isEmpty = true ∧ options.formatVersion = 0) := by simpa using hx
    by_cases hw : sha256 xattrs ∈ s.wroteXattrs
    · simp [appendXattrs, context, hx', hpaths, hw, run_bind, run_map, hlink, xattrsWritten, hx]
    · simp [appendXattrs, context, hx', hpaths, hw, hc, run_bind, run_map, hlink, xattrsWritten,
        hx, insertWrote, debugAssert]

end Steps

/-- What `append_content` loads for an object: the file, its metadata and its xattrs. -/
def loadContent (repo : Repo) (checksum : Checksum) :
    Except String (LoadedFile × FileInfo × Bytes) :=
  match repo.loadFile checksum with
  | .error e => .error e
  | .ok file =>
    match file.meta, file.xattrs with
    | some meta, some xattrs => .ok (file, meta, xattrs)
    | none, _ => .error ("Missing metadata for object " ++ checksum.str)
    | some _, none => .error ("Missing xattrs for object " ++ checksum.str)

/-- The header of a symlink object: its target literally when denormal, else through
`append_link`'s encoding. -/
def symlinkHeader (h : Header) (target : String) : Except String Header :=
  if symlinkIsDenormal target then h.setLinkNameLiteral target else prepareHeaderLink h target

/-- The object entry `append_content` writes for a new object, or the error it stops with. -/
def contentEntry (options : ExportOptions) (checksum : Checksum) (file : LoadedFile)
    (meta : FileInfo) : Except String Entry :=
  match file.instream with
  | some instream =>
    if meta.fileType = .regular then
      .ok ⟨objectPath .file checksum,
        { contentHeader options meta with entryType := .regular, size := meta.size }, instream⟩
    else .error ("Condition failed: `" ++ "meta.file_type() == gio::FileType::Regular" ++ "`")
  | none =>
    if meta.fileType = .symbolicLink then
      match meta.symlinkTarget with
      | none => .error "Missing symlink target"
      | some target =>
        match symlinkHeader { contentHeader options meta with entryType := .symlink, size := 0 }
            target with
        | .ok h => .ok ⟨objectPath .file checksum, h, []⟩
        | .error e => .error ("Writing content symlink: " ++ checksum.str ++ ": " ++ e)
    else .error ("Condition failed: `" ++ "meta.file_type() == gio::FileType::SymbolicLink" ++ "`")

section Content

variable (repo : Repo) (options : ExportOptions) (sha256 : Bytes → Checksum) (s : OstreeTarWriter)

/-- `append_content`: for an object already written, only the header for links to it; for a new
one, it is marked written, its xattrs are exported, then its entry is written. -/
theorem appendContent_run (checksum : Checksum) :
    appendContent repo options sha256 checksum s =
      match loadContent repo checksum with
      | .error e => .error e s
      | .ok (file, meta, xattrs) =>
        if checksum ∈ s.wroteContent then
          .ok (objectPath .file checksum, { contentHeader options meta with size := 0 }) s
        else
          match appendXattrs options sha256 checksum xattrs
              { s with wroteContent := s.wroteContent.insert checksum } with
          | .error e s₁ => .error e s₁
          | .ok _ s₁ =>
            match contentEntry options checksum file meta with
            | .ok e => .ok (objectPath .file checksum, { contentHeader options meta with size := 0 })
                { s₁ with out := s₁.out ++ [e] }
            | .error e => .error e s₁ := by
  unfold appendContent loadContent
  cases hload : repo.loadFile checksum with
  | error e => simp [run_bind, hload]
  | ok file =>
    rcases hm : file.meta with _ | meta
    · simp [run_bind, hm]
    rcases hx : file.xattrs with _ | xattrs
    · simp [run_bind, hm, hx]
    simp only [hm, hx, run_bind, run_liftExcept_ok]
    by_cases hc : checksum ∈ s.wroteContent
    · simp [hc, contentHeader]
    simp only [hc, insertWrote, debugAssert, run_bind, run_modifyGet, run_get, if_false,
      not_false_eq_true, decide_False, Bool.not_false, ↓reduceIte, run_pure, OstreeTarWriter.wrote_content,
      OstreeTarWriter.setWrote_content]
    cases appendXattrs options sha256 checksum xattrs
        { s with wroteContent := s.wroteContent.insert checksum } with
    | error e s₁ => rfl
    | ok b s₁ =>
      simp only [contentEntry, contentHeader, Header.newGnu]
      rcases hi : file.instream with _ | instream
      · by_cases hty : meta.fileType = .symbolicLink
        · rcases ht : meta.symlinkTarget with _ | target
          · simp [ensure, hty, ht, run_bind]
          · by_cases hd : symlinkIsDenormal target
            · simp only [ensure, hty, ht, hd, symlinkHeader, context, run_bind, run_map,
                beq_self_eq_true, if_true, run_pure, ↓reduceIte]
              cases Header.setLinkNameLiteral
                { entryType := .symlink, uid := meta.uid.toNat, gid := meta.gid.toNat,
                  mode := filterMode options meta.mode, size := 0, linkName := none } target <;> rfl
            · simp only [ensure, hty, ht, hd, symlinkHeader, context, run_bind, run_map,
                beq_self_eq_true, if_true, run_pure, ↓reduceIte, appendLink_run, Bool.false_eq_true]
              cases prepareHeaderLink
                { entryType := .symlink, uid := meta.uid.toNat, gid := meta.gid.toNat,
                  mode := filterMode options meta.mode, size := 0, linkName := none } target <;> rfl
        · simp [ensure, hty, run_bind]
      · by_cases hty : meta.fileType = .regular <;> simp [ensure, hty, context, run_bind, run_map]

/-- The writer's invariant: every checksum in the xattrs set is in the content set.  The xattrs
set is given file checksums, each once `append_content` has added it to the content set, so
this is what keeps the `debug_assert!` of `append_xattrs` true. -/
def WriterInv (w : OstreeTarWriter) : Prop := ∀ c ∈ w.wroteXattrs, c ∈ w.wroteContent

/-- The state `append_content` reaches for a new object before its entry: the object in the
content set, then its xattrs exported (nothing for empty xattrs in format 0). -/
def xattrsStep (checksum : Checksum) (xattrs : Bytes) : OstreeTarWriter :=
  let s₀ := { s with wroteContent := s.wroteContent.insert checksum }
  if xattrs = [] ∧ options.formatVersion = 0 then s₀
  else xattrsWritten options sha256 s₀ checksum xattrs

/-- `append_content` in the two format versions, from a state with the invariant. -/
theorem appendContent_run_of_inv (hfmt : options.formatVersion = 0 ∨ options.formatVersion = 1)
    (hinv : WriterInv s) (checksum : Checksum) :
    appendContent repo options sha256 checksum s =
      match loadContent repo checksum with
      | .error e => .error e s
      | .ok (file, meta, xattrs) =>
        if checksum ∈ s.wroteContent then
          .ok (objectPath .file checksum, { contentHeader options meta with size := 0 }) s
        else
          let s₁ := xattrsStep options sha256 s checksum xattrs
          match contentEntry options checksum file meta with
          | .ok e => .ok (objectPath .file checksum, { contentHeader options meta with size := 0 })
              { s₁ with out := s₁.out ++ [e] }
          | .error err => .error err s₁ := by
  rw [appendContent_run]
  rcases loadContent repo checksum with e | ⟨file, meta, xattrs⟩
  · rfl
  · dsimp only
    split
    · rfl
    · next hc =>
      rw [appendXattrs_run options sha256 { s with wroteContent := s.wroteContent.insert checksum }
        hfmt checksum xattrs fun h => hc (hinv _ h)]
      by_cases hxe : xattrs = [] ∧ options.formatVersion = 0 <;> simp [hxe, xattrsStep]

@[simp] theorem xattrsStep_wroteContent (checksum : Checksum) (xattrs : Bytes) :
    (xattrsStep options sha256 s checksum xattrs).wroteContent = s.wroteContent.insert checksum := by
  unfold xattrsStep; split <;> simp

@[simp] theorem xattrsStep_wroteInitdirs (checksum : Checksum) (xattrs : Bytes) :
    (xattrsStep options sha256 s checksum xattrs).wroteInitdirs = s.wroteInitdirs := by
  simp only [xattrsStep, xattrsWritten]; split_ifs <;> rfl

@[simp] theorem xattrsStep_wroteDirtree (checksum : Checksum) (xattrs : Bytes) :
    (xattrsStep options sha256 s checksum xattrs).wroteDirtree = s.wroteDirtree := by
  simp only [xattrsStep, xattrsWritten]; split_ifs <;> rfl

@[simp] theorem xattrsStep_wroteDirmeta (checksum : Checksum) (xattrs : Bytes) :
    (xattrsStep options sha256 s checksum xattrs).wroteDirmeta = s.wroteDirmeta := by
  simp only [xattrsStep, xattrsWritten]; split_ifs <;> rfl

/-- Exporting a file's xattrs adds at most the file's checksum to the xattrs set. -/
theorem mem_xattrsStep_wroteXattrs {checksum c : Checksum} {xattrs : Bytes}
    (h : c ∈ (xattrsStep options sha256 s checksum xattrs).wroteXattrs) :
    c = checksum ∨ c ∈ s.wroteXattrs := by
  unfold xattrsStep at h
  split at h
  · exact .inr h
  · exact mem_xattrsWritten_wroteXattrs options sha256
      { s with wroteContent := s.wroteContent.insert checksum } h

theorem WriterInv.xattrsStep {checksum : Checksum} (xattrs : Bytes) (hinv : WriterInv s) :
    WriterInv (xattrsStep options sha256 s checksum xattrs) := fun c hc => by
  rw [xattrsStep_wroteContent, List.mem_insert_iff]
  exact (mem_xattrsStep_wroteXattrs options sha256 s hc).imp_right (hinv c)

/-- The entries `append_xattrs` adds for a file: nothing for empty xattrs in format 0, else the
blob unless the set has its digest, then the file's link. -/
theorem xattrsStep_out (c : Checksum) (x : Bytes) :
    (xattrsStep options sha256 s c x).out = s.out ++
      if x = [] ∧ options.formatVersion = 0 then [] else
        (if sha256 x ∈ s.wroteXattrs then [] else
          [defaultDataEntry (xattrsBlobPath options (sha256 x)) x]) ++
        [defaultHardlinkEntry (xattrsLinkPath options c) (xattrsBlobPath options (sha256 x))] := by
  unfold xattrsStep xattrsWritten
  by_cases h₀ : x = [] ∧ options.formatVersion = 0
  · simp only [h₀, and_self, if_true, List.append_nil]
  · by_cases hw : sha256 x ∈ s.wroteXattrs <;> simp [h₀, hw]

/-- One turn of the loop over files: the object, then the hard link the checkout gets. -/
theorem appendFileEntry_run (dirpath : Utf8PathBuf) (name : String) (csum : Checksum) :
    appendFileEntry repo options sha256 dirpath (name, csum) s =
      match appendContent repo options sha256 csum s with
      | .error e s₁ => .error e s₁
      | .ok (objpath, h) s₁ =>
        match { h with entryType := .link }.setLinkName (Utf8Path.render objpath) with
        | .ok h' => .ok () { s₁ with
            out := s₁.out ++ [⟨mapPath (Utf8Path.join dirpath (Utf8Path.new name)), h', []⟩] }
        | .error e => .error e s₁ := by
  simp only [appendFileEntry, run_bind]
  rcases appendContent repo options sha256 csum s with ⟨⟨objpath, h⟩, s₁⟩ | ⟨e, s₁⟩
  · dsimp only
    cases Header.setLinkName { h with entryType := .link } (Utf8Path.render objpath) <;> rfl
  · rfl

/-- One turn of the loop over directories: the DirMeta object, then, but for `sysroot` at the
root, the directory entry and the subtree. -/
theorem appendDirEntry_run (recurse : Utf8PathBuf → Checksum → WriterM Unit)
    (dirpath : Utf8PathBuf) (isRoot : Bool) (name : String) (contents metaCsum : Checksum) :
    appendDirEntry repo options recurse dirpath isRoot (name, contents, metaCsum) s =
      match repo.loadDirMeta metaCsum with
      | .error e => .error e s
      | .ok metaV =>
        if isRoot ∧ name = sysroot then
          .ok () (s.objectWritten .dirmeta .dirMeta metaCsum metaV.bytes)
        else
          let w := s.objectWritten .dirmeta .dirMeta metaCsum metaV.bytes
          let subpath := mapPath (Utf8Path.join dirpath (Utf8Path.new name))
          recurse subpath contents
            { w with out := w.out ++ [dirEntry options subpath metaV.parsed] } := by
  simp only [appendDirEntry]
  cases repo.loadDirMeta metaCsum with
  | error e => rfl
  | ok metaV =>
    simp only [run_liftExcept_ok_bind, run_bind_ok (append_dirMeta_run _ _ _)]
    by_cases h : isRoot ∧ name = sysroot
    · simp [h]
    · simp only [h, if_false]
      rw [if_neg (by simpa using h)]
      rfl

/-- `append_dirtree` with fuel left: the DirTree object, then the two loops. -/
theorem appendDirtree_succ (fuel : Nat) (dirpath : Utf8PathBuf) (checksum : Checksum)
    (isRoot : Bool) :
    appendDirtree repo options sha256 (fuel + 1) dirpath checksum isRoot s =
      match repo.loadDirTree checksum with
      | .error e => .error e s
      | .ok v =>
        (v.files.forM (appendFileEntry repo options sha256 dirpath) >>= fun _ =>
          v.dirs.forM (appendDirEntry repo options
            (fun p c => appendDirtree repo options sha256 fuel p c false) dirpath isRoot))
          (s.objectWritten .dirtree .dirTree checksum v.bytes) := by
  simp only [appendDirtree]
  cases repo.loadDirTree checksum with
  | error e => rfl
  | ok v => simp only [run_liftExcept_ok_bind, run_bind_ok (append_dirTree_run _ _ _)]

/-- `write_commit`: the root directory, the scaffolding, the commit and its detached metadata,
the root DirMeta, then the tree. -/
theorem writeCommit_run (fuel : Nat) (checksum : Checksum) :
    writeCommit repo options sha256 fuel checksum s =
      match repo.loadCommit checksum with
      | .error e => .error e s
      | .ok commitV =>
        match repo.loadDirMeta commitV.metadata with
        | .error e => .error e s
        | .ok metadataV =>
          match writeRepoStructure options
              { s with out := s.out ++ [dirEntry options (Utf8Path.new "./") metadataV.parsed] } with
          | .error e s₁ => .error e s₁
          | .ok _ s₁ =>
            let s₂ := { s₁ with
              out := s₁.out ++ [defaultDataEntry (objectPath .commit checksum) commitV.bytes] }
            match repo.readCommitDetachedMetadata checksum with
            | .error e => .error e s₂
            | .ok commitmeta =>
              let s₃ := match commitmeta with
                | some m => { s₂ with
                    out := s₂.out ++ [defaultDataEntry (objectPath .commitMeta checksum) m] }
                | none => s₂
              appendDirtree repo options sha256 fuel (Utf8Path.new "./") commitV.contents true
                (s₃.objectWritten .dirmeta .dirMeta commitV.metadata metadataV.bytes) := by
  simp only [writeCommit]
  cases repo.loadCommit checksum with
  | error e => rfl
  | ok commitV =>
    simp only [run_liftExcept_ok_bind]
    cases repo.loadDirMeta commitV.metadata with
    | error e => rfl
    | ok metadataV =>
      simp only [run_liftExcept_ok_bind, run_bind_ok (appendDir_run _ _ _ _)]
      rw [run_bind]
      cases writeRepoStructure options
          { s with out := s.out ++ [dirEntry options (Utf8Path.new "./") metadataV.parsed] } with
      | error e s₁ => rfl
      | ok u s₁ =>
        simp only [run_bind_ok (append_commit_run _ _ (.inl rfl) _ _)]
        cases repo.readCommitDetachedMetadata checksum with
        | error e => rfl
        | ok commitmeta =>
          cases commitmeta with
          | none => simp only [run_liftExcept_ok_bind, run_pure_bind,
              run_bind_ok (append_dirMeta_run _ _ _)]
          | some m => simp only [run_liftExcept_ok_bind, run_bind_ok (append_commit_run _ _ (.inr rfl) _ _),
              run_bind_ok (append_dirMeta_run _ _ _)]

/-- The writer's state when `write_commit`, started on a new writer, reaches the tree: the root
directory, the scaffolding and the configuration, the commit and its detached metadata, and the
root DirMeta. -/
def commitStart (checksum : Checksum) (commitV : CommitObject) (metadataV : DirMetaObject)
    (cfg : Utf8PathBuf) (commitmeta : Option Bytes) : OstreeTarWriter where
  out := [dirEntry options (Utf8Path.new "./") metadataV.parsed] ++
    (repoStructureDirs options).map defaultDirEntry ++
    [defaultDataEntry cfg repoConfig.toUTF8.data.toList,
      defaultDataEntry (objectPath .commit checksum) commitV.bytes] ++
    commitmeta.toList.map (defaultDataEntry (objectPath .commitMeta checksum)) ++
    [defaultDataEntry (objectPath .dirMeta commitV.metadata) metadataV.bytes]
  wroteInitdirs := true
  wroteDirtree := []
  wroteDirmeta := [commitV.metadata]
  wroteContent := []
  wroteXattrs := []

/-- `write_commit` on a new writer succeeds exactly when the lookups do, the format version is
known, and the tree is written from `commitStart`. -/
theorem writeCommit_new_ok (fuel : Nat) (checksum : Checksum) (w : OstreeTarWriter) :
    writeCommit repo options sha256 fuel checksum OstreeTarWriter.new = .ok () w ↔
      ∃ commitV metadataV cfg commitmeta, repo.loadCommit checksum = .ok commitV ∧
        repo.loadDirMeta commitV.metadata = .ok metadataV ∧ configPath options = some cfg ∧
        repo.readCommitDetachedMetadata checksum = .ok commitmeta ∧
        appendDirtree repo options sha256 fuel (Utf8Path.new "./") commitV.contents true
          (commitStart options checksum commitV metadataV cfg commitmeta) = .ok () w := by
  rw [writeCommit_run]
  rcases hc : repo.loadCommit checksum with e | commitV
  · simp
  dsimp only
  rcases hm : repo.loadDirMeta commitV.metadata with e | metadataV
  · simp [hm]
  dsimp only
  rw [writeRepoStructure_run]
  rcases hcfg : configPath options with _ | cfg
  · simp [hm, hcfg, OstreeTarWriter.new]
  rcases hmeta : repo.readCommitDetachedMetadata checksum with e | commitmeta
  · simp [hm, hcfg, hmeta, OstreeTarWriter.new]
  cases commitmeta <;>
    simp [hm, hcfg, hmeta, OstreeTarWriter.new, OstreeTarWriter.objectWritten, commitStart]

end Content

/-- `export_commit`: the revision resolved, then `write_commit` on a new writer, errors in
context. -/
theorem exportCommit_eq (repo : Repo) (sha256 : Bytes → Checksum) (fuel : Nat) (rev : String)
    (options : Option ExportOptions) :
    exportCommit repo sha256 fuel rev options =
      match repo.requireRev rev with
      | .error e => .error ("Exporting commit" ++ ": " ++ e) OstreeTarWriter.new
      | .ok commit =>
        match writeCommit repo (options.getD {}) sha256 fuel commit OstreeTarWriter.new with
        | .ok u s => .ok u s
        | .error e s => .error ("Exporting commit" ++ ": " ++ e) s := by
  simp only [exportCommit, context]
  cases repo.requireRev rev with
  | error e => rfl
  | ok commit =>
    simp only [run_liftExcept_ok_bind]
    cases writeCommit repo (options.getD {}) sha256 fuel commit OstreeTarWriter.new <;> rfl

/-- `export_commit` succeeds exactly when the revision resolves and `write_commit` succeeds. -/
theorem exportCommit_ok (repo : Repo) (sha256 : Bytes → Checksum) (fuel : Nat) (rev : String)
    (options : Option ExportOptions) (w : OstreeTarWriter) :
    exportCommit repo sha256 fuel rev options = .ok () w ↔
      ∃ commit, repo.requireRev rev = .ok commit ∧
        writeCommit repo (options.getD {}) sha256 fuel commit OstreeTarWriter.new = .ok () w := by
  rw [exportCommit_eq]
  rcases repo.requireRev rev with e | commit
  · simp
  · cases hw : writeCommit repo (options.getD {}) sha256 fuel commit OstreeTarWriter.new <;> simp [hw]

end OstreeTar
