import OstreeTar.Export.PathFamilies
import OstreeTar.Export.Once

/-!
# The entries an export writes

Every entry of an exported archive is one of eight kinds, each made in one place of the writer
(`WrittenEntry`): a directory of the scaffolding, the repository configuration, an object of the
commit's closure, an xattrs blob, a file's hard link to its xattrs blob, a directory of the
checkout with its DirMeta's owner and mode, a file object as `append_content` makes it, and the
hard link `append_dirtree` gives a file of the checkout.  The closure is what the walk goes
through (`InClosure`): the commit, its metadata, the root DirMeta, each DirTree the walk enters
and what such a DirTree lists.  The checkout's directories are `./` and, below one of them, a
directory a DirTree of the store lists, but the root's `sysroot`, as `map_path` places it
(`CheckoutDir`); its paths are these and the files a DirTree lists below one of them
(`CheckoutPath`).  What holds of the eight kinds holds of every entry an export writes, whether
it succeeds or stops on an error (`exportCommit_writtenEntry`).

An archive is extracted path by path, `./a` and `a` being one path (`normalizedPath`).  Every
path the writer makes is of names alone or of the checkout, and when the store's names are plain
no path of the checkout extracts below `sysroot/`: the root-level skip keeps the walk out of it.
So, as extracted, the archive holds each object and each file's xattrs link at most once
(`exportCommit_written_once`), and no object outside the closure
(`exportCommit_objects_in_closure`).  Three properties of the headers follow as well.  Each header's size is the length of the data that
follows it, as a tar reader needs, provided the store gives each regular file a size that is the
length of its content (`exportCommit_sizes`).  Outside format 0 no mode carries file-type bits:
the default modes have none, and `filter_mode` clears them from the store's
(`exportCommit_modes`).  And when the store's names are plain, every path is relative and free
of `..`, so the archive unpacks below the directory it is unpacked in
(`exportCommit_paths_inside`); the `tar` crate's refusal of other entry paths, which the model
leaves out, never applies.
-/

namespace OstreeTar

/-! ## The entries the writer makes -/

/-- The directories of the checkout, flagged at the root: `./`, and below one of them each
directory a DirTree of the store lists, but a `sysroot` at the root, where `map_path` places
it. -/
inductive CheckoutDir (repo : Repo) : Bool → Utf8PathBuf → Prop
  | root : CheckoutDir repo true (Utf8Path.new "./")
  | sub {isRoot : Bool} {p : Utf8PathBuf} {t : Checksum} {v : DirTreeObject} {name : String}
      {contents metaCsum : Checksum} :
      CheckoutDir repo isRoot p → repo.loadDirTree t = .ok v → (name, contents, metaCsum) ∈ v.dirs →
      ¬(isRoot = true ∧ name = sysroot) →
      CheckoutDir repo false (mapPath (Utf8Path.join p (Utf8Path.new name)))

/-- The paths of the checkout: its directories, and below one of them each file a DirTree of the
store lists, where `map_path` places it. -/
inductive CheckoutPath (repo : Repo) : Utf8PathBuf → Prop
  | dir {isRoot : Bool} {p : Utf8PathBuf} : CheckoutDir repo isRoot p → CheckoutPath repo p
  | file {isRoot : Bool} {p : Utf8PathBuf} {t : Checksum} {v : DirTreeObject} {name : String}
      {c : Checksum} :
      CheckoutDir repo isRoot p → repo.loadDirTree t = .ok v → (name, c) ∈ v.files →
      CheckoutPath repo (mapPath (Utf8Path.join p (Utf8Path.new name)))

namespace LayoutPath

/-- Where a format version puts a file's xattrs blob. -/
def xattrsBlob (options : ExportOptions) (xattrsChecksum : Checksum) : LayoutPath :=
  if options.formatVersion = 0 then v0Xattrs xattrsChecksum else v1XattrsObject xattrsChecksum

/-- Where a format version puts a file's link to its xattrs blob. -/
def xattrsLink (options : ExportOptions) (checksum : Checksum) : LayoutPath :=
  if options.formatVersion = 0 then v0XattrsObject checksum else v1XattrsLinkObject checksum

theorem path_xattrsBlob (options : ExportOptions) (d : Checksum) :
    (xattrsBlob options d).path = xattrsBlobPath options d := by
  unfold xattrsBlob xattrsBlobPath; split <;> rfl

theorem path_xattrsLink (options : ExportOptions) (c : Checksum) :
    (xattrsLink options c).path = xattrsLinkPath options c := by
  unfold xattrsLink xattrsLinkPath; split <;> rfl

end LayoutPath

/-- A DirTree the export of `commit` enters: the root tree, or one below it through directory
entries other than the root's `sysroot`. -/
def Walked (repo : Repo) (commit t : Checksum) : Prop :=
  ∃ commitV, repo.loadCommit commit = .ok commitV ∧ Walks repo commitV.contents true t

/-- The objects of `commit`'s closure as the export goes through it. -/
inductive InClosure (repo : Repo) (commit : Checksum) : ObjectType → Checksum → Prop
  | commit : InClosure repo commit .commit commit
  | commitMeta : InClosure repo commit .commitMeta commit
  | rootMeta {commitV : CommitObject} : repo.loadCommit commit = .ok commitV →
      InClosure repo commit .dirMeta commitV.metadata
  | dirTree {t : Checksum} : Walked repo commit t → InClosure repo commit .dirTree t
  /-- The DirMeta of a directory entry, the root's `sysroot` included. -/
  | dirMeta {t : Checksum} {v : DirTreeObject} {d : String × Checksum × Checksum} :
      Walked repo commit t → repo.loadDirTree t = .ok v → d ∈ v.dirs →
      InClosure repo commit .dirMeta d.2.2
  | file {t : Checksum} {v : DirTreeObject} {f : String × Checksum} :
      Walked repo commit t → repo.loadDirTree t = .ok v → f ∈ v.files →
      InClosure repo commit .file f.2

section Kinds

variable (repo : Repo) (options : ExportOptions) (commit : Checksum)

/-- The entries the writer makes for `commit`, each by the method that makes it. -/
inductive WrittenEntry : Entry → Prop
  /-- `append_default_dir`, for a directory of the scaffolding. -/
  | defaultDir {path : Utf8PathBuf} :
      path ∈ repoStructureDirs options → WrittenEntry (defaultDirEntry path)
  /-- `append_default_data`, for the repository configuration. -/
  | config {path : Utf8PathBuf} : configPath options = some path →
      WrittenEntry (defaultDataEntry path repoConfig.toUTF8.data.toList)
  /-- `append`, for an object of the closure. -/
  | object {objtype : ObjectType} {c : Checksum} (data : Bytes) :
      InClosure repo commit objtype c → WrittenEntry (defaultDataEntry (objectPath objtype c) data)
  /-- `append_xattrs`, for a blob at its digest's path. -/
  | xattrsBlob (d : Checksum) (data : Bytes) :
      WrittenEntry (defaultDataEntry (xattrsBlobPath options d) data)
  /-- `append_xattrs`, for a file's link to its blob. -/
  | xattrsLink (c : Checksum) (target : Utf8PathBuf) :
      WrittenEntry (defaultHardlinkEntry (xattrsLinkPath options c) target)
  /-- `append_dir`, at a path of the checkout. -/
  | dir {path : Utf8PathBuf} (meta : DirMetaParsed) :
      CheckoutPath repo path → WrittenEntry (dirEntry options path meta)
  /-- A file object, as `append_content` makes it from what the store loads. -/
  | fileObject {c : Checksum} {file : LoadedFile} {meta : FileInfo} {xattrs : Bytes} {e : Entry} :
      InClosure repo commit .file c → loadContent repo c = .ok (file, meta, xattrs) →
      contentEntry options c file meta = .ok e → WrittenEntry e
  /-- The hard link from a file of the checkout to its object. -/
  | checkoutLink {c : Checksum} {file : LoadedFile} {meta : FileInfo} {xattrs : Bytes}
      {path : Utf8PathBuf} {h : Header} : CheckoutPath repo path →
      loadContent repo c = .ok (file, meta, xattrs) →
      { { contentHeader options meta with size := 0 } with entryType := .link }.setLinkName
        (Utf8Path.render (objectPath .file c)) = .ok h →
      WrittenEntry ⟨path, h, []⟩

/-- The writer's state along a run from an archive that began with `base`: the xattrs set holds
files of the content set, the archive still begins with `base`, and the writer made every entry
of it. -/
structure KnownEntries (base : List Entry) (s : OstreeTarWriter) : Prop where
  inv : WriterInv s
  grows : base <+: s.out
  written : ∀ e ∈ s.out, WrittenEntry repo options commit e

/-- A stretch of a run keeps `KnownEntries`, whether it ends well or on an error. -/
def EndsKnown {α : Type} (base : List Entry) : EStateM.Result String OstreeTarWriter α → Prop :=
  Ends (fun _ s => KnownEntries repo options commit base s) (KnownEntries repo options commit base)

variable {repo options commit} {base : List Entry} {s : OstreeTarWriter}

namespace KnownEntries

theorem new : KnownEntries repo options commit [] OstreeTarWriter.new :=
  ⟨fun _ h => (nomatch h), ⟨_, rfl⟩, fun _ h => nomatch h⟩

/-- The archive as it stands is a start the rest of the run keeps. -/
theorem rebase (h : KnownEntries repo options commit base s) :
    KnownEntries repo options commit s.out s :=
  ⟨h.inv, List.prefix_refl _, h.written⟩

theorem append (h : KnownEntries repo options commit base s) (more : List Entry)
    (hmore : ∀ e ∈ more, WrittenEntry repo options commit e) :
    KnownEntries repo options commit base { s with out := s.out ++ more } :=
  ⟨h.inv, h.grows.trans (List.prefix_append _ _),
    fun e he => (List.mem_append.mp he).elim (h.written e) (hmore e)⟩

theorem snoc (h : KnownEntries repo options commit base s) {e : Entry}
    (he : WrittenEntry repo options commit e) :
    KnownEntries repo options commit base { s with out := s.out ++ [e] } :=
  h.append [e] fun _ h' => List.mem_singleton.mp h' ▸ he

theorem setInitdirs (h : KnownEntries repo options commit base s) (b : Bool) :
    KnownEntries repo options commit base { s with wroteInitdirs := b } :=
  ⟨h.inv, h.grows, h.written⟩

theorem objectWritten (h : KnownEntries repo options commit base s) {set : WroteSet}
    (hset : set = .dirtree ∨ set = .dirmeta) {objtype : ObjectType} {c : Checksum}
    (hin : InClosure repo commit objtype c) (v : Bytes) :
    KnownEntries repo options commit base (s.objectWritten set objtype c v) := by
  refine ⟨(Extends.objectWritten h.inv hset objtype c v).1,
    h.grows.trans (Grows.objectWritten s hset objtype c v).out, ?_⟩
  unfold OstreeTarWriter.objectWritten
  split
  · exact h.written
  · exact (h.snoc (.object v hin)).written

end KnownEntries

end Kinds

/-! ## How an archive begins -/

section Begins

variable (repo : Repo) (options : ExportOptions) (checksum : Checksum)

/-- An archive as `write_commit` begins it, whole or cut short: every entry is one the writer
makes, and once the commit and its root DirMeta load in a format with a configuration, the root
directory and the commit object are there. -/
structure Begun (out : List Entry) : Prop where
  written : ∀ e ∈ out, WrittenEntry repo options checksum e
  started : ∀ commitV metadataV cfg, repo.loadCommit checksum = .ok commitV →
    repo.loadDirMeta commitV.metadata = .ok metadataV → configPath options = some cfg →
    dirEntry options (Utf8Path.new "./") metadataV.parsed ∈ out ∧
      defaultDataEntry (objectPath .commit checksum) commitV.bytes ∈ out

variable {repo options checksum}

theorem Begun.nil (hfail : ∀ commitV metadataV, repo.loadCommit checksum = .ok commitV →
    repo.loadDirMeta commitV.metadata = .ok metadataV → False) : Begun repo options checksum [] :=
  ⟨nofun, fun _ _ _ hc hm _ => (hfail _ _ hc hm).elim⟩

/-- An archive that starts with the root directory and, after the scaffolding, the commit object
has begun as `write_commit` begins it. -/
theorem Begun.of_lead {commitV : CommitObject} {metadataV : DirMetaObject} {pre out : List Entry}
    (hc : repo.loadCommit checksum = .ok commitV)
    (hm : repo.loadDirMeta commitV.metadata = .ok metadataV)
    (hlead : dirEntry options (Utf8Path.new "./") metadataV.parsed :: pre ++
      [defaultDataEntry (objectPath .commit checksum) commitV.bytes] <+: out)
    (hw : ∀ e ∈ out, WrittenEntry repo options checksum e) : Begun repo options checksum out :=
  ⟨hw, fun commitV' metadataV' _ hc' hm' _ => by
    cases hc.symm.trans hc'
    cases hm.symm.trans hm'
    exact ⟨hlead.subset (List.mem_cons_self _ _), hlead.subset (by simp)⟩⟩

end Begins

/-! ## The walk -/

section Walk

variable (repo : Repo) (options : ExportOptions) (sha256 : Bytes → Checksum)
  (hfmt : options.formatVersion = 0 ∨ options.formatVersion = 1) {commit : Checksum}

/-- The xattrs records of a file are default entries. -/
theorem xattrsStep_written {base : List Entry} {s : OstreeTarWriter}
    (h : KnownEntries repo options commit base s) (c : Checksum) (x : Bytes) :
    KnownEntries repo options commit base (xattrsStep options sha256 s c x) := by
  refine ⟨h.inv.xattrsStep options sha256 s x,
    h.grows.trans ⟨_, (xattrsStep_out options sha256 s c x).symm⟩, fun e he => ?_⟩
  rw [xattrsStep_out] at he
  rcases List.mem_append.mp he with he | he
  · exact h.written e he
  split_ifs at he <;> simp only [List.not_mem_nil, List.nil_append, List.cons_append,
    List.mem_cons, List.mem_singleton, or_false] at he
  · rw [he]; exact .xattrsLink _ _
  · rcases he with rfl | rfl
    · exact .xattrsBlob _ _
    · exact .xattrsLink _ _

include hfmt in
theorem appendContent_known {base : List Entry} {s : OstreeTarWriter}
    (h : KnownEntries repo options commit base s) {c : Checksum}
    (hin : InClosure repo commit .file c) :
    Ends (fun r s' => KnownEntries repo options commit base s' ∧
        ∃ file meta x, loadContent repo c = .ok (file, meta, x) ∧
          r = (objectPath .file c, { contentHeader options meta with size := 0 }))
      (KnownEntries repo options commit base) (appendContent repo options sha256 c s) := by
  rw [appendContent_run_of_inv repo options sha256 s hfmt h.inv]
  rcases hload : loadContent repo c with e | ⟨file, meta, x⟩
  · exact h
  dsimp only
  have hx := xattrsStep_written repo options sha256 h c x
  split
  · exact ⟨h, file, meta, x, rfl, rfl⟩
  · rcases hce : contentEntry options c file meta with err | e
    · exact hx
    · exact ⟨hx.snoc (.fileObject hin hload hce), file, meta, x, rfl, rfl⟩

include hfmt in
theorem appendFileEntry_known {isRoot : Bool} {p : Utf8PathBuf} (hp : CheckoutDir repo isRoot p)
    {t : Checksum} (ht : Walked repo commit t) {v : DirTreeObject} (hv : repo.loadDirTree t = .ok v)
    {base : List Entry} {s : OstreeTarWriter}
    (h : KnownEntries repo options commit base s) (file : String × Checksum) (hf : file ∈ v.files) :
    EndsKnown repo options commit base (appendFileEntry repo options sha256 p file s) := by
  obtain ⟨name, c⟩ := file
  have hc := appendContent_known repo options sha256 hfmt h (.file ht hv hf)
  rw [appendFileEntry_run]
  rcases hrun : appendContent repo options sha256 c s with ⟨⟨objpath, hdr⟩, s₁⟩ | ⟨e, s₁⟩ <;>
    rw [hrun] at hc
  · obtain ⟨h₁, file, meta, x, hload, hr⟩ := hc
    cases hr
    dsimp only
    split
    · next h' hlink => exact h₁.snoc (.checkoutLink (.file hp hv hf) hload hlink)
    · exact h₁
  · exact hc

theorem appendDirEntry_known {base : List Entry} {recurse : Utf8PathBuf → Checksum → WriterM Unit}
    (ih : ∀ p t s, CheckoutDir repo false p → (∀ t', Walks repo t false t' → Walked repo commit t') →
      KnownEntries repo options commit base s → EndsKnown repo options commit base (recurse p t s))
    {isRoot : Bool} {p : Utf8PathBuf} (hp : CheckoutDir repo isRoot p) {t : Checksum}
    (hwalk : ∀ t', Walks repo t isRoot t' → Walked repo commit t') {v : DirTreeObject}
    (hv : repo.loadDirTree t = .ok v) {s : OstreeTarWriter}
    (h : KnownEntries repo options commit base s) (dir : String × Checksum × Checksum)
    (hd : dir ∈ v.dirs) :
    EndsKnown repo options commit base (appendDirEntry repo options recurse p isRoot dir s) := by
  obtain ⟨name, contents, metaCsum⟩ := dir
  rw [appendDirEntry_run]
  rcases repo.loadDirMeta metaCsum with e | metaV
  · exact h
  have hin : InClosure repo commit .dirMeta metaCsum := .dirMeta (hwalk t (.refl t isRoot)) hv hd
  have h₁ := h.objectWritten (.inr rfl) hin metaV.bytes
  dsimp only
  split
  · exact h₁
  · next hroot =>
    have hsub : CheckoutDir repo false (mapPath (Utf8Path.join p (Utf8Path.new name))) :=
      .sub hp hv hd hroot
    exact ih _ contents _ hsub (fun t' h' => hwalk t' (.sub hv hd hroot h'))
      (h₁.snoc (.dir _ (.dir hsub)))

include hfmt in
theorem appendDirtree_known (base : List Entry) : ∀ fuel p t isRoot s, CheckoutDir repo isRoot p →
    (∀ t', Walks repo t isRoot t' → Walked repo commit t') →
    KnownEntries repo options commit base s →
      EndsKnown repo options commit base (appendDirtree repo options sha256 fuel p t isRoot s)
  | 0, _, _, _, _, _, _, h => h
  | fuel + 1, p, t, isRoot, s, hp, hwalk, h => by
    rw [appendDirtree_succ]
    rcases hv : repo.loadDirTree t with e | v
    · exact h
    refine Ends.bind (Ends.forM_inv (KnownEntries repo options commit base) v.files _
      (fun f hf s' hs' => appendFileEntry_known repo options sha256 hfmt hp
        (hwalk t (.refl t isRoot)) hv hs' f hf) _
      (h.objectWritten (.inl rfl) (.dirTree (hwalk t (.refl t isRoot))) v.bytes)) fun _ s₂ h₂ => ?_
    exact Ends.forM_inv (KnownEntries repo options commit base) v.dirs _ (fun d hd s' hs' =>
      appendDirEntry_known repo options (fun p' t' s'' hp' hw' h'' =>
        appendDirtree_known base fuel p' t' false s'' hp' hw' h'') hp hwalk hv hs' d hd) s₂ h₂

/-- `write_commit` on a new writer: every entry it writes is one the writer makes, and the
archive begins with the root directory, then the scaffolding, the configuration and the commit
object. -/
theorem writeCommit_begun (fuel : Nat) (checksum : Checksum) :
    Begun repo options checksum
      (finalState (writeCommit repo options sha256 fuel checksum OstreeTarWriter.new)).out := by
  have h₀ : KnownEntries repo options checksum [] OstreeTarWriter.new := KnownEntries.new
  rw [writeCommit_run]
  rcases hc : repo.loadCommit checksum with e | commitV
  · exact Begun.nil fun _ _ h _ => nomatch hc.symm.trans h
  dsimp only
  rcases hm : repo.loadDirMeta commitV.metadata with e | metadataV
  · exact Begun.nil fun _ _ h h' => by cases hc.symm.trans h; exact nomatch hm.symm.trans h'
  dsimp only
  have h₁ := (h₀.snoc (.dir metadataV.parsed (.dir .root))).append
    ((repoStructureDirs options).map defaultDirEntry) fun e he => by
      obtain ⟨p, hp, rfl⟩ := List.mem_map.mp he
      exact .defaultDir hp
  rw [writeRepoStructure_run]
  rcases hcfg : configPath options with _ | cfg
  · simp only [OstreeTarWriter.new, Bool.false_eq_true, if_false]
    exact ⟨h₁.written, fun _ _ _ _ _ hcfg' => nomatch hcfg.symm.trans hcfg'⟩
  simp only [OstreeTarWriter.new, Bool.false_eq_true, if_false]
  have h₃ := ((h₁.snoc (.config hcfg)).setInitdirs true).snoc (.object commitV.bytes .commit)
  rcases repo.readCommitDetachedMetadata checksum with e | commitmeta
  · exact Begun.of_lead hc hm (List.prefix_refl _) h₃.written
  dsimp only
  have hfmt := formatVersion_of_configPath hcfg
  have hwalk : ∀ t', Walks repo commitV.contents true t' → Walked repo checksum t' :=
    fun t' h' => ⟨commitV, hc, h'⟩
  cases commitmeta with
  | none =>
    have hK := (appendDirtree_known repo options sha256 hfmt _ fuel _ commitV.contents true _ .root
      hwalk (h₃.rebase.objectWritten (.inr rfl) (.rootMeta hc) metadataV.bytes)).final
    exact Begun.of_lead hc hm hK.grows hK.written
  | some m =>
    have hK := (appendDirtree_known repo options sha256 hfmt _ fuel _ commitV.contents true _ .root
      hwalk ((h₃.rebase.snoc (.object m .commitMeta)).objectWritten (.inr rfl) (.rootMeta hc)
        metadataV.bytes)).final
    exact Begun.of_lead hc hm hK.grows hK.written

end Walk

/-! ## Objects, sizes, modes and paths of the eight kinds -/

section Properties

variable {repo : Repo} {options : ExportOptions} {commit : Checksum} {e : Entry}

theorem CheckoutDir.walkPath {isRoot : Bool} {p : Utf8PathBuf} (h : CheckoutDir repo isRoot p) :
    WalkPath p := by
  induction h with
  | root => rw [new_curDir]; exact walkPath_curDir.mapPath
  | sub _ _ _ _ ih => exact (ih.join _).mapPath

/-- The checkout's paths are walk paths. -/
theorem CheckoutPath.walkPath {p : Utf8PathBuf} (h : CheckoutPath repo p) : WalkPath p := by
  cases h with
  | dir hd => exact hd.walkPath
  | file hd => exact (hd.walkPath.join _).mapPath

/-- An entry of a kind at an object path is that object, of the commit's closure. -/
theorem WrittenEntry.inClosure (h : WrittenEntry repo options commit e) {objtype : ObjectType}
    {c : Checksum} (he : e.path = objectPath objtype c) : InClosure repo commit objtype c := by
  cases h with
  | defaultDir hp =>
    exact absurd he (offObjects_of_length (length_ne_of_mem_repoStructureDirs hp) c _)
  | config hcfg => exact absurd he (offObjects_of_length (configPath_length hcfg) c _)
  | object _ hin => obtain ⟨rfl, rfl⟩ := objectPath_inj he; exact hin
  | xattrsBlob d => exact absurd he (xattrsBlobPath_ne_objectPath options d c objtype)
  | xattrsLink c' => exact absurd he.symm (objectPath_ne_xattrsLinkPath objtype options c c')
  | dir _ hp | checkoutLink hp => exact absurd he (hp.walkPath.ne_objectsPath c _)
  | fileObject hin _ hce =>
    rw [contentEntry_path hce] at he
    obtain ⟨rfl, rfl⟩ := objectPath_inj he
    exact hin

/-- Every header of a kind gives the length of the data after it, when the store's file sizes are
their contents' lengths. -/
theorem WrittenEntry.size_eq
    (hsize : ∀ c file meta instream, repo.loadFile c = .ok file → file.meta = some meta →
      file.instream = some instream → meta.size = instream.length)
    (h : WrittenEntry repo options commit e) : e.header.size = e.data.length := by
  cases h with
  | defaultDir | config | object | xattrsBlob | xattrsLink | dir => rfl
  | fileObject _ hload hce =>
    obtain ⟨hf, hm, -⟩ := loadContent_ok hload
    unfold contentEntry at hce
    split at hce
    · next instream hi => split at hce <;> cases hce; exact hsize _ _ _ _ hf hm hi
    · repeat' split at hce
      all_goals cases hce
      next hs => obtain ⟨n, rfl⟩ := symlinkHeader_ok_eq hs; rfl
  | checkoutLink _ _ hlink => obtain ⟨n, rfl⟩ := setLinkName_ok_eq hlink; rfl

/-- Clearing `S_IFMT` leaves no file-type bit. -/
theorem and_not_and_self (m mask : UInt32) : (m &&& ~~~mask) &&& mask = 0 := by
  apply UInt32.eq_of_toBitVec_eq
  show (m.toBitVec &&& ~~~mask.toBitVec) &&& mask.toBitVec = 0#32
  ext i
  simp only [BitVec.getLsbD_and, BitVec.getLsbD_not, BitVec.getLsbD_zero]
  cases m.toBitVec.getLsbD i <;> cases mask.toBitVec.getLsbD i <;> simp

theorem filterMode_fileType (h0 : options.formatVersion ≠ 0) (mode : UInt32) :
    filterMode options mode &&& S_IFMT = 0 := by
  rw [filterMode, if_neg h0]
  exact and_not_and_self mode S_IFMT

/-- Outside format 0 no header of a kind has file-type bits in its mode. -/
theorem WrittenEntry.mode_fileType (h0 : options.formatVersion ≠ 0)
    (h : WrittenEntry repo options commit e) : e.header.mode &&& S_IFMT = 0 := by
  cases h with
  | defaultDir => show (0o755 : UInt32) &&& S_IFMT = 0; decide
  | config | object | xattrsBlob | xattrsLink => show (0o644 : UInt32) &&& S_IFMT = 0; decide
  | dir => exact filterMode_fileType h0 _
  | fileObject _ _ hce =>
    unfold contentEntry at hce
    repeat' split at hce
    all_goals cases hce
    · exact filterMode_fileType h0 _
    · next hs => obtain ⟨n, rfl⟩ := symlinkHeader_ok_eq hs; exact filterMode_fileType h0 _
  | checkoutLink _ _ hlink =>
    obtain ⟨n, rfl⟩ := setLinkName_ok_eq hlink; exact filterMode_fileType h0 _

/-- A path the `tar` crate takes for an entry, one that unpacks below the directory the archive
is unpacked in: it has no root and no `..`. -/
def Utf8Path.StaysInside (p : Utf8PathBuf) : Prop := ∀ c ∈ p, c ≠ .rootDir ∧ c ≠ .parentDir

instance (p : Utf8PathBuf) : Decidable (Utf8Path.StaysInside p) :=
  inferInstanceAs (Decidable (∀ c ∈ p, _))

/-- A path of names alone: no root, no `.` and no `..`. -/
def Utf8Path.NamesOnly (p : Utf8PathBuf) : Prop :=
  ∀ c ∈ p, c ≠ .rootDir ∧ c ≠ .parentDir ∧ c ≠ .curDir

instance (p : Utf8PathBuf) : Decidable (Utf8Path.NamesOnly p) :=
  inferInstanceAs (Decidable (∀ c ∈ p, _))

theorem namesOnly_map_normal (names : List String) : Utf8Path.NamesOnly (names.map .normal) :=
  fun _ hc => by obtain ⟨n, -, rfl⟩ := List.mem_map.mp hc; exact ⟨nofun, nofun, nofun⟩

theorem Utf8Path.NamesOnly.staysInside {p : Utf8PathBuf} (h : Utf8Path.NamesOnly p) :
    Utf8Path.StaysInside p := fun c hc => ⟨(h c hc).1, (h c hc).2.1⟩

/-- A path of names alone extracts where it says. -/
theorem Utf8Path.NamesOnly.normalizedPath_eq {p : Utf8PathBuf} (h : Utf8Path.NamesOnly p) :
    normalizedPath p = p :=
  List.filter_eq_self.mpr fun c hc => decide_eq_true (h c hc).2.2

theorem LayoutPath.namesOnly (l : LayoutPath) : Utf8Path.NamesOnly l.path := by
  rw [LayoutPath.path_eq]
  split
  · rw [objectsPath_eq]; exact namesOnly_map_normal _
  · exact namesOnly_map_normal ["sysroot", "ostree", "repo", "xattrs", l.checksum.str]

/-- A layout path is below `sysroot`, more than one name deep. -/
theorem LayoutPath.path_sysroot (l : LayoutPath) : ∃ q, q ≠ [] ∧ l.path = .normal sysroot :: q := by
  rw [LayoutPath.path_eq]
  split
  · exact ⟨_, List.cons_ne_nil _ _, objectsPath_eq _ _⟩
  · exact ⟨_, List.cons_ne_nil _ _, rfl⟩

theorem namesOnly_of_mem_repoStructureDirs {options : ExportOptions} {p : Utf8PathBuf}
    (hp : p ∈ repoStructureDirs options) : Utf8Path.NamesOnly p := by
  rw [repoStructureDirs_eq] at hp
  rcases List.mem_append.mp hp with h | h <;> clear hp
  · rcases List.mem_append.mp h with h' | h' <;> clear h
    · revert h' p; decide
    · obtain ⟨d, -, rfl⟩ := List.mem_map.mp h'
      exact namesOnly_map_normal ["sysroot", "ostree", "repo", "objects", hex2 d]
  · by_cases h0 : options.formatVersion = 0 <;> simp only [h0, if_true, if_false] at h <;>
      revert h p <;> decide

theorem namesOnly_of_configPath {options : ExportOptions} {p : Utf8PathBuf}
    (h : configPath options = some p) : Utf8Path.NamesOnly p := by
  unfold configPath at h
  split_ifs at h <;> cases h <;> decide

/-- A plain name below a directory of names, where `map_path` places it: after the names, or,
for `usr/etc`, from `etc` on. -/
theorem mapPath_join_names (names : List String) {name : String} (h : Utf8Path.IsPlain name) :
    ∃ p', mapPath (Utf8Path.join (.curDir :: names.map .normal) (Utf8Path.new name)) =
      .curDir :: p'.map .normal ∧ (p' = names ++ [name] ∨ p'.head? = some "etc") := by
  obtain ⟨p', hp', hpc⟩ := mapPath_names (names ++ [name])
  refine ⟨p', by rw [join_new_of_isPlain _ h, ← hp']; simp, ?_⟩
  rcases hpc with ⟨r, -, rfl⟩ | ⟨rfl, -⟩
  · exact .inr rfl
  · exact .inl rfl

/-- When the store's names are plain, a directory of the checkout is `./` and names below it,
none at the root only, and never `sysroot` first: the walk skips the root's. -/
theorem CheckoutDir.names (hplain : NamesPlain repo) {isRoot : Bool} {p : Utf8PathBuf}
    (h : CheckoutDir repo isRoot p) : ∃ names : List String, p = .curDir :: names.map .normal ∧
      (isRoot = true ↔ names = []) ∧ names.head? ≠ some sysroot := by
  induction h with
  | root => exact ⟨[], by decide, by simp, by simp⟩
  | @sub isRoot p t v name _ _ _ hv hd hroot ih =>
    obtain ⟨names, rfl, hiff, hhead⟩ := ih
    obtain ⟨p', hp', hpc⟩ := mapPath_join_names names
      (hplain _ _ hv name (List.mem_append_right _ (List.mem_map_of_mem Prod.fst hd)))
    refine ⟨p', hp', ?_, ?_⟩ <;> rcases hpc with rfl | hpc
    · simp
    · simp only [Bool.false_eq_true, false_iff]
      rintro rfl
      cases hpc
    · cases names with
      | nil => simpa using fun h => hroot ⟨hiff.mpr rfl, h⟩
      | cons n ns => simpa using hhead
    · rw [hpc]; simp [sysroot]

/-- When the store's names are plain, a path of the checkout is `./` and names below it that
start with `sysroot` only for a root-level file of that name. -/
theorem CheckoutPath.names (hplain : NamesPlain repo) {p : Utf8PathBuf} (h : CheckoutPath repo p) :
    ∃ names : List String, p = .curDir :: names.map .normal ∧
      (names.head? = some sysroot → names = [sysroot]) := by
  cases h with
  | dir hd =>
    obtain ⟨names, rfl, -, hhead⟩ := hd.names hplain
    exact ⟨names, rfl, fun h => absurd h hhead⟩
  | @file isRoot p t v name c hd hv hf =>
    obtain ⟨names, rfl, -, hhead⟩ := hd.names hplain
    obtain ⟨p', hp', hpc⟩ := mapPath_join_names names
      (hplain _ _ hv name (List.mem_append_left _ (List.mem_map_of_mem Prod.fst hf)))
    refine ⟨p', hp', fun h => ?_⟩
    rcases hpc with rfl | hpc
    · cases names with
      | nil => simpa using h
      | cons n ns =>
        simp only [List.cons_append, List.head?_cons] at h hhead
        exact absurd h hhead
    · rw [hpc] at h; simp [sysroot] at h

/-- The checkout's paths stay inside when the store's names are plain. -/
theorem CheckoutPath.staysInside {repo : Repo} (hplain : NamesPlain repo) {p : Utf8PathBuf}
    (h : CheckoutPath repo p) : Utf8Path.StaysInside p := by
  obtain ⟨names, rfl, -⟩ := h.names hplain
  exact List.forall_mem_cons.mpr ⟨⟨nofun, nofun⟩, (namesOnly_map_normal names).staysInside⟩

/-- No path of the checkout extracts below `sysroot/` when the store's names are plain. -/
theorem CheckoutPath.normalized_ne (hplain : NamesPlain repo) {p : Utf8PathBuf}
    (h : CheckoutPath repo p) {q : Utf8PathBuf} (hq : q ≠ []) :
    normalizedPath p ≠ .normal sysroot :: q := by
  obtain ⟨names, rfl, hhead⟩ := h.names hplain
  rw [normalizedPath_curDir_normal]
  intro hn
  cases names with
  | nil => cases hn
  | cons n ns =>
    simp only [List.map_cons, List.cons.injEq, Component.normal.injEq] at hn
    obtain ⟨rfl, rfl⟩ := hn
    obtain ⟨-, rfl⟩ := List.cons.inj (hhead rfl)
    exact hq rfl

/-- A path of names alone or of the checkout that extracts at a layout path is that very path,
when the store's names are plain. -/
theorem LayoutPath.eq_of_normalized (hplain : NamesPlain repo) (l : LayoutPath) {p : Utf8PathBuf}
    (hp : Utf8Path.NamesOnly p ∨ CheckoutPath repo p) (hn : normalizedPath p = l.path) :
    p = l.path := by
  obtain ⟨q, hq, hl⟩ := l.path_sysroot
  rcases hp with hp | hp
  · rwa [hp.normalizedPath_eq] at hn
  · exact absurd (hn.trans hl) (hp.normalized_ne hplain hq)

/-- Counted by where they extract, the entries at a layout path are those at that very path. -/
theorem count_normalized_layout (hplain : NamesPlain repo) {out : List Entry}
    (hw : ∀ e ∈ out, Utf8Path.NamesOnly e.path ∨ CheckoutPath repo e.path) (l : LayoutPath) :
    (out.map fun e => normalizedPath e.path).count l.path = (out.map Entry.path).count l.path := by
  simp only [List.count, List.countP_map]
  refine List.countP_congr fun e he => ?_
  simp only [Function.comp, beq_iff_eq]
  exact ⟨l.eq_of_normalized hplain (hw e he), fun h => h ▸ l.namesOnly.normalizedPath_eq⟩

/-- Every entry of a kind is at a path of names alone or at a path of the checkout. -/
theorem WrittenEntry.namesOnly_or_checkout (h : WrittenEntry repo options commit e) :
    Utf8Path.NamesOnly e.path ∨ CheckoutPath repo e.path := by
  cases h with
  | defaultDir hp => exact .inl (namesOnly_of_mem_repoStructureDirs hp)
  | config hcfg => exact .inl (namesOnly_of_configPath hcfg)
  | object => exact .inl (LayoutPath.object _ _).namesOnly
  | xattrsBlob d =>
    rw [defaultDataEntry_path, ← LayoutPath.path_xattrsBlob]; exact .inl (LayoutPath.namesOnly _)
  | xattrsLink c =>
    rw [defaultHardlinkEntry_path, ← LayoutPath.path_xattrsLink]
    exact .inl (LayoutPath.namesOnly _)
  | dir _ hp | checkoutLink hp => exact .inr hp
  | fileObject _ _ hce => rw [contentEntry_path hce]; exact .inl (LayoutPath.object .file _).namesOnly

/-- Every entry of a kind is at a path inside, when the store's names are plain. -/
theorem WrittenEntry.staysInside (hplain : NamesPlain repo)
    (h : WrittenEntry repo options commit e) : Utf8Path.StaysInside e.path :=
  h.namesOnly_or_checkout.elim Utf8Path.NamesOnly.staysInside (CheckoutPath.staysInside hplain)

end Properties

/-- What `export_commit` writes, whether it succeeds or stops on an error, is empty, or has begun
as `write_commit` begins an archive of the revision's commit. -/
theorem exportCommit_begun (repo : Repo) (sha256 : Bytes → Checksum) (fuel : Nat) (rev : String)
    (options : Option ExportOptions) :
    (finalState (exportCommit repo sha256 fuel rev options)).out = [] ∧
        (∀ commit, repo.requireRev rev ≠ .ok commit) ∨
      ∃ commit, repo.requireRev rev = .ok commit ∧
        Begun repo (options.getD {}) commit
          (finalState (exportCommit repo sha256 fuel rev options)).out := by
  rw [exportCommit_eq]
  rcases repo.requireRev rev with e | commit
  · exact .inl ⟨rfl, nofun⟩
  refine .inr ⟨commit, rfl, ?_⟩
  have hw := writeCommit_begun repo (options.getD {}) sha256 fuel commit
  dsimp only
  rcases hr : writeCommit repo (options.getD {}) sha256 fuel commit OstreeTarWriter.new with
    ⟨u, w⟩ | ⟨e, w⟩ <;> rw [hr] at hw <;> exact hw

/-- Every entry `export_commit` writes, whether it succeeds or stops on an error, is one the
writer makes. -/
theorem exportCommit_writtenEntry (repo : Repo) (sha256 : Bytes → Checksum) (fuel : Nat)
    (rev : String) (options : Option ExportOptions) :
    ∀ e ∈ (finalState (exportCommit repo sha256 fuel rev options)).out,
      ∃ commit, repo.requireRev rev = .ok commit ∧
        WrittenEntry repo (options.getD {}) commit e := by
  rcases exportCommit_begun repo sha256 fuel rev options with h | ⟨commit, hc, h⟩
  · rw [h.1]; exact nofun
  · exact fun e he => ⟨commit, hc, h.written e he⟩

/-- Once the revision resolves, and the commit and its root DirMeta load, in a format with a
configuration, whatever `export_commit` writes holds the root directory and the commit object. -/
theorem exportCommit_started {repo : Repo} {sha256 : Bytes → Checksum} {fuel : Nat} {rev : String}
    {options : Option ExportOptions} {commit : Checksum} {commitV : CommitObject}
    {metadataV : DirMetaObject} {cfg : Utf8PathBuf} (hr : repo.requireRev rev = .ok commit)
    (hc : repo.loadCommit commit = .ok commitV)
    (hm : repo.loadDirMeta commitV.metadata = .ok metadataV)
    (hcfg : configPath (options.getD {}) = some cfg) :
    dirEntry (options.getD {}) (Utf8Path.new "./") metadataV.parsed ∈
        (finalState (exportCommit repo sha256 fuel rev options)).out ∧
      defaultDataEntry (objectPath .commit commit) commitV.bytes ∈
        (finalState (exportCommit repo sha256 fuel rev options)).out := by
  rcases exportCommit_begun repo sha256 fuel rev options with h | ⟨commit', hr', h⟩
  · exact absurd hr (h.2 commit)
  · cases hr.symm.trans hr'
    exact h.started _ _ _ hc hm hcfg

/-- What the sample store's export writes in format 1. -/
def sampleExport : List Entry :=
  (finalState (exportCommit sampleRepo (fun _ => sampleDigest) 4 "main" (some ⟨1⟩))).out

theorem sampleExport_started :
    dirEntry ⟨1⟩ (Utf8Path.new "./") ⟨0, 0, 0o40755⟩ ∈ sampleExport ∧
      defaultDataEntry (objectPath .commit sampleCommit) [1] ∈ sampleExport :=
  @exportCommit_started sampleRepo (fun _ => sampleDigest) 4 "main" (some ⟨1⟩) _ _ _ _ rfl rfl rfl rfl

theorem sampleRepo_namesPlain : NamesPlain sampleRepo := by
  intro c v h
  simp only [sampleRepo] at h
  split_ifs at h <;> cases h <;> decide

/-- Whatever `export_commit` writes, whether it succeeds or stops on an error, extracts at most one
entry at each object's path and at most one at each file's xattrs link, when the store's names
are plain. -/
theorem exportCommit_written_once (repo : Repo) (sha256 : Bytes → Checksum) (fuel : Nat)
    (rev : String) (options : Option ExportOptions) (hplain : NamesPlain repo) :
    (∀ objtype c, ((finalState (exportCommit repo sha256 fuel rev options)).out.map
      fun e => normalizedPath e.path).count (objectPath objtype c) ≤ 1) ∧
    ∀ c, ((finalState (exportCommit repo sha256 fuel rev options)).out.map
      fun e => normalizedPath e.path).count (xattrsLinkPath (options.getD {}) c) ≤ 1 := by
  have hw : ∀ e ∈ (finalState (exportCommit repo sha256 fuel rev options)).out,
      Utf8Path.NamesOnly e.path ∨ CheckoutPath repo e.path := fun e he =>
    (exportCommit_writtenEntry repo sha256 fuel rev options e he).elim fun _ h =>
      h.2.namesOnly_or_checkout
  obtain ⟨hobj, hlink⟩ := exportCommit_paths_once repo sha256 fuel rev options
  refine ⟨fun objtype c => (count_normalized_layout hplain hw (.object objtype c)).trans_le
    (hobj objtype c), fun c => ?_⟩
  have hc := count_normalized_layout hplain hw (.xattrsLink (options.getD {}) c)
  rw [LayoutPath.path_xattrsLink] at hc
  exact hc.trans_le (hlink c)

theorem exportCommit_written_once_sample :
    NamesPlain sampleRepo ∧
      (sampleExport.map fun e => normalizedPath e.path).count (objectPath .commit sampleCommit) ≤ 1 :=
  ⟨sampleRepo_namesPlain, (exportCommit_written_once sampleRepo (fun _ => sampleDigest) 4 "main"
    (some ⟨1⟩) sampleRepo_namesPlain).1 .commit sampleCommit⟩

/-- Every entry whatever `export_commit` writes, whether it succeeds or stops on an error, that
extracts at an object path is an object of the commit's closure, when the store's names are
plain: the commit, its metadata, the root DirMeta, a DirTree the walk enters, or a DirMeta or
file such a DirTree lists. -/
theorem exportCommit_objects_in_closure (repo : Repo) (sha256 : Bytes → Checksum) (fuel : Nat)
    (rev : String) (options : Option ExportOptions) (hplain : NamesPlain repo) :
    ∀ e ∈ (finalState (exportCommit repo sha256 fuel rev options)).out, ∀ objtype c,
      normalizedPath e.path = objectPath objtype c →
        ∃ commit, repo.requireRev rev = .ok commit ∧ InClosure repo commit objtype c :=
  fun e he objtype c hn => (exportCommit_writtenEntry repo sha256 fuel rev options e he).elim
    fun commit h => ⟨commit, h.1, h.2.inClosure
      (LayoutPath.eq_of_normalized hplain (.object objtype c) h.2.namesOnly_or_checkout hn)⟩

theorem exportCommit_objects_in_closure_sample :
    NamesPlain sampleRepo ∧ defaultDataEntry (objectPath .commit sampleCommit) [1] ∈ sampleExport ∧
      ∃ commit, sampleRepo.requireRev "main" = .ok commit ∧
        InClosure sampleRepo commit .commit sampleCommit :=
  ⟨sampleRepo_namesPlain, sampleExport_started.2, exportCommit_objects_in_closure sampleRepo
    (fun _ => sampleDigest) 4 "main" (some ⟨1⟩) sampleRepo_namesPlain _ sampleExport_started.2
    .commit sampleCommit (LayoutPath.object .commit sampleCommit).namesOnly.normalizedPath_eq⟩

/-- Each header `export_commit` writes gives the length of the data after it, when the store gives
each regular file its content's length as size. -/
theorem exportCommit_sizes (repo : Repo) (sha256 : Bytes → Checksum) (fuel : Nat) (rev : String)
    (options : Option ExportOptions)
    (hsize : ∀ c file meta instream, repo.loadFile c = .ok file → file.meta = some meta →
      file.instream = some instream → meta.size = instream.length) :
    ∀ e ∈ (finalState (exportCommit repo sha256 fuel rev options)).out,
      e.header.size = e.data.length := fun e he =>
  (exportCommit_writtenEntry repo sha256 fuel rev options e he).elim fun _ h => h.2.size_eq hsize

theorem exportCommit_sizes_sample :
    (∀ c file meta instream, sampleRepo.loadFile c = .ok file → file.meta = some meta →
      file.instream = some instream → meta.size = instream.length) ∧
    defaultDataEntry (objectPath .commit sampleCommit) [1] ∈ sampleExport ∧
    (defaultDataEntry (objectPath .commit sampleCommit) [1]).header.size =
      (defaultDataEntry (objectPath .commit sampleCommit) [1]).data.length := by
  have hsize : ∀ c file meta instream, sampleRepo.loadFile c = .ok file →
      file.meta = some meta → file.instream = some instream → meta.size = instream.length := by
    rintro c file meta instream ⟨⟩ ⟨⟩ ⟨⟩; rfl
  exact ⟨hsize, sampleExport_started.2,
    exportCommit_sizes sampleRepo _ 4 "main" _ hsize _ sampleExport_started.2⟩

/-- Outside format 0 no mode `export_commit` writes has file-type bits. -/
theorem exportCommit_modes (repo : Repo) (sha256 : Bytes → Checksum) (fuel : Nat) (rev : String)
    (options : Option ExportOptions) (h0 : (options.getD {}).formatVersion ≠ 0) :
    ∀ e ∈ (finalState (exportCommit repo sha256 fuel rev options)).out,
      e.header.mode &&& S_IFMT = 0 := fun e he =>
  (exportCommit_writtenEntry repo sha256 fuel rev options e he).elim fun _ h => h.2.mode_fileType h0

/-- The sample's root directory, of mode `0o40755` in the store, is written without its
file-type bits. -/
theorem exportCommit_modes_sample :
    ((some ⟨1⟩ : Option ExportOptions).getD {}).formatVersion ≠ 0 ∧
    dirEntry ⟨1⟩ (Utf8Path.new "./") ⟨0, 0, 0o40755⟩ ∈ sampleExport ∧
    (dirEntry ⟨1⟩ (Utf8Path.new "./") ⟨0, 0, 0o40755⟩).header.mode &&& S_IFMT = 0 :=
  ⟨by decide, sampleExport_started.1,
    exportCommit_modes sampleRepo _ 4 "main" _ (by decide) _ sampleExport_started.1⟩

/-- Every path `export_commit` writes is relative and free of `..` when the store's names are
plain, so the archive unpacks below the directory it is unpacked in. -/
theorem exportCommit_paths_inside (repo : Repo) (sha256 : Bytes → Checksum) (fuel : Nat)
    (rev : String) (options : Option ExportOptions) (hplain : NamesPlain repo) :
    ∀ e ∈ (finalState (exportCommit repo sha256 fuel rev options)).out,
      Utf8Path.StaysInside e.path := fun e he =>
  (exportCommit_writtenEntry repo sha256 fuel rev options e he).elim fun _ h =>
    h.2.staysInside hplain

theorem exportCommit_paths_inside_sample :
    NamesPlain sampleRepo ∧
    dirEntry ⟨1⟩ (Utf8Path.new "./") ⟨0, 0, 0o40755⟩ ∈ sampleExport ∧
    Utf8Path.StaysInside (dirEntry ⟨1⟩ (Utf8Path.new "./") ⟨0, 0, 0o40755⟩).path :=
  ⟨sampleRepo_namesPlain, sampleExport_started.1, exportCommit_paths_inside sampleRepo _ 4 "main" _
    sampleRepo_namesPlain _ sampleExport_started.1⟩

end OstreeTar
