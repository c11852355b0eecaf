import OstreeTar.Export.Layout

/-!
# The export writer (`tar/export.rs`)

`OstreeTarWriter` and its methods, each an `EStateM` action on what the writer owns: the entries
appended to its `tar::Builder`, `wrote_initdirs` and the four membership sets.  The repository,
the options and `openssl`'s SHA-256 stay fixed over a run and are parameters.  A failed action
keeps the writer's state at the point of failure: that is what the caller's stream received.
`debug_assert!` is taken as a debug build runs it, where a failed check aborts the export.

The store is an external collaborator, given by its lookups.  `append_dirtree` recurses along
the store's DirTree graph, which nothing bounds: it takes `fuel`, standing for the stack depth,
and a cycle of DirTrees exhausts it as it would overflow the stack.
-/

namespace OstreeTar

/-- The parsed `DirMeta` record (`ostree::DirMetaParsed`). -/
structure DirMetaParsed where
  uid : UInt32
  gid : UInt32
  mode : UInt32
  deriving DecidableEq, Repr

/-- A `DirMeta` as `load_variant` returns it: the variant's bytes, and its fields. -/
structure DirMetaObject where
  bytes : Bytes
  parsed : DirMetaParsed

/-- A `DirTree` as `load_variant` returns it, cast by `gv_dirtree!`: the variant's bytes, the file
entries `(name, checksum)` and the directory entries `(name, contents, metadata)`. -/
structure DirTreeObject where
  bytes : Bytes
  files : List (String × Checksum)
  dirs : List (String × Checksum × Checksum)

/-- A commit as `load_commit` returns it, cast by `gv_commit!`: the variant's bytes, the root
DirTree (field 6) and the root DirMeta (field 7). -/
structure CommitObject where
  bytes : Bytes
  contents : Checksum
  metadata : Checksum

/-- `gio::FileType`, as far as the writer tells file types apart. -/
inductive FileType
  | regular
  | symbolicLink
  | other
  deriving DecidableEq, Repr

/-- The attributes the writer reads from a file object's `gio::FileInfo`. -/
structure FileInfo where
  uid : UInt32
  gid : UInt32
  mode : UInt32
  fileType : FileType
  size : Nat
  symlinkTarget : Option String

/-- What `Repo::load_file` returns: the content stream (of a regular file), the file info and the
xattrs variant's bytes. -/
structure LoadedFile where
  instream : Option Bytes
  meta : Option FileInfo
  xattrs : Option Bytes

/-- The object store, by the lookups the export makes; each may fail with the store's error. -/
structure Repo where
  requireRev : String → Except String Checksum
  loadCommit : Checksum → Except String CommitObject
  loadDirTree : Checksum → Except String DirTreeObject
  loadDirMeta : Checksum → Except String DirMetaObject
  readCommitDetachedMetadata : Checksum → Except String (Option Bytes)
  loadFile : Checksum → Except String LoadedFile

/-- The four membership sets of the writer. -/
inductive WroteSet
  | dirtree
  | dirmeta
  | content
  | xattrs
  deriving DecidableEq, Repr

/-- `OstreeTarWriter`, less the fields fixed for a run. -/
structure OstreeTarWriter where
  out : List Entry
  wroteInitdirs : Bool
  wroteDirtree : List Checksum
  wroteDirmeta : List Checksum
  wroteContent : List Checksum
  wroteXattrs : List Checksum

namespace OstreeTarWriter

/-- `OstreeTarWriter::new`: nothing written yet. -/
def new : OstreeTarWriter := ⟨[], false, [], [], [], []⟩

/-- One of the membership sets. -/
def wrote (w : OstreeTarWriter) : WroteSet → List Checksum
  | .dirtree => w.wroteDirtree
  | .dirmeta => w.wroteDirmeta
  | .content => w.wroteContent
  | .xattrs => w.wroteXattrs

/-- Replace one of the membership sets. -/
def setWrote (w : OstreeTarWriter) : WroteSet → List Checksum → OstreeTarWriter
  | .dirtree, s => { w with wroteDirtree := s }
  | .dirmeta, s => { w with wroteDirmeta := s }
  | .content, s => { w with wroteContent := s }
  | .xattrs, s => { w with wroteXattrs := s }

end OstreeTarWriter

/-- The writer's actions. -/
abbrev WriterM := EStateM String OstreeTarWriter

/-- `anyhow`'s `.context(msg)`: an error is prefixed with what was being done. -/
def context {α : Type} (msg : String) (x : WriterM α) : WriterM α := fun w =>
  match x w with
  | .ok a w' => .ok a w'
  | .error e w' => .error (msg ++ ": " ++ e) w'

/-- `debug_assert!(inserted)`. -/
def debugAssert (inserted : Bool) : WriterM Unit :=
  if inserted then pure () else throw "assertion failed: inserted"

/-- `ensure!(cond)`. -/
def ensure (cond : Bool) (text : String) : WriterM Unit :=
  if cond then pure () else throw ("Condition failed: `" ++ text ++ "`")

/-- `HashSet::insert`: add the checksum, and say whether it was new. -/
def insertWrote (which : WroteSet) (checksum : Checksum) : WriterM Bool :=
  modifyGet fun w =>
    (!decide (checksum ∈ w.wrote which), w.setWrote which ((w.wrote which).insert checksum))

/-- `tar::Builder::append_data`: an entry with the header as given. -/
def appendData (h : Header) (path : Utf8PathBuf) (data : Bytes) : WriterM Unit :=
  modify fun w => { w with out := w.out ++ [⟨path, h, data⟩] }

/-- `tar::Builder::append_link`: the link name goes through `prepare_header_link`; no data. -/
def appendLink (h : Header) (path : Utf8PathBuf) (target : String) : WriterM Unit := do
  let h ← liftExcept (prepareHeaderLink h target)
  appendData h path []

/-- `{:02x}`. -/
def hex2 (d : Nat) : String := String.mk [Nat.digitChar (d / 16), Nat.digitChar (d % 16)]

/-- The membership set `append` checks for an object type, if any; `panic!` on a file. -/
def appendSet : ObjectType → Except String (Option WroteSet)
  | .commit | .commitMeta => .ok none
  | .dirTree => .ok (some .dirtree)
  | .dirMeta => .ok (some .dirmeta)
  | .file => .error "Unexpected object type: File"

/-- The paths `append_xattrs` writes in a format version: the xattrs blob, named by the digest of
its bytes, and the per-file link, named by the file's checksum.  The code's two branches differ
in these paths only. -/
def xattrsPaths (formatVersion : UInt32) (xattrsChecksum checksum : Checksum) :
    Option (Utf8PathBuf × Utf8PathBuf) :=
  if formatVersion = 0 then some (v0XattrsPath xattrsChecksum, v0XattrsObjectPath checksum)
  else if formatVersion = 1 then
    some (v1XattrsObjectPath xattrsChecksum, v1XattrsLinkObjectPath checksum)
  else none

section Writer

variable (repo : Repo) (options : ExportOptions) (sha256 : Bytes → Checksum)

/-- `append_default_dir`: a directory of root/root with mode 0755. -/
def appendDefaultDir (path : Utf8PathBuf) : WriterM Unit :=
  appendData
    { Header.newGnu with entryType := .directory, uid := 0, gid := 0, mode := 0o755, size := 0 }
    path []

/-- `append_default_data`: a regular file of root/root with mode 0644. -/
def appendDefaultData (path : Utf8PathBuf) (data : Bytes) : WriterM Unit :=
  appendData
    { Header.newGnu with entryType := .regular, uid := 0, gid := 0, mode := 0o644,
                         size := data.length }
    path data

/-- `append_default_hardlink`: a hard link of root/root with mode 0644. -/
def appendDefaultHardlink (path linkTarget : Utf8PathBuf) : WriterM Unit :=
  appendLink
    { Header.newGnu with entryType := .link, uid := 0, gid := 0, mode := 0o644, size := 0 }
    path (Utf8Path.render linkTarget)

/-- `write_repo_structure`: the directories of `sysroot/ostree/repo` and its configuration. -/
def writeRepoStructure : WriterM Unit := do
  if (← get).wroteInitdirs then pure () else
  let objdir := ostreeDir ++ [.normal "repo", .normal "objects"]
  -- All parent directories, skipping `/` and the empty path.
  (Utf8Path.ancestors objdir).reverse.forM fun path =>
    if path = [] ∨ path = [.rootDir] then pure () else appendDefaultDir path
  (List.range 256).forM fun d => appendDefaultDir (objdir ++ [.normal (hex2 d)])
  ["tmp", "tmp/cache"].forM fun d =>
    appendDefaultDir (ostreeDir ++ [.normal "repo"] ++ Utf8Path.new d)
  ["refs", "refs/heads", "refs/mirrors", "refs/remotes"].forM fun d =>
    appendDefaultDir (ostreeDir ++ [.normal "repo"] ++ Utf8Path.new d)
  if options.formatVersion = 0 then
    appendDefaultDir (ostreeDir ++ [.normal "repo", .normal "xattrs"])
  let path ←
    if options.formatVersion = 0 then pure [.normal sysroot, .normal "config"]
    else if options.formatVersion = 1 then pure (ostreeDir ++ [.normal "repo", .normal "config"])
    else throw ("Unsupported ostree tar format version " ++ toString options.formatVersion)
  appendDefaultData path repoConfig.toUTF8.data.toList
  modify fun w => { w with wroteInitdirs := true }

/-- `append`: a metadata object, once per checksum for DirTrees and DirMetas. -/
def append (objtype : ObjectType) (checksum : Checksum) (v : Bytes) : WriterM Unit := do
  let write := context ("Writing object " ++ checksum.str)
    (appendDefaultData (objectPath objtype checksum) v)
  match ← liftExcept (appendSet objtype) with
  | some set =>
    if checksum ∈ (← get).wrote set then pure () else
    let inserted ← insertWrote set checksum
    debugAssert inserted
    write
  | none => write

/-- `append_xattrs`: export a file's xattrs, and say whether content was written. -/
def appendXattrs (checksum : Checksum) (xattrs : Bytes) : WriterM Bool :=
  context "Writing xattrs" do
    if xattrs.isEmpty && options.formatVersion == 0 then pure false else
    let xattrsChecksum := sha256 xattrs
    match xattrsPaths options.formatVersion xattrsChecksum checksum with
    | none => throw ("Unknown format version '" ++ toString options.formatVersion ++ "'")
    | some (path, linkPath) =>
      if xattrsChecksum ∉ (← get).wroteXattrs then
        let inserted ← insertWrote .xattrs checksum
        debugAssert inserted
        appendDefaultData path xattrs
      appendDefaultHardlink linkPath path
      pure true

/-- `append_content`: write a file object once, its xattrs first, and return the path and header
for a hard link to it, as a checkout would make. -/
def appendContent (checksum : Checksum) : WriterM (Utf8PathBuf × Header) := do
  let path := objectPath .file checksum
  let file ← liftExcept (repo.loadFile checksum)
  let meta ← match file.meta with
    | some meta => pure meta
    | none => throw ("Missing metadata for object " ++ checksum.str)
  let xattrs ← match file.xattrs with
    | some xattrs => pure xattrs
    | none => throw ("Missing xattrs for object " ++ checksum.str)
  let h := { Header.newGnu with uid := meta.uid.toNat, gid := meta.gid.toNat,
                                 mode := filterMode options meta.mode }
  let targetHeader := { h with size := 0 }
  if checksum ∉ (← get).wroteContent then
    let inserted ← insertWrote .content checksum
    debugAssert inserted
    -- The xattrs objects need to be exported before the regular object they refer to.
    let _ ← appendXattrs options sha256 checksum xattrs
    match file.instream with
    | some instream =>
      ensure (meta.fileType == .regular) "meta.file_type() == gio::FileType::Regular"
      context ("Writing regfile " ++ checksum.str)
        (appendData { h with entryType := .regular, size := meta.size } path instream)
    | none =>
      ensure (meta.fileType == .symbolicLink) "meta.file_type() == gio::FileType::SymbolicLink"
      let target ← match meta.symlinkTarget with
        | some target => pure target
        | none => throw "Missing symlink target"
      let h := { h with entryType := .symlink, size := 0 }
      context ("Writing content symlink: " ++ checksum.str) do
        if symlinkIsDenormal target then
          let h ← liftExcept (h.setLinkNameLiteral target)
          appendData h path []
        else appendLink h path target
  pure (path, targetHeader)

/-- `append_dir`: a directory with the metadata's owner and mode. -/
def appendDir (dirpath : Utf8PathBuf) (meta : DirMetaParsed) : WriterM Unit :=
  appendData
    { Header.newGnu with entryType := .directory, size := 0, uid := meta.uid.toNat,
                         gid := meta.gid.toNat, mode := filterMode options meta.mode }
    dirpath []

/-- The body of `append_dirtree`'s loop over files: the object, then a hard link to it at the
file's path. -/
def appendFileEntry (dirpath : Utf8PathBuf) (file : String × Checksum) : WriterM Unit := do
  let (name, csum) := file
  let (objpath, h) ← appendContent repo options sha256 csum
  let h ← liftExcept ({ h with entryType := .link }.setLinkName (Utf8Path.render objpath))
  appendData h (mapPath (Utf8Path.join dirpath (Utf8Path.new name))) []

/-- The body of `append_dirtree`'s loop over directories, given the recursive call: the DirMeta
object, then (but for `sysroot` at the root) a directory entry and the subtree. -/
def appendDirEntry (recurse : Utf8PathBuf → Checksum → WriterM Unit) (dirpath : Utf8PathBuf)
    (isRoot : Bool) (item : String × Checksum × Checksum) : WriterM Unit := do
  let (name, contentsCsum, metaCsum) := item
  let metaV ← liftExcept (repo.loadDirMeta metaCsum)
  append .dirMeta metaCsum metaV.bytes
  -- Special hack because tar stream for containers can't have duplicates.
  if isRoot && name == sysroot then pure () else
  let subpath := mapPath (Utf8Path.join dirpath (Utf8Path.new name))
  appendDir options subpath metaV.parsed
  recurse subpath contentsCsum

/-- `append_dirtree`: the DirTree object, then a hard link per file, then per directory its
DirMeta object, a directory entry and the recursion (skipping `sysroot` at the root). -/
def appendDirtree : Nat → Utf8PathBuf → Checksum → Bool → WriterM Unit
  | 0, _, _, _ => throw "recursion depth exhausted"
  | fuel + 1, dirpath, checksum, isRoot => do
    let v ← liftExcept (repo.loadDirTree checksum)
    append .dirTree checksum v.bytes
    v.files.forM (appendFileEntry repo options sha256 dirpath)
    v.dirs.forM (appendDirEntry repo options (fun p c => appendDirtree fuel p c false) dirpath isRoot)

/-- `write_commit`: the root directory first, then the repository scaffolding, the commit, its
detached metadata, the root DirMeta, and the tree. -/
def writeCommit (fuel : Nat) (checksum : Checksum) : WriterM Unit := do
  let commitV ← liftExcept (repo.loadCommit checksum)
  let metadataV ← liftExcept (repo.loadDirMeta commitV.metadata)
  -- The root directory is written before any objects.
  appendDir options (Utf8Path.new "./") metadataV.parsed
  writeRepoStructure options
  append .commit checksum commitV.bytes
  match ← liftExcept (repo.readCommitDetachedMetadata checksum) with
  | some commitmeta => append .commitMeta checksum commitmeta
  | none => pure ()
  append .dirMeta commitV.metadata metadataV.bytes
  appendDirtree repo options sha256 fuel (Utf8Path.new "./") commitV.contents true

end Writer

/-- `export_commit`, run on a new writer: the result, and the writer's state at the end, whose
`out` is everything the stream received. -/
def exportCommit (repo : Repo) (sha256 : Bytes → Checksum) (fuel : Nat) (rev : String)
    (options : Option ExportOptions) : EStateM.Result String OstreeTarWriter Unit :=
  context "Exporting commit" (do
    let commit ← liftExcept (repo.requireRev rev)
    writeCommit repo (options.getD {}) sha256 fuel commit) OstreeTarWriter.new

end OstreeTar
