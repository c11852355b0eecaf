import OstreeTar.Export.Steps

/-!
# The checkout part of the archive

Besides the repository under `sysroot/`, the writer lays out a checkout of the commit: the root
directory `./`, then for each DirTree a hard link per file into the object store and a directory
entry per subdirectory, followed by that subdirectory's own listing.  `checkoutListing` is that
listing as a checkout lays it out: each entry at the `map_path` image of its logical path.

The writer instead maps each parent path once and passes the mapped path down the recursion, so
what it writes is `map_path (map_path parent / name)`.  Along the paths the walk builds the two
agree (`mapPath_join_mapPath`), and since the membership sets only suppress object entries, the
checkout entries of a successful export are exactly the listing (`exportCommit_checkout`).
-/

namespace OstreeTar

/-! ## Paths of the walk -/

/-- A component a path's body may hold: a name or `..`; a root or `.` only begins a path. -/
def Component.IsInner : Component → Prop
  | .normal _ | .parentDir => True
  | .rootDir | .curDir => False

theorem pieceComponent_isInner {piece : List Char} {c : Component}
    (h : Utf8Path.pieceComponent piece = some c) : c.IsInner := by
  unfold Utf8Path.pieceComponent at h
  split_ifs at h <;> cases h <;> trivial

theorem bodyComponents_isInner (cs : List Char) : ∀ c ∈ Utf8Path.bodyComponents cs, c.IsInner :=
  fun _ hc => pieceComponent_isInner (List.mem_filterMap.mp hc).choose_spec.2

/-- A body of names and `..` is appended by `join`. -/
theorem join_of_isInner {p q : Utf8PathBuf} (hq : ∀ c ∈ q, c.IsInner) :
    Utf8Path.join p q = p ++ q := by
  match q, hq with
  | [], _ => rfl
  | .normal _ :: _, _ => rfl
  | .parentDir :: _, _ => rfl
  | .rootDir :: _, hq => exact (hq _ (List.mem_cons_self _ _)).elim
  | .curDir :: _, hq => exact (hq _ (List.mem_cons_self _ _)).elim

/-- Joining a parsed name either replaces the base by an absolute path or appends a body, the
same for every non-empty base. -/
theorem join_new (name : String) : ∃ b, (∀ c ∈ b, c.IsInner) ∧
    ((∀ p, Utf8Path.join p (Utf8Path.new name) = .rootDir :: b) ∨
      ∀ p ≠ [], Utf8Path.join p (Utf8Path.new name) = p ++ b) := by
  unfold Utf8Path.new
  split
  · exact ⟨_, bodyComponents_isInner _, .inl fun _ => rfl⟩
  · next rest _ =>
    split
    · exact ⟨Utf8Path.bodyComponents rest, bodyComponents_isInner _,
        .inr fun p hp => by simp [Utf8Path.join, hp]⟩
    · exact ⟨_, bodyComponents_isInner _, .inr fun _ _ => join_of_isInner (bodyComponents_isInner _)⟩
  · exact ⟨_, bodyComponents_isInner _, .inr fun _ _ => join_of_isInner (bodyComponents_isInner _)⟩

/-- A path as `append_dirtree` builds it from `./`: `.` or `/`, then names and `..`. -/
def WalkPath (p : Utf8PathBuf) : Prop :=
  ∃ t, (p = .curDir :: t ∨ p = .rootDir :: t) ∧ ∀ c ∈ t, c.IsInner

theorem WalkPath.ne_nil {p : Utf8PathBuf} (hp : WalkPath p) : p ≠ [] := by
  obtain ⟨t, rfl | rfl, -⟩ := hp <;> simp

theorem WalkPath.append {p b : Utf8PathBuf} (hp : WalkPath p) (hb : ∀ c ∈ b, c.IsInner) :
    WalkPath (p ++ b) := by
  obtain ⟨t, hpt, ht⟩ := hp
  refine ⟨t ++ b, by rcases hpt with rfl | rfl <;> simp, fun c hc => ?_⟩
  rcases List.mem_append.mp hc with hc | hc
  · exact ht c hc
  · exact hb c hc

theorem WalkPath.join {p : Utf8PathBuf} (hp : WalkPath p) (name : String) :
    WalkPath (Utf8Path.join p (Utf8Path.new name)) := by
  obtain ⟨b, hb, h | h⟩ := join_new name
  · exact h p ▸ ⟨b, .inr rfl, hb⟩
  · exact h p hp.ne_nil ▸ hp.append hb

/-! ## `map_path` -/

theorem new_usrEtc : Utf8Path.new "./usr/etc" = [.curDir, .normal "usr", .normal "etc"] := by
  decide

theorem new_etc : Utf8Path.new "./etc" = [.curDir, .normal "etc"] := by decide

theorem stripPrefix_eq_some {p base r : Utf8PathBuf} :
    Utf8Path.stripPrefix p base = some r ↔ p = base ++ r := by
  induction base generalizing p with
  | nil => simp [Utf8Path.stripPrefix, eq_comm]
  | cons b base ih =>
    cases p with
    | nil => simp [Utf8Path.stripPrefix]
    | cons a p => by_cases h : a = b <;> simp [Utf8Path.stripPrefix, h, ih]

/-- The paths `map_path` rewrites, `./usr/etc` and below, and what it makes of them. -/
theorem mapPath_usrEtc {r : Utf8PathBuf} (hr : ∀ c ∈ r, c.IsInner) :
    mapPath (.curDir :: .normal "usr" :: .normal "etc" :: r) = .curDir :: .normal "etc" :: r := by
  simp [mapPath, new_usrEtc, new_etc, Utf8Path.stripPrefix, join_of_isInner hr]

theorem mapPath_of_not_usrEtc {p : Utf8PathBuf}
    (h : ∀ r, p ≠ .curDir :: .normal "usr" :: .normal "etc" :: r) : mapPath p = p := by
  unfold mapPath
  split
  · next r hr => exact absurd (stripPrefix_eq_some.mp (new_usrEtc ▸ hr)) (h r)
  · rfl

theorem mapPath_curDir : mapPath [.curDir] = [.curDir] :=
  mapPath_of_not_usrEtc fun _ h => by cases h

/-- The writer's root, `./`, is a walk path that `map_path` leaves alone. -/
theorem new_curDir : Utf8Path.new "./" = mapPath [.curDir] := by
  rw [mapPath_curDir]; decide

theorem walkPath_curDir : WalkPath [.curDir] := ⟨[], .inl rfl, by simp⟩

/-- On a walk path, `map_path` rewrites `./usr/etc` and below, and leaves every other path. -/
theorem WalkPath.mapPath_cases {p : Utf8PathBuf} (hp : WalkPath p) :
    (∃ r, (∀ c ∈ r, c.IsInner) ∧ p = .curDir :: .normal "usr" :: .normal "etc" :: r ∧
      mapPath p = .curDir :: .normal "etc" :: r) ∨ mapPath p = p := by
  by_cases h : ∃ r, p = .curDir :: .normal "usr" :: .normal "etc" :: r
  · obtain ⟨r, rfl⟩ := h
    obtain ⟨t, ht | ht, hin⟩ := hp <;> simp only [List.cons.injEq, reduceCtorEq, false_and] at ht
    have hr : ∀ c ∈ r, c.IsInner := fun c hc => hin c (ht.2 ▸ by simp [hc])
    exact .inl ⟨r, hr, rfl, mapPath_usrEtc hr⟩
  · exact .inr (mapPath_of_not_usrEtc (not_exists.mp h))

theorem WalkPath.mapPath {p : Utf8PathBuf} (hp : WalkPath p) : WalkPath (OstreeTar.mapPath p) := by
  rcases hp.mapPath_cases with ⟨r, hr, -, hmap⟩ | hmap <;> rw [hmap]
  · exact ⟨.normal "etc" :: r, .inl rfl, by simpa [Component.IsInner] using hr⟩
  · exact hp

/-- Appending a body to the mapped path, then mapping, maps the whole path. -/
theorem mapPath_append_mapPath {p b : Utf8PathBuf} (hp : WalkPath p) (hb : ∀ c ∈ b, c.IsInner) :
    mapPath (mapPath p ++ b) = mapPath (p ++ b) := by
  rcases hp.mapPath_cases with ⟨r, hr, rfl, hmap⟩ | hmap
  · have hrb : ∀ c ∈ r ++ b, c.IsInner := fun c hc => (List.mem_append.mp hc).elim (hr c) (hb c)
    rw [hmap, List.cons_append, List.cons_append, List.cons_append, List.cons_append,
      List.cons_append, mapPath_usrEtc hrb]
    exact mapPath_of_not_usrEtc fun _ h => by simp at h
  · rw [hmap]

/-- `map_path` of the already-mapped parent joined with a name is `map_path` of the logical
path: what lets the writer pass mapped paths down the recursion. -/
theorem mapPath_join_mapPath {p : Utf8PathBuf} (hp : WalkPath p) (name : String) :
    mapPath (Utf8Path.join (mapPath p) (Utf8Path.new name)) =
      mapPath (Utf8Path.join p (Utf8Path.new name)) := by
  obtain ⟨b, hb, h | h⟩ := join_new name
  · rw [h, h]
  · rw [h _ hp.mapPath.ne_nil, h _ hp.ne_nil, mapPath_append_mapPath hp hb]

/-! ## The checkout part and the repository part -/

/-- A path of the checkout starts at `.` or `/`. -/
def isCheckoutPath : Utf8PathBuf → Bool
  | .curDir :: _ | .rootDir :: _ => true
  | _ => false

/-- A path of the repository: under `sysroot`. -/
def IsRepoPath (p : Utf8PathBuf) : Prop := ∃ q, p = .normal sysroot :: q

theorem WalkPath.isCheckoutPath {p : Utf8PathBuf} (hp : WalkPath p) : isCheckoutPath p = true := by
  obtain ⟨t, rfl | rfl, -⟩ := hp <;> rfl

theorem IsRepoPath.isCheckoutPath {p : Utf8PathBuf} (hp : IsRepoPath p) :
    isCheckoutPath p = false := by
  obtain ⟨q, rfl⟩ := hp; rfl

@[simp] theorem isRepoPath_ostreeDir_append (q : Utf8PathBuf) : IsRepoPath (ostreeDir ++ q) :=
  ⟨_, rfl⟩

@[simp] theorem isRepoPath_objectPath (objtype : ObjectType) (checksum : Checksum) :
    IsRepoPath (objectPath objtype checksum) := ⟨_, rfl⟩

@[simp] theorem isRepoPath_xattrsBlobPath (options : ExportOptions) (xattrsChecksum : Checksum) :
    IsRepoPath (xattrsBlobPath options xattrsChecksum) := by
  unfold xattrsBlobPath; split <;> exact ⟨_, rfl⟩

@[simp] theorem isRepoPath_xattrsLinkPath (options : ExportOptions) (checksum : Checksum) :
    IsRepoPath (xattrsLinkPath options checksum) := by
  unfold xattrsLinkPath; split <;> exact ⟨_, rfl⟩

theorem isRepoPath_of_mem_repoStructureDirs {options : ExportOptions} {p : Utf8PathBuf}
    (h : p ∈ repoStructureDirs options) : IsRepoPath p := by
  simp only [repoStructureDirs, Utf8Path.ancestors, ostreeDir, List.mem_append, List.mem_map,
    List.mem_filter] at h
  rcases h with (((⟨h, hne⟩ | ⟨_, -, rfl⟩) | ⟨_, -, rfl⟩) | ⟨_, -, rfl⟩) | h
  · simp only [List.singleton_append, List.cons_append, List.inits, List.map_cons, List.map_nil,
      List.reverse_cons, List.reverse_nil, List.nil_append, List.mem_cons, List.mem_singleton,
      List.not_mem_nil, or_false] at h
    rcases h with rfl | rfl | rfl | rfl | rfl
    · simp at hne
    all_goals exact ⟨_, rfl⟩
  · exact ⟨_, rfl⟩
  · exact ⟨_, rfl⟩
  · exact ⟨_, rfl⟩
  · split_ifs at h <;> simp only [List.mem_singleton, List.not_mem_nil] at h
    exact h ▸ ⟨_, rfl⟩

theorem isRepoPath_of_configPath {options : ExportOptions} {p : Utf8PathBuf}
    (h : configPath options = some p) : IsRepoPath p := by
  unfold configPath at h; split_ifs at h <;> cases h <;> exact ⟨_, rfl⟩

theorem formatVersion_of_configPath {options : ExportOptions} {p : Utf8PathBuf}
    (h : configPath options = some p) : options.formatVersion = 0 ∨ options.formatVersion = 1 := by
  unfold configPath at h; split_ifs at h with h0 h1
  · exact .inl h0
  · exact .inr h1

/-- The checkout entries of an archive, in order. -/
def checkoutPart (out : List Entry) : List Entry := out.filter fun e => isCheckoutPath e.path

@[simp] theorem checkoutPart_nil : checkoutPart [] = [] := rfl

@[simp] theorem checkoutPart_append (a b : List Entry) :
    checkoutPart (a ++ b) = checkoutPart a ++ checkoutPart b := by
  simp [checkoutPart]

@[simp] theorem checkoutPart_cons_repo {e : Entry} (out : List Entry) (h : IsRepoPath e.path) :
    checkoutPart (e :: out) = checkoutPart out := by
  simp [checkoutPart, h.isCheckoutPath]

theorem checkoutPart_cons_checkout {e : Entry} (out : List Entry)
    (h : isCheckoutPath e.path = true) : checkoutPart (e :: out) = e :: checkoutPart out := by
  simp [checkoutPart, h]

theorem checkoutPart_eq_nil {out : List Entry} (h : ∀ e ∈ out, IsRepoPath e.path) :
    checkoutPart out = [] :=
  List.filter_eq_nil_iff.mpr fun e he => by simp [(h e he).isCheckoutPath]

/-! ## Stretches of a run -/

/-- What a stretch of a run from `s` to `s'` does: the writer's invariant holds at its end, the
archive only grows, every entry it adds outside the checkout is under `sysroot/`, and the
checkout gains `new`. -/
def Extends (s s' : OstreeTarWriter) (new : List Entry) : Prop :=
  WriterInv s' ∧ ∃ more, s'.out = s.out ++ more ∧ checkoutPart more = new ∧
    ∀ e ∈ more, isCheckoutPath e.path = false → IsRepoPath e.path

namespace Extends

variable {s s₁ s₂ : OstreeTarWriter} {a b : List Entry}

theorem refl (hinv : WriterInv s) : Extends s s [] := ⟨hinv, [], by simp, rfl, by simp⟩

theorem trans (h₁ : Extends s s₁ a) (h₂ : Extends s₁ s₂ b) : Extends s s₂ (a ++ b) := by
  obtain ⟨-, m₁, ho₁, hc₁, hr₁⟩ := h₁
  obtain ⟨hinv, m₂, ho₂, hc₂, hr₂⟩ := h₂
  refine ⟨hinv, m₁ ++ m₂, by simp [ho₂, ho₁], by simp [hc₁, hc₂], fun e he => ?_⟩
  rcases List.mem_append.mp he with he | he
  · exact hr₁ e he
  · exact hr₂ e he

/-- Appending a repository entry, the sets unchanged. -/
theorem append_repo (hinv : WriterInv s) (e : Entry) (he : IsRepoPath e.path) :
    Extends s { s with out := s.out ++ [e] } [] :=
  ⟨hinv, [e], rfl, by simp [he], by simp [he]⟩

/-- Appending a checkout entry, the sets unchanged. -/
theorem append_checkout (hinv : WriterInv s) (e : Entry) (he : isCheckoutPath e.path = true) :
    Extends s { s with out := s.out ++ [e] } [e] :=
  ⟨hinv, [e], rfl, by simp [checkoutPart, he], by simp [he]⟩

theorem objectWritten (hinv : WriterInv s) {set : WroteSet} (hset : set = .dirtree ∨ set = .dirmeta)
    (objtype : ObjectType) (checksum : Checksum) (v : Bytes) :
    Extends s (s.objectWritten set objtype checksum v) [] := by
  unfold OstreeTarWriter.objectWritten
  split
  · exact refl hinv
  · rcases hset with rfl | rfl <;>
      exact ⟨hinv, _, rfl, by simp, by simp⟩

theorem xattrsStep (options : ExportOptions) (sha256 : Bytes → Checksum) (hinv : WriterInv s)
    (checksum : Checksum) (xattrs : Bytes) :
    Extends s (OstreeTar.xattrsStep options sha256 s checksum xattrs) [] := by
  refine ⟨hinv.xattrsStep options sha256 s xattrs, ?_⟩
  simp only [OstreeTar.xattrsStep, xattrsWritten]
  split_ifs
  · exact ⟨[], by simp, rfl, by simp⟩
  · exact ⟨[defaultHardlinkEntry (xattrsLinkPath options checksum)
      (xattrsBlobPath options (sha256 xattrs))], rfl, by simp, by simp⟩
  · exact ⟨[defaultDataEntry (xattrsBlobPath options (sha256 xattrs)) xattrs,
      defaultHardlinkEntry (xattrsLinkPath options checksum) (xattrsBlobPath options (sha256 xattrs))],
      by simp, by simp, by simp⟩

end Extends

theorem loadContent_ok {repo : Repo} {checksum : Checksum} {file : LoadedFile} {meta : FileInfo}
    {xattrs : Bytes} (h : loadContent repo checksum = .ok (file, meta, xattrs)) :
    repo.loadFile checksum = .ok file ∧ file.meta = some meta ∧ file.xattrs = some xattrs := by
  unfold loadContent at h
  split at h
  · cases h
  · next f hf => split at h <;> cases h; exact ⟨hf, ‹_›, ‹_›⟩

/-- A content object's entry is at its object path. -/
theorem contentEntry_path {options : ExportOptions} {checksum : Checksum} {file : LoadedFile}
    {meta : FileInfo} {e : Entry} (h : contentEntry options checksum file meta = .ok e) :
    e.path = objectPath .file checksum := by
  unfold contentEntry at h
  repeat' split at h
  all_goals first | (cases h; rfl) | cases h

/-! ## The reference listing -/

/-- The hard link a checkout has for a file: at the file's path, to the file object, with the
object's owner and filtered mode. -/
def checkoutLink (options : ExportOptions) (path : Utf8PathBuf) (checksum : Checksum)
    (meta : FileInfo) : Entry :=
  ⟨path, { Header.newGnu with entryType := .link, uid := meta.uid.toNat, gid := meta.gid.toNat,
                              mode := filterMode options meta.mode, size := 0,
                              linkName := some (Utf8Path.render (objectPath .file checksum)) }, []⟩

/-- The checkout entry of a file `(name, checksum)` of the DirTree at the logical path `path`,
with the logical path it lists. -/
def checkoutFile (repo : Repo) (options : ExportOptions) (path : Utf8PathBuf)
    (file : String × Checksum) : Option (Utf8PathBuf × Entry) := do
  let (name, checksum) := file
  let loaded ← (repo.loadFile checksum).toOption
  let meta ← loaded.meta
  let logical := Utf8Path.join path (Utf8Path.new name)
  pure (logical, checkoutLink options (mapPath logical) checksum meta)

/-- The checkout entries of a subdirectory `(name, contents, metadata)` of the DirTree at
`path`: none for `sysroot` at the root, else its directory entry, then what `listing` gives for
its own DirTree. -/
def checkoutSubdir (repo : Repo) (options : ExportOptions)
    (listing : Utf8PathBuf → Checksum → Option (List (Utf8PathBuf × Entry)))
    (path : Utf8PathBuf) (isRoot : Bool) (dir : String × Checksum × Checksum) :
    Option (List (Utf8PathBuf × Entry)) :=
  let (name, contents, metaCsum) := dir
  if isRoot ∧ name = sysroot then pure [] else do
  let metaV ← (repo.loadDirMeta metaCsum).toOption
  let logical := Utf8Path.join path (Utf8Path.new name)
  let rest ← listing logical contents
  pure ((logical, dirEntry options (mapPath logical) metaV.parsed) :: rest)

/-- The checkout listing of the DirTree `checksum` at the logical path `path`, depth first, each
entry with the logical path it lists: the files' hard links, then each subdirectory's entries.
It lists a DirTree at every path that reaches it. -/
def checkoutListing (repo : Repo) (options : ExportOptions) :
    Nat → Utf8PathBuf → Checksum → Bool → Option (List (Utf8PathBuf × Entry))
  | 0, _, _, _ => none
  | fuel + 1, path, checksum, isRoot => do
    let v ← (repo.loadDirTree checksum).toOption
    let links ← v.files.mapM (checkoutFile repo options path)
    let subdirs ← v.dirs.mapM
      (checkoutSubdir repo options (fun p c => checkoutListing repo options fuel p c false) path isRoot)
    pure (links ++ subdirs.flatten)

/-- A loop whose every turn is a stretch adding what a reference function gives for its item is
a stretch adding what the reference gives for the whole list. -/
theorem forM_extends {α β : Type} (body : α → WriterM Unit) (ref : α → Option β)
    (ents : β → List Entry) (l : List α)
    (hstep : ∀ a ∈ l, ∀ s s', WriterInv s → body a s = .ok () s' →
      ∃ b, ref a = some b ∧ Extends s s' (ents b)) :
    ∀ s s', WriterInv s → l.forM body s = .ok () s' →
      ∃ bs, l.mapM ref = some bs ∧ Extends s s' (bs.flatMap ents) := by
  induction l with
  | nil => intro s s' hinv h; cases h; exact ⟨[], rfl, Extends.refl hinv⟩
  | cons a l ih =>
    intro s s' hinv h
    rw [List.forM_cons', run_bind_eq_ok] at h
    obtain ⟨u, s₁, h₁, h₂⟩ := h
    obtain ⟨b, hb, hext₁⟩ := hstep a (List.mem_cons_self _ _) s s₁ hinv h₁
    obtain ⟨bs, hbs, hext₂⟩ :=
      ih (fun a ha => hstep a (List.mem_cons_of_mem _ ha)) s₁ s' hext₁.1 h₂
    exact ⟨b :: bs, by rw [List.mapM_cons, hb, hbs]; rfl, by simpa using hext₁.trans hext₂⟩

section Walk

variable (repo : Repo) (options : ExportOptions) (sha256 : Bytes → Checksum)
  (hfmt : options.formatVersion = 0 ∨ options.formatVersion = 1)
include hfmt

/-- A successful `append_content` gives the object's path and the header for links to it, and
writes nothing in the checkout. -/
theorem appendContent_ok {checksum : Checksum} {s s' : OstreeTarWriter}
    {r : Utf8PathBuf × Header} (hinv : WriterInv s)
    (h : appendContent repo options sha256 checksum s = .ok r s') :
    ∃ file meta xattrs, loadContent repo checksum = .ok (file, meta, xattrs) ∧
      r = (objectPath .file checksum, { contentHeader options meta with size := 0 }) ∧
      Extends s s' [] := by
  rw [appendContent_run_of_inv repo options sha256 s hfmt hinv] at h
  rcases hl : loadContent repo checksum with e | ⟨file, meta, xattrs⟩ <;> rw [hl] at h
  · cases h
  refine ⟨file, meta, xattrs, rfl, ?_⟩
  dsimp only at h
  split at h
  · cases h; exact ⟨rfl, Extends.refl hinv⟩
  · split at h
    · next e he =>
      cases h
      have hrepo : IsRepoPath e.path := contentEntry_path he ▸ isRepoPath_objectPath _ _
      exact ⟨rfl, (Extends.xattrsStep options sha256 hinv checksum xattrs).trans
        (Extends.append_repo (hinv.xattrsStep options sha256 s xattrs) e hrepo)⟩
    · cases h

/-- One turn of the loop over files from a walk path: the checkout gains the file's link. -/
theorem appendFileEntry_checkout {path : Utf8PathBuf} (hp : WalkPath path)
    (file : String × Checksum) (s s' : OstreeTarWriter) (hinv : WriterInv s)
    (h : appendFileEntry repo options sha256 (mapPath path) file s = .ok () s') :
    ∃ item, checkoutFile repo options path file = some item ∧ Extends s s' [item.2] := by
  obtain ⟨name, checksum⟩ := file
  rw [appendFileEntry_run] at h
  rcases hc : appendContent repo options sha256 checksum s with ⟨⟨objpath, hdr⟩, s₁⟩ | ⟨e, s₁⟩ <;>
    rw [hc] at h
  · obtain ⟨file, meta, xattrs, hl, hr, hext⟩ := appendContent_ok repo options sha256 hfmt hinv hc
    obtain ⟨hload, hmeta, -⟩ := loadContent_ok hl
    obtain ⟨rfl, rfl⟩ := Prod.mk.inj hr
    dsimp only at h
    rw [setLinkName_objectPath_file] at h
    cases h
    refine ⟨(Utf8Path.join path (Utf8Path.new name),
      checkoutLink options (mapPath (Utf8Path.join path (Utf8Path.new name))) checksum meta),
      by simp [checkoutFile, hload, hmeta, Except.toOption], ?_⟩
    rw [mapPath_join_mapPath hp]
    exact hext.trans (Extends.append_checkout hext.1 ⟨_, _, []⟩ (hp.join name).mapPath.isCheckoutPath)
  · cases h

/-- What `append_dirtree` with `fuel` does from a walk path and a state with the invariant: the
checkout gains the listing of the DirTree at that path. -/
def WalkLists (fuel : Nat) : Prop :=
  ∀ path checksum isRoot s s', WalkPath path → WriterInv s →
    appendDirtree repo options sha256 fuel (mapPath path) checksum isRoot s = .ok () s' →
    ∃ listing, checkoutListing repo options fuel path checksum isRoot = some listing ∧
      Extends s s' (listing.map Prod.snd)

omit hfmt in
/-- One turn of the loop over directories from a walk path: the checkout gains the directory
entry and the subtree's listing, but nothing for `sysroot` at the root. -/
theorem appendDirEntry_checkout {fuel : Nat} (ih : WalkLists repo options sha256 fuel)
    {path : Utf8PathBuf} (hp : WalkPath path) (isRoot : Bool) (dir : String × Checksum × Checksum)
    (s s' : OstreeTarWriter) (hinv : WriterInv s)
    (h : appendDirEntry repo options (fun p c => appendDirtree repo options sha256 fuel p c false)
      (mapPath path) isRoot dir s = .ok () s') :
    ∃ items, checkoutSubdir repo options
      (fun p c => checkoutListing repo options fuel p c false) path isRoot dir = some items ∧
      Extends s s' (items.map Prod.snd) := by
  obtain ⟨name, contents, metaCsum⟩ := dir
  rw [appendDirEntry_run] at h
  rcases hm : repo.loadDirMeta metaCsum with e | metaV <;> rw [hm] at h
  · cases h
  dsimp only at h
  have hmeta := Extends.objectWritten hinv (.inr rfl) .dirMeta metaCsum metaV.bytes
  by_cases hroot : isRoot ∧ name = sysroot
  · rw [if_pos hroot] at h
    cases h
    exact ⟨[], by simp [checkoutSubdir, hroot], hmeta⟩
  · rw [if_neg hroot, mapPath_join_mapPath hp] at h
    have hdir := hmeta.trans (Extends.append_checkout hmeta.1
      (dirEntry options (mapPath (Utf8Path.join path (Utf8Path.new name))) metaV.parsed)
      (hp.join name).mapPath.isCheckoutPath)
    obtain ⟨listing, hl, hext⟩ := ih _ contents false _ s' (hp.join name) hdir.1 h
    refine ⟨(Utf8Path.join path (Utf8Path.new name),
      dirEntry options (mapPath (Utf8Path.join path (Utf8Path.new name))) metaV.parsed) :: listing,
      by simp [checkoutSubdir, hroot, hm, hl, Except.toOption], ?_⟩
    exact hdir.trans hext

/-- `append_dirtree` lists the checkout of its DirTree, whatever the fuel. -/
theorem appendDirtree_walkLists : ∀ fuel, WalkLists repo options sha256 fuel
  | 0 => fun _ _ _ _ _ _ _ h => by cases h
  | fuel + 1 => fun path checksum isRoot s s' hp hinv h => by
    rw [appendDirtree_succ] at h
    rcases hv : repo.loadDirTree checksum with e | v <;> rw [hv] at h
    · cases h
    obtain ⟨u, s₁, hfiles, hdirs⟩ := run_bind_eq_ok.mp h
    have htree := Extends.objectWritten hinv (.inl rfl) .dirTree checksum v.bytes
    obtain ⟨links, hlinks, hext₁⟩ := forM_extends _ (checkoutFile repo options path)
      (fun item : Utf8PathBuf × Entry => [item.2]) v.files
      (fun file _ => appendFileEntry_checkout repo options sha256 hfmt hp file) _ s₁ htree.1 hfiles
    obtain ⟨subdirs, hsubdirs, hext₂⟩ := forM_extends _ _ (List.map Prod.snd) v.dirs
      (fun dir _ => appendDirEntry_checkout repo options sha256 (appendDirtree_walkLists fuel) hp
        isRoot dir) s₁ s' hext₁.1 hdirs
    refine ⟨links ++ subdirs.flatten, by
      simp only [checkoutListing, hv, Except.toOption, Option.bind_eq_bind, Option.some_bind, hlinks,
        hsubdirs]; rfl, ?_⟩
    rw [← List.map_eq_flatMap] at hext₁
    simpa [List.flatMap_def] using (htree.trans hext₁).trans hext₂

end Walk

/-! ## The whole export -/

/-- Past the root directory, `write_commit` writes only under `sysroot/`. -/
theorem isRepoPath_commitStart {options : ExportOptions} {cfg : Utf8PathBuf}
    (hcfg : configPath options = some cfg) (checksum : Checksum) (commitV : CommitObject)
    (metadataV : DirMetaObject) (commitmeta : Option Bytes) :
    ∀ e ∈ (commitStart options checksum commitV metadataV cfg commitmeta).out.tail,
      IsRepoPath e.path := by
  intro e he
  simp only [commitStart, List.cons_append, List.tail_cons, List.mem_append, List.mem_cons,
    List.mem_map, Option.mem_toList, List.not_mem_nil, or_false, false_or] at he
  rcases he with (((⟨p, hp, rfl⟩ | rfl | rfl) | ⟨m, -, rfl⟩) | rfl)
  · exact isRepoPath_of_mem_repoStructureDirs hp
  · exact isRepoPath_of_configPath hcfg
  all_goals exact isRepoPath_objectPath _ _

/-- A successful export writes the root directory, then only the listing of the commit's tree in
the checkout, and everything else under `sysroot/`. -/
theorem exportCommit_listing {repo : Repo} {sha256 : Bytes → Checksum} {fuel : Nat}
    {rev : String} {options : Option ExportOptions} {w : OstreeTarWriter}
    (h : exportCommit repo sha256 fuel rev options = .ok () w) :
    ∃ commit commitV metadataV listing,
      repo.requireRev rev = .ok commit ∧ repo.loadCommit commit = .ok commitV ∧
      repo.loadDirMeta commitV.metadata = .ok metadataV ∧
      checkoutListing repo (options.getD {}) fuel (Utf8Path.new "./") commitV.contents true =
        some listing ∧
      checkoutPart w.out =
        dirEntry (options.getD {}) (Utf8Path.new "./") metadataV.parsed :: listing.map Prod.snd ∧
      ∀ e ∈ w.out, isCheckoutPath e.path = false → IsRepoPath e.path := by
  obtain ⟨commit, hrev, hw⟩ := (exportCommit_ok repo sha256 fuel rev options w).mp h
  obtain ⟨commitV, metadataV, cfg, commitmeta, hc, hm, hcfg, -, hw⟩ :=
    (writeCommit_new_ok repo (options.getD {}) sha256 fuel commit w).mp hw
  rw [new_curDir] at hw
  obtain ⟨listing, hl, hinv, more, hout, hpart, hrepo⟩ := appendDirtree_walkLists repo _ sha256
    (formatVersion_of_configPath hcfg) fuel [.curDir] _ true _ w walkPath_curDir
    (fun c hc => absurd hc (List.not_mem_nil c)) hw
  have hroot : (commitStart (options.getD {}) commit commitV metadataV cfg commitmeta).out =
      dirEntry (options.getD {}) (Utf8Path.new "./") metadataV.parsed ::
        (commitStart (options.getD {}) commit commitV metadataV cfg commitmeta).out.tail := rfl
  have hrest := isRepoPath_commitStart hcfg commit commitV metadataV commitmeta
  refine ⟨commit, commitV, metadataV, listing, hrev, hc, hm, by rwa [new_curDir, mapPath_curDir],
    ?_, fun e he hc => ?_⟩
  · rw [hout, checkoutPart_append, hpart, hroot, checkoutPart_cons_checkout _
      (by rw [new_curDir, mapPath_curDir]; rfl), checkoutPart_eq_nil hrest]
    rfl
  · rw [hout, hroot] at he
    rcases List.mem_append.mp he with he | he
    · rcases List.mem_cons.mp he with rfl | he
      · rw [new_curDir, mapPath_curDir] at hc
        cases hc
      · exact hrest e he
    · exact hrepo e he hc

/-- The checkout part of a successful export: the root directory with the root DirMeta's owner
and filtered mode, then the listing of the commit's tree from `./`. -/
theorem exportCommit_checkout (repo : Repo) (sha256 : Bytes → Checksum) (fuel : Nat)
    (rev : String) (options : Option ExportOptions) (w : OstreeTarWriter)
    (h : exportCommit repo sha256 fuel rev options = .ok () w) :
    ∃ commit commitV metadataV listing,
      repo.requireRev rev = .ok commit ∧ repo.loadCommit commit = .ok commitV ∧
      repo.loadDirMeta commitV.metadata = .ok metadataV ∧
      checkoutListing repo (options.getD {}) fuel (Utf8Path.new "./") commitV.contents true =
        some listing ∧
      checkoutPart w.out =
        dirEntry (options.getD {}) (Utf8Path.new "./") metadataV.parsed :: listing.map Prod.snd := by
  obtain ⟨commit, commitV, metadataV, listing, h₁, h₂, h₃, h₄, h₅, -⟩ := exportCommit_listing h
  exact ⟨commit, commitV, metadataV, listing, h₁, h₂, h₃, h₄, h₅⟩

/-! ## A sample store -/

/-- The commit of the sample store. -/
def sampleCommit : Checksum :=
  ⟨"cc00000000000000000000000000000000000000000000000000000000000000", by decide, by decide⟩

/-- Its root DirTree. -/
def sampleRoot : Checksum :=
  ⟨"0000000000000000000000000000000000000000000000000000000000000000", by decide, by decide⟩

/-- The DirTree of `usr`. -/
def sampleUsr : Checksum :=
  ⟨"1100000000000000000000000000000000000000000000000000000000000000", by decide, by decide⟩

/-- The empty DirTree, `usr/etc`'s. -/
def sampleEmpty : Checksum :=
  ⟨"2200000000000000000000000000000000000000000000000000000000000000", by decide, by decide⟩

/-- The DirMeta every directory has. -/
def sampleDirMeta : Checksum :=
  ⟨"dd00000000000000000000000000000000000000000000000000000000000000", by decide, by decide⟩

/-- The one file object. -/
def sampleFile : Checksum :=
  ⟨"aa00000000000000000000000000000000000000000000000000000000000000", by decide, by decide⟩

/-- What the sample digest function gives for every xattrs record. -/
def sampleDigest : Checksum :=
  ⟨"ff00000000000000000000000000000000000000000000000000000000000000", by decide, by decide⟩

/-- A store with one commit: a file `a` at the root, and an empty `usr/etc`, which the checkout
moves to `etc`. -/
def sampleRepo : Repo where
  requireRev _ := .ok sampleCommit
  loadCommit _ := .ok ⟨[1], sampleRoot, sampleDirMeta⟩
  loadDirTree c :=
    if c = sampleRoot then .ok ⟨[2], [("a", sampleFile)], [("usr", sampleUsr, sampleDirMeta)]⟩
    else if c = sampleUsr then .ok ⟨[2], [], [("etc", sampleEmpty, sampleDirMeta)]⟩
    else .ok ⟨[2], [], []⟩
  loadDirMeta _ := .ok ⟨[3], ⟨0, 0, 0o40755⟩⟩
  readCommitDetachedMetadata _ := .ok none
  loadFile _ := .ok ⟨some [4], some ⟨0, 0, 0o100644, .regular, 1, none⟩, some [7]⟩

set_option maxRecDepth 100000 in
theorem exportCommit_checkout_sample :
    ∃ w, exportCommit sampleRepo (fun _ => sampleDigest) 4 "main" (some ⟨1⟩) = .ok () w ∧
    ∃ commit commitV metadataV listing,
      sampleRepo.requireRev "main" = .ok commit ∧ sampleRepo.loadCommit commit = .ok commitV ∧
      sampleRepo.loadDirMeta commitV.metadata = .ok metadataV ∧
      checkoutListing sampleRepo ((some ⟨1⟩ : Option ExportOptions).getD {}) 4 (Utf8Path.new "./")
        commitV.contents true = some listing ∧
      checkoutPart w.out =
        dirEntry ((some ⟨1⟩ : Option ExportOptions).getD {}) (Utf8Path.new "./") metadataV.parsed ::
          listing.map Prod.snd := by
  obtain ⟨w, h⟩ : ∃ w, exportCommit sampleRepo (fun _ => sampleDigest) 4 "main" (some ⟨1⟩) =
      .ok () w := ⟨_, rfl⟩
  exact ⟨w, h, exportCommit_checkout _ _ _ _ _ _ h⟩

end OstreeTar
