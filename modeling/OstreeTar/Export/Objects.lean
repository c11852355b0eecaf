import OstreeTar.Export.Closure
import OstreeTar.Export.Content

/-!
# The objects of an export

What the repository part of an archive holds, and in what order.  Each entry comes after what it
refers to (`exportCommit_closed`), and a successful export holds every object its walk reaches,
with the bytes the store holds (`exportCommit_complete`).  The walk does not enter the root's
`sysroot` directory: the objects below it are written only when another path reaches them.

Both rest on one invariant of the writer's state, `Recorded`: each checksum in a membership set
stands for the entries the archive has for it, and only the files written have xattrs links.
Every step keeps it and only adds (`Grows`); the walk of a tree marks every object below it.

The xattrs set is checked for a blob's digest but given file checksums.  The argument needs that
no xattrs digest is the checksum of a file object of the store (`DigestsApart`).  That is an
assumption on the store: a file object's checksum is a SHA-256 digest too, and nothing in the
export rules out xattrs whose digest it is.  Without it a blob is skipped when its digest is the
checksum of a file written before, and the file's link points at nothing
(`exportCommit_xattrs_link_dangles`).
-/

namespace OstreeTar

/-! ## File objects -/

/-- A file object's entry is at its object path: a regular file carrying the content stream, or
a symlink. -/
theorem contentEntry_ok {options : ExportOptions} {checksum : Checksum} {file : LoadedFile}
    {meta : FileInfo} {e : Entry} (h : contentEntry options checksum file meta = .ok e) :
    e.path = objectPath .file checksum ∧ e.IsFileLike ∧ e.data = file.instream.getD [] := by
  unfold contentEntry at h
  split at h
  · next hi => split at h <;> cases h; exact ⟨rfl, .inl rfl, by simp [hi]⟩
  · next hi =>
    split at h
    · split at h
      · cases h
      · split at h
        · next hs =>
          cases h
          obtain ⟨n, rfl⟩ := symlinkHeader_ok_eq hs
          exact ⟨rfl, .inr rfl, by simp [hi]⟩
        · cases h
    · cases h

/-! ## What the walk enters -/

/-- The trees the walk from `t` enters: `t`, and below each directory entry of a tree it enters,
but the root's `sysroot`. -/
inductive Walks (repo : Repo) : Checksum → Bool → Checksum → Prop
  | refl (t : Checksum) (isRoot : Bool) : Walks repo t isRoot t
  | sub {t : Checksum} {isRoot : Bool} {v : DirTreeObject} {name : String} {t₁ m t' : Checksum} :
      repo.loadDirTree t = .ok v → (name, t₁, m) ∈ v.dirs → ¬(isRoot = true ∧ name = sysroot) →
      Walks repo t₁ false t' → Walks repo t isRoot t'

/-- The DirTree names of the store are single plain components. -/
def NamesPlain (repo : Repo) : Prop :=
  ∀ c v, repo.loadDirTree c = .ok v → ∀ n ∈ v.names, Utf8Path.IsPlain n

/-- No file's xattrs have the checksum of a file object of the store as their digest.  An
assumption on the store, not a property of SHA-256: a file object's checksum is itself a SHA-256
digest, and nothing in the export keeps a file's xattrs from hashing to it. -/
def DigestsApart (repo : Repo) (sha256 : Bytes → Checksum) : Prop :=
  ∀ c c' r r', loadContent repo c = .ok r → loadContent repo c' = .ok r' → sha256 r.2.2 ≠ c'

/-! ## Stretches of a run -/

/-- A stretch of a run only adds: entries at the end of the archive, checksums to the sets. -/
structure Grows (s s' : OstreeTarWriter) : Prop where
  out : s.out <+: s'.out
  dirtree : s.wroteDirtree ⊆ s'.wroteDirtree
  dirmeta : s.wroteDirmeta ⊆ s'.wroteDirmeta
  content : s.wroteContent ⊆ s'.wroteContent

namespace Grows

variable {s₁ s₂ s₃ : OstreeTarWriter}

theorem refl (s : OstreeTarWriter) : Grows s s :=
  ⟨List.prefix_refl _, fun _ => id, fun _ => id, fun _ => id⟩

theorem trans (h₁ : Grows s₁ s₂) (h₂ : Grows s₂ s₃) : Grows s₁ s₃ :=
  ⟨h₁.out.trans h₂.out, fun _ h => h₂.dirtree (h₁.dirtree h), fun _ h => h₂.dirmeta (h₁.dirmeta h),
    fun _ h => h₂.content (h₁.content h)⟩

theorem append (s : OstreeTarWriter) (more : List Entry) : Grows s { s with out := s.out ++ more } :=
  ⟨List.prefix_append _ _, fun _ => id, fun _ => id, fun _ => id⟩

theorem objectWritten (s : OstreeTarWriter) {set : WroteSet} (hset : set = .dirtree ∨ set = .dirmeta)
    (objtype : ObjectType) (c : Checksum) (v : Bytes) : Grows s (s.objectWritten set objtype c v) := by
  unfold OstreeTarWriter.objectWritten
  split
  · exact refl s
  · rcases hset with rfl | rfl
    · exact ⟨List.prefix_append _ _, fun _ => List.mem_insert_of_mem, fun _ => id, fun _ => id⟩
    · exact ⟨List.prefix_append _ _, fun _ => id, fun _ => List.mem_insert_of_mem, fun _ => id⟩

end Grows

/-- After `append` of a DirTree or DirMeta object, its set has it. -/
theorem OstreeTarWriter.mem_objectWritten (w : OstreeTarWriter) {set : WroteSet}
    (hset : set = .dirtree ∨ set = .dirmeta) (objtype : ObjectType) (c : Checksum) (v : Bytes) :
    c ∈ (w.objectWritten set objtype c v).wrote set := by
  unfold OstreeTarWriter.objectWritten
  rcases hset with rfl | rfl <;> split <;> simp_all

/-! ## The record the writer keeps -/

section Record

variable (repo : Repo) (options : ExportOptions) (sha256 : Bytes → Checksum)

/-- The xattrs records `append_xattrs` writes for a file whose digest is not in the set:
nothing for empty xattrs in format 0, else the blob named by the digest and the file's link to
it. -/
def xattrsRecords (checksum : Checksum) (xattrs : Bytes) : List Entry :=
  if xattrs = [] ∧ options.formatVersion = 0 then []
  else [defaultDataEntry (xattrsBlobPath options (sha256 xattrs)) xattrs,
    defaultHardlinkEntry (xattrsLinkPath options checksum) (xattrsBlobPath options (sha256 xattrs))]

/-- The archive holds the DirTree object `c` with the bytes the store has for it. -/
def DirTreeStored (out : List Entry) (c : Checksum) : Prop :=
  ∃ v, repo.loadDirTree c = .ok v ∧ defaultDataEntry (objectPath .dirTree c) v.bytes ∈ out

/-- The archive holds the DirMeta object `c` with the bytes the store has for it. -/
def DirMetaStored (out : List Entry) (c : Checksum) : Prop :=
  ∃ v, repo.loadDirMeta c = .ok v ∧ defaultDataEntry (objectPath .dirMeta c) v.bytes ∈ out

/-- The archive holds the entry the writer makes for the file object `c` from what the store
loads for it (`contentEntry`), and its xattrs records. -/
def FileWritten (out : List Entry) (c : Checksum) : Prop :=
  ∃ file meta xattrs e, loadContent repo c = .ok (file, meta, xattrs) ∧
    contentEntry options c file meta = .ok e ∧ e ∈ out ∧
    ∀ x ∈ xattrsRecords options sha256 c xattrs, x ∈ out

/-- The archive holds the file object `c` as the store has it: at its object path, with the
store's owner, a regular file with the store's content, or a symlink whose link name is the
store's target whenever the `tar` crate records that target as it is; and its xattrs records. -/
def FileStored (out : List Entry) (c : Checksum) : Prop :=
  ∃ file meta xattrs, loadContent repo c = .ok (file, meta, xattrs) ∧
    (∃ e ∈ out, e.path = objectPath .file c ∧ e.header.uid = meta.uid.toNat ∧
      e.header.gid = meta.gid.toNat ∧
      (∀ data, file.instream = some data → e.header.entryType = .regular ∧ e.data = data) ∧
      (file.instream = none → e.header.entryType = .symlink ∧
        ∀ target, meta.symlinkTarget = some target → RecordedAsIs target →
          e.header.linkName = some target)) ∧
    ∀ x ∈ xattrsRecords options sha256 c xattrs, x ∈ out

variable {repo options sha256} {out out' : List Entry} {c : Checksum}

theorem DirTreeStored.mono (h : DirTreeStored repo out c) (hsub : out ⊆ out') :
    DirTreeStored repo out' c :=
  let ⟨v, hv, he⟩ := h; ⟨v, hv, hsub he⟩

theorem DirMetaStored.mono (h : DirMetaStored repo out c) (hsub : out ⊆ out') :
    DirMetaStored repo out' c :=
  let ⟨v, hv, he⟩ := h; ⟨v, hv, hsub he⟩

theorem FileWritten.mono (h : FileWritten repo options sha256 out c) (hsub : out ⊆ out') :
    FileWritten repo options sha256 out' c :=
  let ⟨f, m, x, e, hl, hce, he, hx⟩ := h; ⟨f, m, x, e, hl, hce, hsub he, fun y hy => hsub (hx y hy)⟩

/-- The entry the writer makes for a file object holds what the store has for it. -/
theorem FileWritten.stored (h : FileWritten repo options sha256 out c) :
    FileStored repo options sha256 out c :=
  let ⟨f, m, x, _, hl, hce, he, hx⟩ := h; ⟨f, m, x, hl, ⟨_, he, contentEntry_stored hce⟩, hx⟩

variable (repo options sha256)

/-- The writer's state in a run: each checksum in a membership set stands for an object the
archive holds, and only the files written have xattrs links. -/
structure Recorded (s : OstreeTarWriter) : Prop where
  inv : WriterInv s
  dirtree : ∀ c ∈ s.wroteDirtree, DirTreeStored repo s.out c
  dirmeta : ∀ c ∈ s.wroteDirmeta, DirMetaStored repo s.out c
  content : ∀ c ∈ s.wroteContent, FileWritten repo options sha256 s.out c
  links : ∀ c, ∀ e ∈ s.out, e.path = xattrsLinkPath options c → c ∈ s.wroteContent

/-- `append_xattrs` for a file whose digest is not in the set: its records, and the file's
checksum in the xattrs set when it writes them. -/
theorem xattrsStep_fresh (s : OstreeTarWriter) (checksum : Checksum) (xattrs : Bytes)
    (hd : sha256 xattrs ∉ s.wroteXattrs) :
    xattrsStep options sha256 s checksum xattrs = { s with
      out := s.out ++ xattrsRecords options sha256 checksum xattrs,
      wroteContent := s.wroteContent.insert checksum,
      wroteXattrs := if xattrs = [] ∧ options.formatVersion = 0 then s.wroteXattrs
        else s.wroteXattrs.insert checksum } := by
  unfold xattrsStep xattrsWritten xattrsRecords
  split_ifs <;> simp_all

variable {repo options sha256} {s : OstreeTarWriter}

namespace Recorded

theorem new : Recorded repo options sha256 OstreeTarWriter.new :=
  ⟨fun _ h => absurd h (List.not_mem_nil _), fun _ h => absurd h (List.not_mem_nil _),
    fun _ h => absurd h (List.not_mem_nil _), fun _ h => absurd h (List.not_mem_nil _),
    fun _ _ h => absurd h (List.not_mem_nil _)⟩

/-- Entries appended, none an xattrs link, keep the record. -/
theorem append (h : Recorded repo options sha256 s) (more : List Entry)
    (hmore : ∀ c, ∀ e ∈ more, e.path ≠ xattrsLinkPath options c) :
    Recorded repo options sha256 { s with out := s.out ++ more } where
  inv := h.inv
  dirtree c hc := (h.dirtree c hc).mono (List.subset_append_left _ _)
  dirmeta c hc := (h.dirmeta c hc).mono (List.subset_append_left _ _)
  content c hc := (h.content c hc).mono (List.subset_append_left _ _)
  links c e he hp := (List.mem_append.mp he).elim (fun he => h.links c e he hp)
    fun he => absurd hp (hmore c e he)

theorem objectWritten_dirtree (h : Recorded repo options sha256 s) {c : Checksum}
    {v : DirTreeObject} (hv : repo.loadDirTree c = .ok v) :
    Recorded repo options sha256 (s.objectWritten .dirtree .dirTree c v.bytes) := by
  unfold OstreeTarWriter.objectWritten
  split
  · exact h
  · have h' := h.append [defaultDataEntry (objectPath .dirTree c) v.bytes]
      (by simpa using objectPath_ne_xattrsLinkPath .dirTree options c)
    refine { h' with dirtree := fun c' hc' => ?_ }
    rcases List.mem_insert_iff.mp hc' with rfl | hc'
    · exact ⟨v, hv, by simp⟩
    · exact h'.dirtree c' hc'

theorem objectWritten_dirmeta (h : Recorded repo options sha256 s) {c : Checksum}
    {v : DirMetaObject} (hv : repo.loadDirMeta c = .ok v) :
    Recorded repo options sha256 (s.objectWritten .dirmeta .dirMeta c v.bytes) := by
  unfold OstreeTarWriter.objectWritten
  split
  · exact h
  · have h' := h.append [defaultDataEntry (objectPath .dirMeta c) v.bytes]
      (by simpa using objectPath_ne_xattrsLinkPath .dirMeta options c)
    refine { h' with dirmeta := fun c' hc' => ?_ }
    rcases List.mem_insert_iff.mp hc' with rfl | hc'
    · exact ⟨v, hv, by simp⟩
    · exact h'.dirmeta c' hc'

end Recorded

end Record

/-! ## Writing a file object -/

/-- The directory of an xattrs blob is in the scaffolding: `repo/xattrs` in format 0, the
digest's shard in format 1. -/
theorem Scaffolded.blobDir {options : ExportOptions} {out : List Entry}
    (hsc : Scaffolded options out) (d : Checksum) :
    DirIn out (normalizedPath (xattrsBlobPath options d).dropLast) := by
  unfold xattrsBlobPath
  split
  · next h0 =>
    have hmem : ostreeDir ++ [.normal "repo", .normal "xattrs"] ∈ repoStructureDirs options := by
      simp [repoStructureDirs, h0]
    simpa [v0XattrsPath, normalizedPath, ostreeDir] using hsc.2 _ hmem
  · simpa [v1XattrsObjectPath] using hsc.shardDir d

section Write

variable {repo : Repo} {options : ExportOptions} {sha256 : Bytes → Checksum}

/-- The xattrs records of a file: the blob in its directory, then the link to it. -/
theorem Closed.xattrsRecords {out : List Entry} (h : Closed repo options out)
    (hsc : Scaffolded options out) (checksum : Checksum) (xattrs : Bytes) :
    Closed repo options (out ++ OstreeTar.xattrsRecords options sha256 checksum xattrs) := by
  unfold OstreeTar.xattrsRecords
  split
  · simpa using h
  have hblob := h.snoc (show RefsBefore repo options out
      (defaultDataEntry (xattrsBlobPath options (sha256 xattrs)) xattrs) from
    refsBefore_plain (by simp [defaultDataEntry])
      (fun c hc => xattrsBlobPath_ne_objectPath options _ c .file hc)
      fun _ => hsc.blobDir _)
  have hlink := hblob.snoc (show RefsBefore repo options _
      (defaultHardlinkEntry (xattrsLinkPath options checksum)
        (xattrsBlobPath options (sha256 xattrs))) from ⟨fun _ => ⟨_, List.mem_append_right _ (List.mem_singleton_self _), .inl rfl, rfl⟩,
      fun _ => by simpa [xattrsLinkPath_eq] using (hsc.shardDir checksum).append _,
      fun c _ _ _ hc => absurd hc.symm (objectPath_ne_xattrsLinkPath .file options c checksum)⟩)
  simpa using hlink

/-- A file's object entry after its records: its xattrs link is before it exactly when the
format writes one, since no link for a file not yet written is in the archive. -/
theorem Closed.fileObject {s : OstreeTarWriter} (h : Closed repo options s.out)
    (hrec : Recorded repo options sha256 s) (hsc : Scaffolded options s.out) {checksum : Checksum}
    (hnew : checksum ∉ s.wroteContent) {file : LoadedFile} {meta : FileInfo} {xattrs : Bytes}
    (hload : loadContent repo checksum = .ok (file, meta, xattrs)) {e : Entry}
    (hce : contentEntry options checksum file meta = .ok e) :
    Closed repo options (s.out ++ OstreeTar.xattrsRecords options sha256 checksum xattrs ++ [e]) := by
  obtain ⟨hpath, hfile, -⟩ := contentEntry_ok hce
  refine (h.xattrsRecords hsc checksum xattrs).snoc
    ⟨fun hl => ?_, fun _ => ?_, fun c f m x hc hl => ?_⟩
  · rcases hfile with hr | hr <;> rw [hr] at hl <;> cases hl
  · rw [hpath]; simpa [objectPath] using (hsc.shardDir checksum).append _
  · obtain rfl := (objectsPath_inj (hpath.symm.trans hc)).1
    rw [hload] at hl
    obtain ⟨⟩ := hl
    constructor
    · rintro ⟨e', he', hp'⟩
      rcases List.mem_append.mp he' with he' | he'
      · exact absurd (hrec.links _ e' he' hp') hnew
      · intro hx
        simp [OstreeTar.xattrsRecords, hx] at he'
    · intro hx
      exact ⟨defaultHardlinkEntry (xattrsLinkPath options checksum)
        (xattrsBlobPath options (sha256 xattrs)),
        List.mem_append_right _ (by simp [OstreeTar.xattrsRecords, hx]), rfl⟩

/-- The record after a new file object: its checksum in the content set, its records and its
entry in the archive. -/
theorem Recorded.fileObject {s : OstreeTarWriter} (hrec : Recorded repo options sha256 s)
    {checksum : Checksum} {file : LoadedFile} {meta : FileInfo} {xattrs : Bytes}
    (hload : loadContent repo checksum = .ok (file, meta, xattrs)) {e : Entry}
    (hce : contentEntry options checksum file meta = .ok e) {xs : List Checksum}
    (hinv : ∀ c ∈ xs, c ∈ s.wroteContent.insert checksum) :
    Recorded repo options sha256 { s with
      out := s.out ++ OstreeTar.xattrsRecords options sha256 checksum xattrs ++ [e],
      wroteContent := s.wroteContent.insert checksum, wroteXattrs := xs } where
  inv := hinv
  dirtree c hc := (hrec.dirtree c hc).mono fun _ hx => by simp [hx]
  dirmeta c hc := (hrec.dirmeta c hc).mono fun _ hx => by simp [hx]
  content c hc := by
    rcases List.mem_insert_iff.mp hc with rfl | hc
    · exact ⟨file, meta, xattrs, e, hload, hce, by simp, fun y hy => by simp [hy]⟩
    · exact (hrec.content c hc).mono fun _ hx => by simp [hx]
  links c e' he' hp := by
    simp only [List.mem_append, List.mem_singleton] at he'
    rcases he' with (he' | he') | rfl
    · exact List.mem_insert_of_mem (hrec.links c e' he' hp)
    · unfold OstreeTar.xattrsRecords at he'
      split at he'
      · simp at he'
      · simp only [List.mem_cons, List.mem_singleton, List.not_mem_nil, or_false] at he'
        rcases he' with rfl | rfl
        · exact absurd hp (xattrsBlobPath_ne_xattrsLinkPath options _ c)
        · rw [xattrsLinkPath_inj hp]; exact List.mem_insert_self _ _
    · exact absurd (hp.symm.trans (contentEntry_ok hce).1).symm
        (objectPath_ne_xattrsLinkPath .file options checksum c)

end Write

section Steps

variable (repo : Repo) (options : ExportOptions) (sha256 : Bytes → Checksum)
  (hfmt : options.formatVersion = 0 ∨ options.formatVersion = 1)
  (hdig : DigestsApart repo sha256)

include hfmt hdig in
/-- `append_content`, from a recorded state with the scaffolding in place: it returns the object's
path, the file is then written and recorded, and the archive stays closed, whether it succeeds or
fails. -/
theorem appendContent_recorded {s : OstreeTarWriter} (h : Recorded repo options sha256 s)
    (hsc : Scaffolded options s.out) (checksum : Checksum) :
    Ends (fun r s' => r.1 = objectPath .file checksum ∧ Recorded repo options sha256 s' ∧
        Grows s s' ∧ checksum ∈ s'.wroteContent ∧
        (Closed repo options s.out → Closed repo options s'.out))
      (fun s' => Closed repo options s.out → Closed repo options s'.out)
      (appendContent repo options sha256 checksum s) := by
  rw [appendContent_run_of_inv repo options sha256 s hfmt h.inv]
  rcases hload : loadContent repo checksum with e | ⟨file, meta, xattrs⟩
  · exact id
  dsimp only
  split
  · next hc => exact ⟨rfl, h, Grows.refl s, hc, id⟩
  · next hc =>
    have hd : sha256 xattrs ∉ s.wroteXattrs := fun hd => by
      obtain ⟨f', m', x', -, hl', -⟩ := h.content _ (h.inv _ hd)
      exact hdig _ _ _ _ hload hl' rfl
    have hinv : WriterInv (xattrsStep options sha256 s checksum xattrs) :=
      WriterInv.xattrsStep options sha256 s xattrs h.inv
    rw [xattrsStep_fresh options sha256 s checksum xattrs hd] at hinv ⊢
    rcases hce : contentEntry options checksum file meta with err | e
    · exact fun hcl => by simpa using hcl.xattrsRecords hsc checksum xattrs
    · refine ⟨rfl, h.fileObject hload hce hinv, ?_, List.mem_insert_self _ _,
        fun hcl => by simpa using hcl.fileObject h hsc hc hload hce⟩
      exact ⟨⟨xattrsRecords options sha256 checksum xattrs ++ [e], by simp⟩, fun _ => id, fun _ => id,
        fun _ => List.mem_insert_of_mem⟩

end Steps

/-! ## The walk -/

/-- What the walk from `t` has marked by state `s`: every tree it enters, and in each the files
and the DirMeta of every directory entry. -/
def Covered (repo : Repo) (t : Checksum) (isRoot : Bool) (s : OstreeTarWriter) : Prop :=
  ∀ t', Walks repo t isRoot t' → t' ∈ s.wroteDirtree ∧ ∀ v, repo.loadDirTree t' = .ok v →
    (∀ f ∈ v.files, f.2 ∈ s.wroteContent) ∧ ∀ d ∈ v.dirs, d.2.2 ∈ s.wroteDirmeta

theorem Covered.grows {repo : Repo} {t : Checksum} {isRoot : Bool} {s s' : OstreeTarWriter}
    (h : Covered repo t isRoot s) (hg : Grows s s') : Covered repo t isRoot s' := fun t' hw =>
  let ⟨ht, hv⟩ := h t' hw
  ⟨hg.dirtree ht, fun v hl => let ⟨hf, hd⟩ := hv v hl
    ⟨fun f hf' => hg.content (hf f hf'), fun d hd' => hg.dirmeta (hd d hd')⟩⟩

/-- The directory of what the walk writes for a plain name below the logical path `p`: the
directory it writes for `p`, or the root for `usr/etc`, which `map_path` moves to `etc`. -/
theorem normalizedPath_parent_mapPath {p : Utf8PathBuf} (hp : WalkPath p) {name : String}
    (hn : Utf8Path.IsPlain name) :
    normalizedPath (mapPath (Utf8Path.join p (Utf8Path.new name))).dropLast =
        normalizedPath (mapPath p) ∨
      normalizedPath (mapPath (Utf8Path.join p (Utf8Path.new name))).dropLast = [] := by
  have hname : ∀ c ∈ [Component.normal name], c.IsInner := by simp [Component.IsInner]
  rw [join_new_of_isPlain p hn]
  rcases hp.mapPath_cases with ⟨r, hr, rfl, hmap⟩ | hmap
  · have hrn : ∀ c ∈ r ++ [.normal name], c.IsInner := fun c hc =>
      (List.mem_append.mp hc).elim (hr c) (hname c)
    left
    rw [hmap, List.cons_append, List.cons_append, List.cons_append, mapPath_usrEtc hrn,
      ← List.cons_append, ← List.cons_append, List.dropLast_concat]
  · rcases (WalkPath.append hp hname).mapPath_cases with ⟨r, -, heq, hmap'⟩ | hmap'
    · rcases List.eq_nil_or_concat r with rfl | ⟨r', x, rfl⟩
      · right; rw [hmap']; rfl
      · rw [List.concat_eq_append, ← List.cons_append, ← List.cons_append, ← List.cons_append] at heq
        obtain ⟨rfl, -⟩ := List.append_inj' heq rfl
        have hr' : ∀ c ∈ r', c.IsInner := fun c hc => by
          obtain ⟨t, ht | ht, hin⟩ := hp <;> simp only [List.cons_append, List.cons.injEq,
            reduceCtorEq, false_and] at ht
          exact hin c (ht.2 ▸ by simp [hc])
        simp [mapPath_usrEtc hr'] at hmap
    · left; rw [hmap', List.dropLast_concat, hmap]

/-- The writer's state along the walk: recorded, with the scaffolding in place, and closed when
the store's names are plain. -/
structure WalkInv (repo : Repo) (options : ExportOptions) (sha256 : Bytes → Checksum)
    (s : OstreeTarWriter) : Prop where
  recorded : Recorded repo options sha256 s
  scaffolded : Scaffolded options s.out
  closed : NamesPlain repo → Closed repo options s.out

namespace WalkInv

variable {repo : Repo} {options : ExportOptions} {sha256 : Bytes → Checksum} {s : OstreeTarWriter}

theorem closed_objectWritten (h : WalkInv repo options sha256 s) (set : WroteSet)
    {objtype : ObjectType} (hobj : objtype ≠ .file) (c : Checksum) (v : Bytes) :
    NamesPlain repo → Closed repo options (s.objectWritten set objtype c v).out := fun hn => by
  unfold OstreeTarWriter.objectWritten
  split
  · exact h.closed hn
  · exact (h.closed hn).snocObject h.scaffolded hobj c v

theorem objectWritten_dirtree (h : WalkInv repo options sha256 s) {c : Checksum}
    {v : DirTreeObject} (hv : repo.loadDirTree c = .ok v) :
    WalkInv repo options sha256 (s.objectWritten .dirtree .dirTree c v.bytes) :=
  ⟨h.recorded.objectWritten_dirtree hv,
    h.scaffolded.extend (Grows.objectWritten s (.inl rfl) _ _ _).out,
    h.closed_objectWritten _ (by decide) c v.bytes⟩

theorem objectWritten_dirmeta (h : WalkInv repo options sha256 s) {c : Checksum}
    {v : DirMetaObject} (hv : repo.loadDirMeta c = .ok v) :
    WalkInv repo options sha256 (s.objectWritten .dirmeta .dirMeta c v.bytes) :=
  ⟨h.recorded.objectWritten_dirmeta hv,
    h.scaffolded.extend (Grows.objectWritten s (.inr rfl) _ _ _).out,
    h.closed_objectWritten _ (by decide) c v.bytes⟩

/-- An entry at a path of the walk, with what it refers to before it. -/
theorem snoc (h : WalkInv repo options sha256 s) {e : Entry} (hp : WalkPath e.path)
    (he : NamesPlain repo → RefsBefore repo options s.out e) :
    WalkInv repo options sha256 { s with out := s.out ++ [e] } where
  recorded := h.recorded.append [e] fun c e' he' => by
    rw [List.mem_singleton.mp he', xattrsLinkPath_eq]; exact hp.ne_objectsPath c _
  scaffolded := h.scaffolded.extend (List.prefix_append _ _)
  closed hn := (h.closed hn).snoc (he hn)

/-- The entry the walk writes for a plain name below `p` has its directory before it. -/
theorem dirIn_parent (h : WalkInv repo options sha256 s) {p : Utf8PathBuf} (hp : WalkPath p)
    (hdir : DirIn s.out (normalizedPath (mapPath p))) {name : String} (hn : Utf8Path.IsPlain name) :
    DirIn s.out (normalizedPath (mapPath (Utf8Path.join p (Utf8Path.new name))).dropLast) := by
  rcases normalizedPath_parent_mapPath hp hn with heq | heq <;> rw [heq]
  · exact hdir
  · exact h.scaffolded.1

end WalkInv

section WalkSteps

variable (repo : Repo) (options : ExportOptions) (sha256 : Bytes → Checksum)
  (hfmt : options.formatVersion = 0 ∨ options.formatVersion = 1)
  (hdig : DigestsApart repo sha256)

/-- What a stretch of the walk from a state with the invariant leaves: on success the invariant,
growth and what the stretch marks; on failure an archive that is still closed. -/
def WalkEnds {α : Type} (s : OstreeTarWriter) (D : OstreeTarWriter → Prop) :
    EStateM.Result String OstreeTarWriter α → Prop :=
  Ends (fun _ s' => WalkInv repo options sha256 s' ∧ Grows s s' ∧ D s')
    (fun s' => NamesPlain repo → Closed repo options s'.out)

include hfmt hdig in
/-- One turn of the loop over files: the file object, recorded, then its hard link. -/
theorem appendFileEntry_walk {p : Utf8PathBuf} (hp : WalkPath p) {s : OstreeTarWriter}
    (h : WalkInv repo options sha256 s) (hdir : DirIn s.out (normalizedPath (mapPath p)))
    (file : String × Checksum) (hname : NamesPlain repo → Utf8Path.IsPlain file.1) :
    WalkEnds repo options sha256 s (fun s' => file.2 ∈ s'.wroteContent)
      (appendFileEntry repo options sha256 (mapPath p) file s) := by
  obtain ⟨name, c⟩ := file
  have hc := appendContent_recorded repo options sha256 hfmt hdig h.recorded h.scaffolded c
  rw [appendFileEntry_run]
  rcases hrun : appendContent repo options sha256 c s with ⟨⟨objpath, hdr⟩, s₁⟩ | ⟨e, s₁⟩ <;>
    rw [hrun] at hc
  · obtain ⟨rfl, hrec, hg, hmem, hcl⟩ := hc
    dsimp only
    rw [setLinkName_objectPath_file, mapPath_join_mapPath hp]
    obtain ⟨f, m, x, e, -, hce, he, -⟩ := hrec.content c hmem
    obtain ⟨hpath, hfile, -⟩ := contentEntry_ok hce
    have h₁ : WalkInv repo options sha256 s₁ :=
      ⟨hrec, h.scaffolded.extend hg.out, fun hn => hcl (h.closed hn)⟩
    refine ⟨h₁.snoc (hp.join name).mapPath fun hn => ⟨fun _ => ⟨e, he, hfile, by rw [hpath]⟩,
      fun _ => (h₁.dirIn_parent hp ((hdir.extend hg.out)) (hname hn)), fun c' _ _ _ hc' =>
        absurd hc' ((hp.join name).mapPath.ne_objectsPath c' _)⟩, hg.trans (Grows.append _ _), hmem⟩
  · exact fun hn => hc (h.closed hn)

/-- What the walk of the subtrees does, for the loop over directories: from a walk path whose
directory is in the archive, it ends well and marks its tree. -/
def WalkSubtrees (recurse : Utf8PathBuf → Checksum → WriterM Unit) : Prop :=
  ∀ p t s, WalkPath p → WalkInv repo options sha256 s → DirIn s.out (normalizedPath (mapPath p)) →
    WalkEnds repo options sha256 s (Covered repo t false) (recurse (mapPath p) t s)

/-- One turn of the loop over directories: the DirMeta object, then, but for the root's `sysroot`,
the directory entry and the walk of the subtree. -/
theorem appendDirEntry_walk {recurse : Utf8PathBuf → Checksum → WriterM Unit}
    (ih : WalkSubtrees repo options sha256 recurse) {p : Utf8PathBuf} (hp : WalkPath p)
    (isRoot : Bool) {s : OstreeTarWriter} (h : WalkInv repo options sha256 s)
    (hdir : DirIn s.out (normalizedPath (mapPath p))) (dir : String × Checksum × Checksum)
    (hname : NamesPlain repo → Utf8Path.IsPlain dir.1) :
    WalkEnds repo options sha256 s (fun s' => dir.2.2 ∈ s'.wroteDirmeta ∧
        (¬(isRoot = true ∧ dir.1 = sysroot) → Covered repo dir.2.1 false s'))
      (appendDirEntry repo options recurse (mapPath p) isRoot dir s) := by
  obtain ⟨name, contents, metaCsum⟩ := dir
  rw [appendDirEntry_run]
  rcases hm : repo.loadDirMeta metaCsum with e | metaV
  · exact h.closed
  dsimp only
  have h₁ := h.objectWritten_dirmeta hm
  have hg₁ := Grows.objectWritten s (.inr rfl) .dirMeta metaCsum metaV.bytes
  have hmem := s.mem_objectWritten (.inr rfl) .dirMeta metaCsum metaV.bytes
  split
  · next hroot => exact ⟨h₁, hg₁, hmem, fun hn => absurd hroot hn⟩
  · rw [mapPath_join_mapPath hp]
    let w := s.objectWritten .dirmeta .dirMeta metaCsum metaV.bytes
    let sub := dirEntry options (mapPath (Utf8Path.join p (Utf8Path.new name))) metaV.parsed
    have h₂ : WalkInv repo options sha256 { w with out := w.out ++ [sub] } :=
      h₁.snoc (hp.join name).mapPath fun hn => refsBefore_plain (by simp [sub, dirEntry])
        (fun c => (hp.join name).mapPath.ne_objectsPath c _)
        fun _ => h₁.dirIn_parent hp (hdir.extend hg₁.out) (hname hn)
    refine Ends.mono (ih _ contents _ (hp.join name) h₂ ⟨sub, by simp, rfl, rfl⟩)
      fun _ s' ⟨h', hg', hcov⟩ => ⟨h', (hg₁.trans (Grows.append w [sub])).trans hg',
        hg'.dirmeta hmem, fun _ => hcov⟩

/-- A name of a DirTree of the store, plain when the store's names are. -/
theorem NamesPlain.file {repo : Repo} {t : Checksum} {v : DirTreeObject}
    (hv : repo.loadDirTree t = .ok v) {f : String × Checksum} (hf : f ∈ v.files) :
    NamesPlain repo → Utf8Path.IsPlain f.1 :=
  fun hn => hn t v hv f.1 (List.mem_append_left _ (List.mem_map_of_mem _ hf))

theorem NamesPlain.dir {repo : Repo} {t : Checksum} {v : DirTreeObject}
    (hv : repo.loadDirTree t = .ok v) {d : String × Checksum × Checksum} (hd : d ∈ v.dirs) :
    NamesPlain repo → Utf8Path.IsPlain d.1 :=
  fun hn => hn t v hv d.1 (List.mem_append_right _ (List.mem_map_of_mem _ hd))

include hfmt hdig in
/-- `append_dirtree` from a walk path whose directory is in the archive ends well, and on success
has marked every tree its walk enters, with their files and DirMeta. -/
theorem appendDirtree_walk : ∀ fuel isRoot p t s, WalkPath p → WalkInv repo options sha256 s →
    DirIn s.out (normalizedPath (mapPath p)) →
    WalkEnds repo options sha256 s (Covered repo t isRoot)
      (appendDirtree repo options sha256 fuel (mapPath p) t isRoot s)
  | 0, _, _, _, _, _, h, _ => h.closed
  | fuel + 1, isRoot, p, t, s, hp, h, hdir => by
    rw [appendDirtree_succ]
    rcases hv : repo.loadDirTree t with e | v
    · exact h.closed
    let I := fun s' => WalkInv repo options sha256 s' ∧ DirIn s'.out (normalizedPath (mapPath p))
    have hfiles := Ends.forM_all I Grows (fun f s' => f.2 ∈ s'.wroteContent) Grows.refl
      (fun _ _ _ => Grows.trans) (fun _ _ _ hf hg => hg.content hf) v.files
      (appendFileEntry repo options sha256 (mapPath p)) (fun f hf s' ⟨hs', hd'⟩ =>
        Ends.mono (appendFileEntry_walk repo options sha256 hfmt hdig hp hs' hd' f
          (NamesPlain.file hv hf)) fun _ _ ⟨h'', hg'', hf''⟩ =>
            ⟨⟨h'', hd'.extend hg''.out⟩, hg'', hf''⟩)
      _ ⟨h.objectWritten_dirtree hv, hdir.extend (Grows.objectWritten s (.inl rfl) _ _ _).out⟩
    refine Ends.bind hfiles fun _ s₂ ⟨hI₂, hg₂, hf₂⟩ => ?_
    have hdirs := Ends.forM_all I Grows (fun (d : String × Checksum × Checksum) s' =>
        d.2.2 ∈ s'.wroteDirmeta ∧
        (¬(isRoot = true ∧ d.1 = sysroot) → Covered repo d.2.1 false s')) Grows.refl
      (fun _ _ _ => Grows.trans) (fun _ _ _ hd hg => ⟨hg.dirmeta hd.1, fun hn => (hd.2 hn).grows hg⟩)
      v.dirs (appendDirEntry repo options
        (fun p c => appendDirtree repo options sha256 fuel p c false) (mapPath p) isRoot) (fun d hd s' ⟨hs', hd'⟩ =>
        Ends.mono (appendDirEntry_walk repo options sha256
          (fun p' t' s'' => appendDirtree_walk fuel false p' t' s'') hp isRoot hs' hd' d
          (NamesPlain.dir hv hd)) fun _ _ ⟨h'', hg'', hd''⟩ =>
            ⟨⟨h'', hd'.extend hg''.out⟩, hg'', hd''⟩)
      s₂ hI₂
    refine Ends.mono hdirs fun _ s₃ ⟨⟨h₃, _⟩, hg₃, hd₃⟩ =>
      ⟨h₃, (Grows.objectWritten s (.inl rfl) _ _ _).trans (hg₂.trans hg₃), fun t' hw => ?_⟩
    cases hw with
    | refl =>
      refine ⟨(hg₂.trans hg₃).dirtree (s.mem_objectWritten (.inl rfl) .dirTree t v.bytes),
        fun v' hv' => ?_⟩
      obtain rfl : v = v' := Except.ok.inj (hv.symm.trans hv')
      exact ⟨fun f hf => hg₃.content (hf₂ f hf), fun d hd => (hd₃ d hd).1⟩
    | sub hv' hd hnot hw' =>
      obtain rfl := Except.ok.inj (hv.symm.trans hv')
      exact (hd₃ _ hd).2 hnot t' hw'

end WalkSteps

/-! ## The commit -/

/-- An archive cut short is closed when the whole is. -/
theorem Closed.cut {repo : Repo} {options : ExportOptions} {out out' : List Entry}
    (h : Closed repo options out') (hp : out <+: out') : Closed repo options out := by
  obtain ⟨more, rfl⟩ := hp
  exact fun pre e post hsplit => h pre e (post ++ more) (by simp [hsplit])

theorem configPath_length {options : ExportOptions} {cfg : Utf8PathBuf}
    (hcfg : configPath options = some cfg) : cfg.length ≠ 6 := by
  unfold configPath at hcfg
  split_ifs at hcfg <;> cases hcfg <;> decide

theorem normalizedPath_new_curDir : normalizedPath (Utf8Path.new "./") = [] := by
  rw [new_curDir, mapPath_curDir]; rfl

section Commit

variable {repo : Repo} {options : ExportOptions} {sha256 : Bytes → Checksum} {checksum : Checksum}
  {commitV : CommitObject} {metadataV : DirMetaObject} {cfg : Utf8PathBuf}
  {commitmeta : Option Bytes}

/-- No entry `write_commit` writes before the tree is an xattrs link. -/
theorem commitStart_not_xattrsLink (hcfg : configPath options = some cfg) (c : Checksum) :
    ∀ e ∈ (commitStart options checksum commitV metadataV cfg commitmeta).out,
      e.path ≠ xattrsLinkPath options c := by
  have hlen : ∀ p : Utf8PathBuf, p.length ≠ 6 → p ≠ xattrsLinkPath options c :=
    fun p hp heq => hp (by rw [heq, xattrsLinkPath_eq]; simp)
  intro e he
  simp only [commitStart, List.mem_append, List.mem_cons, List.mem_singleton, List.mem_map,
    List.not_mem_nil, or_false] at he
  rcases he with (((rfl | ⟨p, hp, rfl⟩) | rfl | rfl) | ⟨m, -, rfl⟩) | rfl
  · exact hlen _ (by rw [dirEntry_path, new_curDir, mapPath_curDir]; decide)
  · exact hlen _ (length_ne_of_mem_repoStructureDirs hp)
  · exact hlen _ (configPath_length hcfg)
  all_goals exact objectPath_ne_xattrsLinkPath _ options _ c

/-- The state `write_commit` reaches before the tree has the walk's invariant. -/
theorem walkInv_commitStart (hm : repo.loadDirMeta commitV.metadata = .ok metadataV)
    (hcfg : configPath options = some cfg) :
    WalkInv repo options sha256 (commitStart options checksum commitV metadataV cfg commitmeta) := by
  let root := dirEntry options (Utf8Path.new "./") metadataV.parsed
  have hroot : DirIn [root] [] := ⟨root, List.mem_singleton_self _, rfl, normalizedPath_new_curDir⟩
  have h₁ : Closed repo options [root] := (closed_nil repo options).snoc (refsBefore_plain
    (by simp [root, dirEntry])
    (fun c hc => walkPath_curDir.ne_objectsPath c _ (by rw [← mapPath_curDir, ← new_curDir]; exact hc))
    fun hne => absurd normalizedPath_new_curDir hne)
  have h₂ := h₁.writeRepoStructure hroot hcfg
  have hsc₂ : Scaffolded options ([root] ++ (repoStructureDirs options).map defaultDirEntry ++
      [defaultDataEntry cfg repoConfig.toUTF8.data.toList]) := scaffolded_writeRepoStructure hroot _
  have h₃ := h₂.snocObject hsc₂ (show ObjectType.commit ≠ .file by decide) checksum commitV.bytes
  have hsc₃ := hsc₂.extend
    (List.prefix_append _ [defaultDataEntry (objectPath .commit checksum) commitV.bytes])
  refine ⟨⟨fun _ h => absurd h (List.not_mem_nil _), fun _ h => absurd h (List.not_mem_nil _),
      fun c hc => ?_, fun _ h => absurd h (List.not_mem_nil _),
      fun c e he hp => absurd hp (commitStart_not_xattrsLink hcfg c e he)⟩, ?_, fun _ => ?_⟩
  · rw [List.mem_singleton.mp hc]; exact ⟨metadataV, hm, by simp [commitStart]⟩
  · simpa only [commitStart, List.append_assoc] using scaffolded_writeRepoStructure hroot
      ([defaultDataEntry cfg repoConfig.toUTF8.data.toList,
        defaultDataEntry (objectPath .commit checksum) commitV.bytes] ++
      commitmeta.toList.map (defaultDataEntry (objectPath .commitMeta checksum)) ++
      [defaultDataEntry (objectPath .dirMeta commitV.metadata) metadataV.bytes])
  · cases commitmeta with
    | none =>
      simpa [commitStart] using
        h₃.snocObject hsc₃ (show ObjectType.dirMeta ≠ .file by decide) commitV.metadata metadataV.bytes
    | some m =>
      have h₄ := h₃.snocObject hsc₃ (show ObjectType.commitMeta ≠ .file by decide) checksum m
      have hsc₄ := hsc₃.extend
        (List.prefix_append _ [defaultDataEntry (objectPath .commitMeta checksum) m])
      simpa [commitStart] using
        h₄.snocObject hsc₄ (show ObjectType.dirMeta ≠ .file by decide) commitV.metadata metadataV.bytes

end Commit

section Export

variable (repo : Repo) (options : ExportOptions) (sha256 : Bytes → Checksum)
  (hfmt : options.formatVersion = 0 ∨ options.formatVersion = 1)
  (hdig : DigestsApart repo sha256)

include hfmt hdig in
/-- `write_commit` on a new writer: on success the lookups succeeded, the state has grown from
`commitStart` with the walk's invariant and the walk from the root has been marked; on failure
the archive is closed. -/
theorem writeCommit_walk (fuel : Nat) (checksum : Checksum) :
    Ends (fun _ w => ∃ commitV metadataV cfg commitmeta, repo.loadCommit checksum = .ok commitV ∧
        repo.loadDirMeta commitV.metadata = .ok metadataV ∧ configPath options = some cfg ∧
        repo.readCommitDetachedMetadata checksum = .ok commitmeta ∧
        WalkInv repo options sha256 w ∧
        Grows (commitStart options checksum commitV metadataV cfg commitmeta) w ∧
        Covered repo commitV.contents true w)
      (fun w => NamesPlain repo → Closed repo options w.out)
      (writeCommit repo options sha256 fuel checksum OstreeTarWriter.new) := by
  obtain ⟨cfg, hcfg⟩ : ∃ cfg, configPath options = some cfg := by
    rcases hfmt with h | h <;> simp [configPath, h]
  rw [writeCommit_run]
  rcases hc : repo.loadCommit checksum with e | commitV
  · exact fun _ => closed_nil repo options
  dsimp only
  rcases hm : repo.loadDirMeta commitV.metadata with e | metadataV
  · exact fun _ => closed_nil repo options
  have hstart := fun commitmeta => @walkInv_commitStart repo options sha256 checksum commitV
    metadataV cfg commitmeta hm hcfg
  dsimp only
  rw [writeRepoStructure_run]
  simp only [OstreeTarWriter.new, hcfg, Bool.false_eq_true, if_false]
  rcases hmeta : repo.readCommitDetachedMetadata checksum with e | commitmeta
  · exact fun hn => ((hstart none).closed hn).cut
      ⟨[defaultDataEntry (objectPath .dirMeta commitV.metadata) metadataV.bytes],
        by simp [commitStart]⟩
  · dsimp only
    suffices hw : ∀ w, w = commitStart options checksum commitV metadataV cfg commitmeta →
        Ends (fun _ w' => WalkInv repo options sha256 w' ∧
            Grows (commitStart options checksum commitV metadataV cfg commitmeta) w' ∧
            Covered repo commitV.contents true w')
          (fun w' => NamesPlain repo → Closed repo options w'.out)
          (appendDirtree repo options sha256 fuel (Utf8Path.new "./") commitV.contents true w) by
      refine Ends.mono (hw _ ?_) fun _ w ⟨hw', hg, hcov⟩ =>
        ⟨commitV, metadataV, cfg, commitmeta, rfl, hm, rfl, rfl, hw', hg, hcov⟩
      cases commitmeta <;> simp [OstreeTarWriter.objectWritten, commitStart]
    rintro _ rfl
    rw [new_curDir]
    exact appendDirtree_walk repo options sha256 hfmt hdig fuel true [.curDir] commitV.contents _
      walkPath_curDir (hstart commitmeta) ⟨dirEntry options (Utf8Path.new "./") metadataV.parsed,
        by simp [commitStart], rfl, congrArg normalizedPath new_curDir⟩

/-- What a complete archive of the commit `rev` resolves to holds: the commit object, its
detached metadata when it has some, the root DirMeta, and for every tree the walk enters, the
tree, its files and the DirMeta of its directory entries, each with the bytes the store has. -/
def CommitStored (rev : String) (out : List Entry) : Prop :=
  ∃ commit commitV, repo.requireRev rev = .ok commit ∧ repo.loadCommit commit = .ok commitV ∧
    defaultDataEntry (objectPath .commit commit) commitV.bytes ∈ out ∧
    (∀ m, repo.readCommitDetachedMetadata commit = .ok (some m) →
      defaultDataEntry (objectPath .commitMeta commit) m ∈ out) ∧
    DirMetaStored repo out commitV.metadata ∧
    ∀ t, Walks repo commitV.contents true t → DirTreeStored repo out t ∧
      ∀ v, repo.loadDirTree t = .ok v → (∀ f ∈ v.files, FileStored repo options sha256 out f.2) ∧
        ∀ d ∈ v.dirs, DirMetaStored repo out d.2.2

include hfmt hdig in
/-- A successful export holds every object the commit reaches through the walk, with the bytes
the store has. -/
theorem exportCommit_complete {fuel : Nat} {rev : String} {w : OstreeTarWriter}
    (h : exportCommit repo sha256 fuel rev (some options) = .ok () w) :
    CommitStored repo options sha256 rev w.out := by
  obtain ⟨commit, hrev, hw⟩ := (exportCommit_ok repo sha256 fuel rev (some options) w).mp h
  have hwalk := writeCommit_walk repo options sha256 hfmt hdig fuel commit
  rw [show (some options).getD {} = options from rfl] at hw
  rw [hw] at hwalk
  obtain ⟨commitV, metadataV, cfg, commitmeta, hc, -, -, hmeta, hinv, hg, hcov⟩ := hwalk
  have hstart : ∀ e ∈ (commitStart options commit commitV metadataV cfg commitmeta).out, e ∈ w.out :=
    fun e he => hg.out.subset he
  refine ⟨commit, commitV, hrev, hc, hstart _ (by simp [commitStart]), fun m hm => hstart _ ?_,
    hinv.recorded.dirmeta _ (hg.dirmeta (List.mem_singleton_self _)), fun t ht => ?_⟩
  · rw [hmeta] at hm; cases hm; simp [commitStart]
  obtain ⟨htree, hv⟩ := hcov t ht
  exact ⟨hinv.recorded.dirtree t htree, fun v hl =>
    ⟨fun f hf => (hinv.recorded.content _ ((hv v hl).1 f hf)).stored,
      fun d hd => hinv.recorded.dirmeta _ ((hv v hl).2 d hd)⟩⟩

include hfmt hdig in
/-- Every entry of an archive `export_commit` emits, whole or cut short by an error, comes after
what it refers to, so every prefix of it is closed, when the store's names are plain. -/
theorem exportCommit_closed (fuel : Nat) (rev : String) (hplain : NamesPlain repo) :
    Closed repo options (finalState (exportCommit repo sha256 fuel rev (some options))).out := by
  rw [exportCommit_eq]
  rcases repo.requireRev rev with e | commit
  · exact closed_nil repo options
  have hwalk := writeCommit_walk repo options sha256 hfmt hdig fuel commit
  dsimp only
  rw [show (some options).getD {} = options from rfl]
  rcases hw : writeCommit repo options sha256 fuel commit OstreeTarWriter.new with ⟨_, w⟩ | ⟨e, w⟩ <;>
    rw [hw] at hwalk
  · obtain ⟨_, _, _, _, -, -, -, -, hinv, -⟩ := hwalk
    exact hinv.closed hplain
  · exact hwalk hplain

end Export

/-! ## A store with a root `sysroot` directory -/

/-- The DirTree of the sample's root `sysroot` directory. -/
def sampleSysroot : Checksum :=
  ⟨"3300000000000000000000000000000000000000000000000000000000000000", by decide, by decide⟩

/-- A store with one file object, at `a` at the root, an empty `usr/etc`, and a root directory
`sysroot` holding the file again as `b`; it has no other file object. -/
def sysrootDirRepo : Repo where
  requireRev _ := .ok sampleCommit
  loadCommit _ := .ok ⟨[1], sampleRoot, sampleDirMeta⟩
  loadDirTree c :=
    if c = sampleRoot then
      .ok ⟨[2], [("a", sampleFile)],
        [("usr", sampleUsr, sampleDirMeta), (sysroot, sampleSysroot, sampleDirMeta)]⟩
    else if c = sampleUsr then .ok ⟨[2], [], [("etc", sampleEmpty, sampleDirMeta)]⟩
    else if c = sampleSysroot then .ok ⟨[5], [("b", sampleFile)], []⟩
    else .ok ⟨[2], [], []⟩
  loadDirMeta _ := .ok ⟨[3], ⟨0, 0, 0o40755⟩⟩
  readCommitDetachedMetadata _ := .ok none
  loadFile c :=
    if c = sampleFile then .ok ⟨some [4], some ⟨0, 0, 0o100644, .regular, 1, none⟩, some [7]⟩
    else .error "no such object"

theorem sysrootDirRepo_digestsApart : DigestsApart sysrootDirRepo (fun _ => sampleDigest) := by
  intro c c' r r' _ h'
  by_cases hc : c' = sampleFile
  · rw [hc]; show sampleDigest ≠ sampleFile; decide
  · simp [loadContent, sysrootDirRepo, hc] at h'

theorem sysrootDirRepo_namesPlain : NamesPlain sysrootDirRepo := by
  intro c v h
  simp only [sysrootDirRepo] at h
  split_ifs at h <;> cases h <;> decide

set_option maxRecDepth 100000 in
/-- The export of the sample store, evaluated once: it succeeds, and no entry it writes is at the
path of the `sysroot` DirTree. -/
theorem sysrootDirRepo_export :
    ∃ w, exportCommit sysrootDirRepo (fun _ => sampleDigest) 4 "main" (some ⟨1⟩) = .ok () w ∧
      ∀ e ∈ w.out, e.path ≠ objectPath .dirTree sampleSysroot :=
  ⟨_, rfl, by decide⟩

theorem exportCommit_complete_sample :
    ∃ w, exportCommit sysrootDirRepo (fun _ => sampleDigest) 4 "main" (some ⟨1⟩) = .ok () w ∧
      DigestsApart sysrootDirRepo (fun _ => sampleDigest) ∧
      CommitStored sysrootDirRepo ⟨1⟩ (fun _ => sampleDigest) "main" w.out := by
  obtain ⟨w, hw, -⟩ := sysrootDirRepo_export
  exact ⟨w, hw, sysrootDirRepo_digestsApart,
    exportCommit_complete _ _ _ (.inr rfl) sysrootDirRepo_digestsApart hw⟩

/-- The root's `sysroot` directory is in the root tree, yet its tree is not in the archive: the walk
writes its DirMeta and stops. -/
theorem exportCommit_sysroot_tree_missing :
    DigestsApart sysrootDirRepo (fun _ => sampleDigest) ∧
    (∃ v, sysrootDirRepo.loadDirTree sampleRoot = .ok v ∧
      (sysroot, sampleSysroot, sampleDirMeta) ∈ v.dirs) ∧
    ∃ w, exportCommit sysrootDirRepo (fun _ => sampleDigest) 4 "main" (some ⟨1⟩) = .ok () w ∧
      ∀ e ∈ w.out, e.path ≠ objectPath .dirTree sampleSysroot :=
  ⟨sysrootDirRepo_digestsApart, ⟨_, rfl, by decide⟩, sysrootDirRepo_export⟩

theorem exportCommit_closed_sample :
    DigestsApart sysrootDirRepo (fun _ => sampleDigest) ∧ NamesPlain sysrootDirRepo ∧
      Closed sysrootDirRepo ⟨1⟩
        (finalState (exportCommit sysrootDirRepo (fun _ => sampleDigest) 4 "main" (some ⟨1⟩))).out :=
  ⟨sysrootDirRepo_digestsApart, sysrootDirRepo_namesPlain,
    exportCommit_closed _ _ _ (.inr rfl) sysrootDirRepo_digestsApart 4 "main"
      sysrootDirRepo_namesPlain⟩

/-! ## Two files with the same xattrs -/

/-- A second file object. -/
def sampleFile2 : Checksum :=
  ⟨"ab00000000000000000000000000000000000000000000000000000000000000", by decide, by decide⟩

/-- A store whose root holds two file objects, `a` and `b`, with different contents and the same
empty xattrs; it has no other file object. -/
def twinXattrsRepo : Repo where
  requireRev _ := .ok sampleCommit
  loadCommit _ := .ok ⟨[1], sampleRoot, sampleDirMeta⟩
  loadDirTree _ := .ok ⟨[2], [("a", sampleFile), ("b", sampleFile2)], []⟩
  loadDirMeta _ := .ok ⟨[3], ⟨0, 0, 0o40755⟩⟩
  readCommitDetachedMetadata _ := .ok none
  loadFile c :=
    if c = sampleFile then .ok ⟨some [4], some ⟨0, 0, 0o100644, .regular, 1, none⟩, some []⟩
    else if c = sampleFile2 then .ok ⟨some [5], some ⟨0, 0, 0o100644, .regular, 1, none⟩, some []⟩
    else .error "no such object"

set_option maxRecDepth 100000 in
/-- The xattrs set is checked for the blob's digest but given the file's checksum, so the second
file does not find the blob the first one wrote, and the archive has it twice. -/
theorem exportCommit_xattrs_blob_twice :
    DigestsApart twinXattrsRepo (fun _ => sampleDigest) ∧
    ∃ w, exportCommit twinXattrsRepo (fun _ => sampleDigest) 2 "main" (some ⟨1⟩) = .ok () w ∧
      (w.out.map Entry.path).count (v1XattrsObjectPath sampleDigest) = 2 := by
  refine ⟨fun c c' r r' _ h' => ?_, _, rfl, by decide⟩
  by_cases h₁ : c' = sampleFile
  · rw [h₁]; show sampleDigest ≠ sampleFile; decide
  by_cases h₂ : c' = sampleFile2
  · rw [h₂]; show sampleDigest ≠ sampleFile2; decide
  simp [loadContent, twinXattrsRepo, h₁, h₂] at h'

/-! ## An xattrs digest that is a file's checksum -/

/-- A store whose root holds two file objects, `a` and `b`, with different xattrs. -/
def digestTwinRepo : Repo where
  requireRev _ := .ok sampleCommit
  loadCommit _ := .ok ⟨[1], sampleRoot, sampleDirMeta⟩
  loadDirTree _ := .ok ⟨[2], [("a", sampleFile), ("b", sampleFile2)], []⟩
  loadDirMeta _ := .ok ⟨[3], ⟨0, 0, 0o40755⟩⟩
  readCommitDetachedMetadata _ := .ok none
  loadFile c :=
    if c = sampleFile then .ok ⟨some [4], some ⟨0, 0, 0o100644, .regular, 1, none⟩, some [7]⟩
    else if c = sampleFile2 then .ok ⟨some [5], some ⟨0, 0, 0o100644, .regular, 1, none⟩, some [8]⟩
    else .error "no such object"

/-- Digests under which the xattrs of `b` have the checksum of `a` as theirs. -/
def digestTwinSha256 (bytes : Bytes) : Checksum := if bytes = [8] then sampleFile else sampleDigest

set_option maxRecDepth 100000 in
/-- The set holds the checksum of `a` once `a` is written, so the blob of `b`'s xattrs, whose
digest that is, is taken for written and skipped: the link of `b` to it is a hard link to no
entry of the archive. -/
theorem exportCommit_xattrs_link_dangles :
    ∃ w, exportCommit digestTwinRepo digestTwinSha256 2 "main" (some ⟨1⟩) = .ok () w ∧
      ∃ e ∈ w.out, e.header.entryType = .link ∧
        ∀ e' ∈ w.out, e.header.linkName ≠ some (Utf8Path.render e'.path) :=
  ⟨_, rfl, defaultHardlinkEntry (xattrsLinkPath ⟨1⟩ sampleFile2) (xattrsBlobPath ⟨1⟩ sampleFile),
    by decide, rfl, by decide⟩

end OstreeTar
