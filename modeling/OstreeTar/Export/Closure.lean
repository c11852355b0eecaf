import OstreeTar.Export.Collisions
import OstreeTar.Export.Formats

/-!
# Archives closed under reference

An entry of the archive refers to other entries: a hard link to the file it links to, every entry
but the root `./` to the directory it is in, and a file object to its xattrs link when its format
writes one.  The archive is closed under reference when each entry comes after everything it
refers to, so that every prefix a reader has taken in is consistent (`Closed`).

This module states that property and what it takes to keep it while appending: the lemmas on
object paths that tell the entries apart, and the scaffolding `write_repo_structure` lays out,
each directory after its parent.
-/

namespace OstreeTar

/-! ## Object paths -/

theorem Checksum.eq_of_str {c c' : Checksum} (h : c.str = c'.str) : c = c' := by
  cases c; cases c'; cases h; rfl

@[simp] theorem objectsPath_length (c : Checksum) (suffix : String) :
    (objectsPath c suffix).length = 6 := rfl

/-- An object path names its checksum and its suffix. -/
theorem objectsPath_inj {c c' : Checksum} {s s' : String} (h : objectsPath c s = objectsPath c' s') :
    c = c' ∧ s = s' := by
  simp only [objectsPath_eq, List.map_cons, List.map_nil, List.cons.injEq, Component.normal.injEq,
    true_and, and_true] at h
  obtain ⟨h₁, h₂⟩ := h
  have hs : s = s' := by rw [← objectSuffix_objectName c s, h₂, objectSuffix_objectName]
  subst hs
  have hrest : c.splitAt.2.data = c'.splitAt.2.data := by
    have h₂' := congrArg String.data h₂
    simp only [String.data_append] at h₂'
    exact List.append_cancel_right (List.append_cancel_right h₂')
  have hfirst := congrArg String.data h₁
  simp only [Checksum.splitAt] at hrest hfirst
  refine ⟨Checksum.eq_of_str (String.ext ?_), rfl⟩
  rw [← List.take_append_drop 2 c.str.data, ← List.take_append_drop 2 c'.str.data, hfirst, hrest]

/-- A file's xattrs link, by the suffix its format gives it. -/
theorem xattrsLinkPath_eq (options : ExportOptions) (c : Checksum) :
    xattrsLinkPath options c =
      objectsPath c (if options.formatVersion = 0 then "file.xattrs" else "file-xattrs-link") := by
  unfold xattrsLinkPath; split <;> rfl

theorem xattrsLinkPath_inj {options : ExportOptions} {c c' : Checksum}
    (h : xattrsLinkPath options c = xattrsLinkPath options c') : c = c' := by
  rw [xattrsLinkPath_eq, xattrsLinkPath_eq] at h
  exact (objectsPath_inj h).1

theorem objectPath_ne_xattrsLinkPath (objtype : ObjectType) (options : ExportOptions)
    (c c' : Checksum) : objectPath objtype c ≠ xattrsLinkPath options c' := fun h => by
  rw [xattrsLinkPath_eq] at h
  have hs := (objectsPath_inj h).2
  cases objtype <;> split at hs <;> simp [ObjectType.suffix] at hs

theorem xattrsBlobPath_ne_objectsPath (options : ExportOptions) (d c : Checksum) {suffix : String}
    (hs : options.formatVersion ≠ 0 → suffix ≠ "file-xattrs") :
    xattrsBlobPath options d ≠ objectsPath c suffix := fun h => by
  unfold xattrsBlobPath at h
  split at h
  · exact absurd (congrArg List.length h) (by simp [v0XattrsPath, ostreeDir])
  · exact hs ‹_› (objectsPath_inj h).2.symm

theorem xattrsBlobPath_ne_objectPath (options : ExportOptions) (d c : Checksum) (objtype : ObjectType) :
    xattrsBlobPath options d ≠ objectPath objtype c :=
  xattrsBlobPath_ne_objectsPath options d c fun _ => by cases objtype <;> simp [ObjectType.suffix]

theorem xattrsBlobPath_ne_xattrsLinkPath (options : ExportOptions) (d c : Checksum) :
    xattrsBlobPath options d ≠ xattrsLinkPath options c := by
  rw [xattrsLinkPath_eq]
  exact xattrsBlobPath_ne_objectsPath options d c fun h => by simp [h]

theorem WalkPath.ne_objectsPath {p : Utf8PathBuf} (hp : WalkPath p) (c : Checksum) (suffix : String) :
    p ≠ objectsPath c suffix := by
  obtain ⟨t, rfl | rfl, -⟩ := hp <;> simp [objectsPath_eq]

/-- The directory an object is in: the shard of its checksum. -/
def shardDir (c : Checksum) : Utf8PathBuf :=
  ostreeDir ++ [.normal "repo", .normal "objects", .normal c.splitAt.1]

@[simp] theorem normalizedPath_objectsPath_dropLast (c : Checksum) (suffix : String) :
    normalizedPath (objectsPath c suffix).dropLast = shardDir c := by
  simp [objectsPath_eq, shardDir, normalizedPath, ostreeDir]

theorem digitChar_of_isLowerHexDigit {ch : Char} (h : isLowerHexDigit ch = true) :
    ∃ k < 16, Nat.digitChar k = ch := by
  have hrange : ∀ n < 103, (48 ≤ n ∧ n ≤ 57 ∨ 97 ≤ n ∧ n ≤ 102) →
      ∃ k < 16, (Nat.digitChar k).toNat = n := by decide
  simp only [isLowerHexDigit, Char.isDigit, Bool.or_eq_true, Bool.and_eq_true, decide_eq_true_eq,
    Char.le_def] at h
  have hn : (48 ≤ ch.toNat ∧ ch.toNat ≤ 57) ∨ (97 ≤ ch.toNat ∧ ch.toNat ≤ 102) := by
    rcases h with ⟨h1, h2⟩ | ⟨h1, h2⟩
    · exact .inl ⟨h1, h2⟩
    · exact .inr ⟨h1, h2⟩
  obtain ⟨k, hk, hkc⟩ := hrange ch.toNat (by omega) hn
  exact ⟨k, hk, Char.ext (UInt32.ext hkc)⟩

/-- Every checksum's shard is among the 256 directories `write_repo_structure` makes. -/
theorem shardDir_mem (c : Checksum) (options : ExportOptions) :
    shardDir c ∈ repoStructureDirs options := by
  obtain ⟨a, b, rest, hc⟩ : ∃ a b rest, c.str.data = a :: b :: rest := by
    match c.str.data, c.length_data with
    | a :: b :: rest, _ => exact ⟨a, b, rest, rfl⟩
  obtain ⟨k₁, hk₁, rfl⟩ := @digitChar_of_isLowerHexDigit a (c.isLowerHexDigit_of_mem (by simp [hc]))
  obtain ⟨k₂, hk₂, rfl⟩ := @digitChar_of_isLowerHexDigit b (c.isLowerHexDigit_of_mem (by simp [hc]))
  have hsplit : c.splitAt.1 = hex2 (16 * k₁ + k₂) := by
    simp only [Checksum.splitAt, hc, hex2, List.take]
    congr <;> omega
  simp only [shardDir, repoStructureDirs, List.mem_append, List.mem_map, List.mem_range]
  exact .inl (.inl (.inl (.inr ⟨16 * k₁ + k₂, by omega, by rw [hsplit]; rfl⟩)))

/-! ## Closed archives -/

/-- An entry a hard link may point to: a regular file or a symlink. -/
def Entry.IsFileLike (e : Entry) : Prop :=
  e.header.entryType = .regular ∨ e.header.entryType = .symlink

/-- The archive has a directory entry at `q`, up to `.` components. -/
def DirIn (out : List Entry) (q : Utf8PathBuf) : Prop :=
  ∃ e ∈ out, e.header.entryType = .directory ∧ normalizedPath e.path = q

theorem DirIn.append {out : List Entry} {q : Utf8PathBuf} (h : DirIn out q) (more : List Entry) :
    DirIn (out ++ more) q :=
  let ⟨e, he, hd, hq⟩ := h; ⟨e, List.mem_append_left _ he, hd, hq⟩

theorem DirIn.extend {out out' : List Entry} {q : Utf8PathBuf} (h : DirIn out q)
    (hp : out <+: out') : DirIn out' q := by
  obtain ⟨more, rfl⟩ := hp; exact h.append more

theorem dirIn_defaultDirEntry {out : List Entry} {p : Utf8PathBuf} (h : defaultDirEntry p ∈ out) :
    DirIn out (normalizedPath p) :=
  ⟨_, h, rfl, rfl⟩

section Closure

variable (repo : Repo) (options : ExportOptions)

/-- What an entry refers to, all found among the entries before it.  A hard link names a regular
file or symlink before it; an entry other than the root `./` has its directory before it; and a
file object has its xattrs link before it exactly when its format writes one: always in format 1,
for non-empty xattrs in format 0. -/
structure RefsBefore (before : List Entry) (e : Entry) : Prop where
  link : e.header.entryType = .link →
    ∃ e' ∈ before, e'.IsFileLike ∧ e.header.linkName = some (Utf8Path.render e'.path)
  parent : normalizedPath e.path ≠ [] → DirIn before (normalizedPath e.path.dropLast)
  xattrs : ∀ c file meta xattrs, e.path = objectPath .file c →
    loadContent repo c = .ok (file, meta, xattrs) →
    ((∃ e' ∈ before, e'.path = xattrsLinkPath options c) ↔
      ¬(xattrs = [] ∧ options.formatVersion = 0))

/-- The archive is closed under reference: every entry comes after what it refers to, so every
prefix of it is closed. -/
def Closed (out : List Entry) : Prop :=
  ∀ pre e post, out = pre ++ e :: post → RefsBefore repo options pre e

theorem closed_nil : Closed repo options [] := fun pre e post h => by simp at h

variable {repo options}

theorem Closed.snoc {out : List Entry} {e : Entry} (h : Closed repo options out)
    (he : RefsBefore repo options out e) : Closed repo options (out ++ [e]) := by
  intro pre e' post hsplit
  rcases List.eq_nil_or_concat post with rfl | ⟨post', x, rfl⟩
  · obtain ⟨rfl, he'⟩ := List.append_inj' hsplit rfl
    cases he'
    exact he
  · rw [List.concat_eq_append, ← List.cons_append, ← List.append_assoc] at hsplit
    exact h pre e' post' (List.append_inj' hsplit rfl).1

/-- The references of an entry that is not a hard link and not at a file object's path: only its
directory. -/
theorem refsBefore_plain {before : List Entry} {e : Entry} (hlink : e.header.entryType ≠ .link)
    (hobj : ∀ c, e.path ≠ objectPath .file c)
    (hpar : normalizedPath e.path ≠ [] → DirIn before (normalizedPath e.path.dropLast)) :
    RefsBefore repo options before e :=
  ⟨fun h => absurd h hlink, hpar, fun c _ _ _ h => absurd h (hobj c)⟩

/-- Directories whose parents are all in the archive already, none of an object path's length. -/
theorem Closed.appendDirs {out : List Entry} (h : Closed repo options out) :
    ∀ ps : List Utf8PathBuf, (∀ p ∈ ps, p.length ≠ 6 ∧ DirIn out (normalizedPath p.dropLast)) →
      Closed repo options (out ++ ps.map defaultDirEntry) := by
  intro ps hps
  induction ps using List.reverseRecOn with
  | nil => simpa using h
  | append_singleton ps p ih =>
    have hp := hps p (by simp)
    rw [List.map_append, List.map_singleton, ← List.append_assoc]
    refine (ih fun q hq => hps q (by simp [hq])).snoc (refsBefore_plain (by simp [defaultDirEntry]) ?_ ?_)
    · intro c hc
      exact hp.1 (by rw [defaultDirEntry_path] at hc; rw [hc]; rfl)
    · exact fun _ => hp.2.append _

/-- Whether each directory of a list, appended in order, has its parent among `known` or earlier
in the list, and is not of an object path's length. -/
def dirsInOrder (known : List Utf8PathBuf) : List Utf8PathBuf → Bool
  | [] => true
  | p :: ps => p.length != 6 && known.contains (normalizedPath p.dropLast) &&
      dirsInOrder (normalizedPath p :: known) ps

theorem Closed.appendDirsInOrder : ∀ (known ps : List Utf8PathBuf) {out : List Entry},
    Closed repo options out → (∀ q ∈ known, DirIn out q) → dirsInOrder known ps = true →
      Closed repo options (out ++ ps.map defaultDirEntry)
  | _, [], _, h, _, _ => by simpa using h
  | known, p :: ps, out, h, hknown, hps => by
    simp only [dirsInOrder, Bool.and_eq_true, bne_iff_ne, ne_eq, List.elem_eq_mem,
      decide_eq_true_eq] at hps
    obtain ⟨⟨hlen, hpar⟩, hrest⟩ := hps
    have hsnoc : Closed repo options (out ++ [defaultDirEntry p]) :=
      h.snoc (refsBefore_plain (by simp [defaultDirEntry])
        (fun c hc => hlen (by rw [defaultDirEntry_path] at hc; rw [hc]; rfl))
        fun _ => hknown _ hpar)
    have := Closed.appendDirsInOrder (normalizedPath p :: known) ps hsnoc (fun q hq => by
      rcases List.mem_cons.mp hq with rfl | hq
      · exact dirIn_defaultDirEntry (by simp)
      · exact (hknown q hq).append _) hrest
    simpa using this

end Closure

/-! ## The scaffolding -/

/-- The root and the scaffolding's directories are in the archive. -/
def Scaffolded (options : ExportOptions) (out : List Entry) : Prop :=
  DirIn out [] ∧ ∀ p ∈ repoStructureDirs options, DirIn out (normalizedPath p)

theorem Scaffolded.extend {options : ExportOptions} {out out' : List Entry}
    (h : Scaffolded options out) (hp : out <+: out') : Scaffolded options out' :=
  ⟨h.1.extend hp, fun p hp' => (h.2 p hp').extend hp⟩

theorem Scaffolded.shardDir {options : ExportOptions} {out : List Entry}
    (h : Scaffolded options out) (c : Checksum) : DirIn out (OstreeTar.shardDir c) := by
  have := h.2 _ (shardDir_mem c options)
  rwa [show normalizedPath (OstreeTar.shardDir c) = OstreeTar.shardDir c by
    simp [OstreeTar.shardDir, normalizedPath, ostreeDir]] at this

/-- The directories `write_repo_structure` makes first: `sysroot` down to `repo/objects`. -/
theorem repoStructureDirs_eq (options : ExportOptions) :
    repoStructureDirs options =
      [[.normal sysroot], ostreeDir, ostreeDir ++ [.normal "repo"],
        ostreeDir ++ [.normal "repo", .normal "objects"]] ++
      (List.range 256).map (fun d => ostreeDir ++ [.normal "repo", .normal "objects", .normal (hex2 d)]) ++
      (["tmp", "tmp/cache"].map (fun d => ostreeDir ++ [.normal "repo"] ++ Utf8Path.new d) ++
      ["refs", "refs/heads", "refs/mirrors", "refs/remotes"].map
        (fun d => ostreeDir ++ [.normal "repo"] ++ Utf8Path.new d) ++
      (if options.formatVersion = 0 then [ostreeDir ++ [.normal "repo", .normal "xattrs"]] else [])) := by
  simp only [repoStructureDirs, List.append_assoc]
  rfl

/-- `write_repo_structure` after the root: each directory after its parent, then the
configuration in its directory. -/
theorem Closed.writeRepoStructure {repo : Repo} {options : ExportOptions} {out : List Entry}
    {cfg : Utf8PathBuf} (h : Closed repo options out) (hroot : DirIn out [])
    (hcfg : configPath options = some cfg) :
    Closed repo options (out ++ (repoStructureDirs options).map defaultDirEntry ++
      [defaultDataEntry cfg repoConfig.toUTF8.data.toList]) := by
  let ancestors : List Utf8PathBuf := [[.normal sysroot], ostreeDir, ostreeDir ++ [.normal "repo"],
    ostreeDir ++ [.normal "repo", .normal "objects"]]
  have hA := h.appendDirsInOrder [[]] ancestors (by simpa using hroot) (by decide)
  have hknown : ∀ q ∈ ancestors, DirIn (out ++ ancestors.map defaultDirEntry) q := by
    intro q hq
    have hq' : defaultDirEntry q ∈ ancestors.map defaultDirEntry ∧ normalizedPath q = q := by
      revert q; decide
    exact hq'.2 ▸ dirIn_defaultDirEntry (List.mem_append_right _ hq'.1)
  have hH := hA.appendDirs ((List.range 256).map fun d =>
      ostreeDir ++ [.normal "repo", .normal "objects", .normal (hex2 d)]) fun p hp => by
    obtain ⟨d, -, rfl⟩ := List.mem_map.mp hp
    refine ⟨by simp [ostreeDir], ?_⟩
    simpa [normalizedPath, ostreeDir] using hknown (ostreeDir ++ [.normal "repo", .normal "objects"])
      (by simp [ancestors])
  have hrepo := hknown (ostreeDir ++ [.normal "repo"]) (by simp [ancestors])
  have hrest := hH.appendDirsInOrder [ostreeDir ++ [.normal "repo"]]
    (["tmp", "tmp/cache"].map (fun d => ostreeDir ++ [.normal "repo"] ++ Utf8Path.new d) ++
      ["refs", "refs/heads", "refs/mirrors", "refs/remotes"].map
        (fun d => ostreeDir ++ [.normal "repo"] ++ Utf8Path.new d) ++
      (if options.formatVersion = 0 then [ostreeDir ++ [.normal "repo", .normal "xattrs"]] else []))
    (fun q hq => by rw [List.mem_singleton.mp hq]; exact hrepo.append _)
    (by by_cases h0 : options.formatVersion = 0 <;> simp only [h0, if_true, if_false] <;> decide)
  have hcfgDir : cfg.length ≠ 6 ∧
      DirIn (out ++ ancestors.map defaultDirEntry) (normalizedPath cfg.dropLast) := by
    unfold configPath at hcfg
    split_ifs at hcfg <;> cases hcfg
    · exact ⟨by decide, by simpa [normalizedPath] using hknown [.normal sysroot] (by simp [ancestors])⟩
    · exact ⟨by decide, by simpa [normalizedPath, ostreeDir] using hrepo⟩
  have := hrest.snoc (show RefsBefore repo options _ (defaultDataEntry cfg repoConfig.toUTF8.data.toList)
    from refsBefore_plain (by simp [defaultDataEntry])
      (fun c hc => hcfgDir.1 (by rw [defaultDataEntry_path] at hc; rw [hc]; rfl))
      fun _ => (hcfgDir.2.append _).append _)
  simpa [repoStructureDirs_eq, List.append_assoc] using this

/-- After `write_repo_structure` the scaffolding is in the archive. -/
theorem scaffolded_writeRepoStructure {options : ExportOptions} {out : List Entry}
    (hroot : DirIn out []) (more : List Entry) :
    Scaffolded options (out ++ (repoStructureDirs options).map defaultDirEntry ++ more) :=
  ⟨(hroot.append _).append _, fun _ hp =>
    (dirIn_defaultDirEntry (List.mem_append_right _ (List.mem_map_of_mem _ hp))).append _⟩

/-- No directory of the scaffolding has an object path's length. -/
theorem length_ne_of_mem_repoStructureDirs {options : ExportOptions} {p : Utf8PathBuf}
    (hp : p ∈ repoStructureDirs options) : p.length ≠ 6 := by
  rw [repoStructureDirs_eq] at hp
  rcases List.mem_append.mp hp with h | h <;> clear hp
  · rcases List.mem_append.mp h with h' | h' <;> clear h
    · revert h' p; decide
    · obtain ⟨d, -, rfl⟩ := List.mem_map.mp h'; simp [ostreeDir]
  · by_cases h0 : options.formatVersion = 0 <;> simp only [h0, if_true, if_false] at h <;>
      revert h p <;> decide

/-- An object other than a file, appended once the scaffolding is there: it needs only its
shard. -/
theorem Closed.snocObject {repo : Repo} {options : ExportOptions} {out : List Entry}
    (h : Closed repo options out) (hsc : Scaffolded options out) {objtype : ObjectType}
    (hobj : objtype ≠ .file) (c : Checksum) (v : Bytes) :
    Closed repo options (out ++ [defaultDataEntry (objectPath objtype c) v]) := by
  refine h.snoc (refsBefore_plain (by simp [defaultDataEntry]) (fun c' hc' => ?_)
    fun _ => by simpa [objectPath] using hsc.shardDir c)
  have hs := (objectsPath_inj hc').2
  cases objtype <;> simp_all [ObjectType.suffix]

end OstreeTar
