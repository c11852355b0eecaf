import OstreeTar.Export.Objects

/-!
# Each object once

The membership sets of the writer are there so that the stream holds each object once: "tar
stream for containers can't have duplicates".  `append` writes a DirTree or DirMeta object only
when its set does not have it, and `append_content` writes a file object, with its xattrs link,
only when the content set does not have it.  So whatever an export writes, whether it succeeds
or stops on an error, holds each object path and each file's xattrs link path at most once
(`exportCommit_paths_once`); `exportCommit_written_once` counts them as extracted.  The xattrs blobs are not covered: their set is checked for the
blob's digest but given the file's checksum, and a blob can be written twice.

The argument is an invariant of the writer's state, `Once`: an object of a type that has a set
is in the archive once when the set has it and not at all otherwise, the commit and its metadata
are there at most once, and a file's link is there only when the file is in the content set.
Every step keeps it.  A step that fails may leave a file in the content set before its object is
written; what it leaves keeps the weaker `AtMostOnce`.
-/

namespace OstreeTar

/-! ## Object paths -/

/-- The membership set that records the objects of a type as they are written; the commit and
its detached metadata have none, being written once per export. -/
def trackingSet : ObjectType → Option WroteSet
  | .commit | .commitMeta => none
  | .dirTree => some .dirtree
  | .dirMeta => some .dirmeta
  | .file => some .content

theorem trackingSet_inj {o o' : ObjectType} {set : WroteSet} (h : trackingSet o = some set)
    (h' : trackingSet o' = some set) : o = o' := by
  cases o <;> cases o' <;> simp_all [trackingSet] <;> (subst h; cases h')

theorem trackingSet_ne_xattrs {o : ObjectType} {set : WroteSet} (h : trackingSet o = some set) :
    set ≠ .xattrs := by
  cases o <;> simp_all [trackingSet] <;> (subst h; decide)

theorem ObjectType.suffix_inj {o o' : ObjectType} (h : o.suffix = o'.suffix) : o = o' := by
  cases o <;> cases o' <;> simp_all [ObjectType.suffix]

/-- An object path names its type and its checksum. -/
theorem objectPath_inj {o o' : ObjectType} {c c' : Checksum}
    (h : objectPath o c = objectPath o' c') : o = o' ∧ c = c' :=
  let ⟨hc, hs⟩ := objectsPath_inj h
  ⟨ObjectType.suffix_inj hs, hc⟩

theorem count_snoc_objectPath (l : List Utf8PathBuf) (o o' : ObjectType) (c c' : Checksum) :
    (l ++ [objectPath o c]).count (objectPath o' c') =
      l.count (objectPath o' c') + if o' = o ∧ c' = c then 1 else 0 := by
  simp only [List.count_append, List.count_singleton, beq_iff_eq]
  congr 1
  by_cases h : objectPath o c = objectPath o' c'
  · obtain ⟨rfl, rfl⟩ := objectPath_inj h
    simp
  · rw [if_neg h, if_neg fun ⟨ho, hc⟩ => h (ho ▸ hc ▸ rfl)]

/-- A path outside the shard directories of `repo/objects`: no object, xattrs object or link is
there. -/
def OffObjects (p : Utf8PathBuf) : Prop := ∀ c suffix, p ≠ objectsPath c suffix

theorem offObjects_of_length {p : Utf8PathBuf} (h : p.length ≠ 6) : OffObjects p :=
  fun c suffix hp => h (hp ▸ objectsPath_length c suffix)

theorem WalkPath.offObjects {p : Utf8PathBuf} (hp : WalkPath p) : OffObjects p :=
  hp.ne_objectsPath

theorem count_objectsPath_offObjects {more : List Entry} (h : ∀ e ∈ more, OffObjects e.path)
    (c : Checksum) (suffix : String) : (more.map Entry.path).count (objectsPath c suffix) = 0 :=
  List.count_eq_zero.mpr fun hm =>
    let ⟨e, he, hp⟩ := List.mem_map.mp hm
    h e he c suffix hp

theorem count_objectPath_offObjects {more : List Entry} (h : ∀ e ∈ more, OffObjects e.path)
    (o : ObjectType) (c : Checksum) : (more.map Entry.path).count (objectPath o c) = 0 :=
  count_objectsPath_offObjects h c o.suffix

theorem OstreeTarWriter.mem_wrote_setWrote_insert (w : OstreeTarWriter) (set set' : WroteSet)
    (c c' : Checksum) :
    c' ∈ (w.setWrote set ((w.wrote set).insert c)).wrote set' ↔
      (set' = set ∧ c' = c) ∨ c' ∈ w.wrote set' := by
  cases set <;> cases set' <;> simp [OstreeTarWriter.wrote, OstreeTarWriter.setWrote]

/-! ## The invariant -/

section Invariant

variable (options : ExportOptions)

/-- Each object and each file's xattrs link at most once. -/
def AtMostOnce (s : OstreeTarWriter) : Prop :=
  (∀ objtype c, (s.out.map Entry.path).count (objectPath objtype c) ≤ 1) ∧
    ∀ c, (s.out.map Entry.path).count (xattrsLinkPath options c) ≤ 1

/-- The writer's state holds each object once: an object of a type with a set is in the archive
once when the set has it and not at all otherwise, the commit and its metadata are there at most
once, and a file's xattrs link is there only when the file is in the content set, and once. -/
structure Once (s : OstreeTarWriter) : Prop where
  inv : WriterInv s
  tracked : ∀ objtype set c, trackingSet objtype = some set →
    (s.out.map Entry.path).count (objectPath objtype c) = if c ∈ s.wrote set then 1 else 0
  untracked : ∀ objtype c, trackingSet objtype = none →
    (s.out.map Entry.path).count (objectPath objtype c) ≤ 1
  link : ∀ c, (s.out.map Entry.path).count (xattrsLinkPath options c) ≤
    if c ∈ s.wroteContent then 1 else 0

variable {options} {s : OstreeTarWriter}

namespace Once

theorem atMostOnce (h : Once options s) : AtMostOnce options s := by
  refine ⟨fun objtype c => ?_, fun c => (h.link c).trans (by split <;> omega)⟩
  rcases hset : trackingSet objtype with _ | set
  · exact h.untracked objtype c hset
  · rw [h.tracked objtype set c hset]; split <;> omega

theorem new : Once options OstreeTarWriter.new where
  inv _ h := nomatch h
  tracked _ set _ _ := by cases set <;> simp [OstreeTarWriter.new, OstreeTarWriter.wrote]
  untracked _ _ _ := by simp [OstreeTarWriter.new]
  link _ := by simp [OstreeTarWriter.new]

/-- Entries outside the shard directories keep the invariant. -/
theorem append (h : Once options s) (more : List Entry) (hmore : ∀ e ∈ more, OffObjects e.path) :
    Once options { s with out := s.out ++ more } where
  inv := h.inv
  tracked o set c hset := by
    simpa [List.count_append, objectPath, count_objectsPath_offObjects hmore] using
      h.tracked o set c hset
  untracked o c hset := by
    simpa [List.count_append, objectPath, count_objectsPath_offObjects hmore] using
      h.untracked o c hset
  link c := by
    simpa [List.count_append, xattrsLinkPath_eq, count_objectsPath_offObjects hmore] using h.link c

theorem setInitdirs (h : Once options s) (b : Bool) : Once options { s with wroteInitdirs := b } :=
  ⟨h.inv, h.tracked, h.untracked, h.link⟩

/-- The commit or its metadata, not in the archive yet. -/
theorem snocUntracked (h : Once options s) (objtype : ObjectType)
    (hnone : trackingSet objtype = none) (c : Checksum) (hfresh : (s.out.map Entry.path).count (objectPath objtype c) = 0) (v : Bytes) :
    Once options { s with out := s.out ++ [defaultDataEntry (objectPath objtype c) v] } where
  inv := h.inv
  tracked o set c' hset := by
    have hne : ¬(o = objtype ∧ c' = c) := fun ⟨ho, _⟩ => by rw [ho, hnone] at hset; cases hset
    simp only [List.map_append, List.map_cons, List.map_nil, defaultDataEntry_path,
      count_snoc_objectPath, if_neg hne, Nat.add_zero]
    exact h.tracked o set c' hset
  untracked o c' hnone' := by
    simp only [List.map_append, List.map_cons, List.map_nil, defaultDataEntry_path,
      count_snoc_objectPath]
    split
    · next heq => obtain ⟨rfl, rfl⟩ := heq; rw [hfresh]
    · exact h.untracked o c' hnone'
  link c' := by
    simpa [List.count_append, List.count_singleton, beq_iff_eq,
      objectPath_ne_xattrsLinkPath objtype options c c'] using h.link c'

/-- A tracked object not in its set, after entries that hold no object: the state that writes
it, with its checksum in the set and the links as the caller says, keeps the invariant. -/
theorem snocTracked (h : Once options s) (objtype : ObjectType) (set : WroteSet)
    (hset : trackingSet objtype = some set) {c : Checksum} (hc : c ∉ s.wrote set)
    {s' : OstreeTarWriter} (more : List Utf8PathBuf)
    (hout : s'.out.map Entry.path = s.out.map Entry.path ++ more ++ [objectPath objtype c])
    (hmore : ∀ o c', more.count (objectPath o c') = 0)
    (hwrote : ∀ set' c', set' ≠ .xattrs →
      (c' ∈ s'.wrote set' ↔ (set' = set ∧ c' = c) ∨ c' ∈ s.wrote set'))
    (hinv : WriterInv s')
    (hlink : ∀ c', (s'.out.map Entry.path).count (xattrsLinkPath options c') ≤
      if c' ∈ s'.wroteContent then 1 else 0) :
    Once options s' where
  inv := hinv
  tracked o set' c' hset' := by
    rw [hout, count_snoc_objectPath, List.count_append, hmore, Nat.add_zero,
      h.tracked o set' c' hset']
    have hx : set' ≠ .xattrs := trackingSet_ne_xattrs hset'
    by_cases heq : o = objtype ∧ c' = c
    · obtain ⟨rfl, rfl⟩ := heq
      obtain rfl : set' = set := Option.some.inj (hset'.symm.trans hset)
      rw [if_neg hc, if_pos ((hwrote set' c' hx).mpr (.inl ⟨rfl, rfl⟩)), if_pos ⟨rfl, rfl⟩]
    · have hmem : c' ∈ s'.wrote set' ↔ c' ∈ s.wrote set' := by
        rw [hwrote set' c' hx]
        exact or_iff_right fun ⟨hs, hc'⟩ => heq ⟨trackingSet_inj hset' (hs ▸ hset), hc'⟩
      simp only [hmem, heq, if_false, Nat.add_zero]
  untracked o c' hnone := by
    have hne : ¬(o = objtype ∧ c' = c) := fun ⟨ho, _⟩ => by rw [ho, hset] at hnone; cases hnone
    rw [hout, count_snoc_objectPath, List.count_append, hmore, if_neg hne]
    exact h.untracked o c' hnone
  link := hlink

/-- `append` of a DirTree or DirMeta object keeps the invariant. -/
theorem objectWritten (h : Once options s) (objtype : ObjectType) {set : WroteSet}
    (hset : trackingSet objtype = some set) (c : Checksum) (v : Bytes) :
    Once options (s.objectWritten set objtype c v) := by
  unfold OstreeTarWriter.objectWritten
  split
  · exact h
  next hc =>
  have hx : set ≠ .xattrs := trackingSet_ne_xattrs hset
  have hwrote : ∀ set' c', c' ∈ (s.setWrote set ((s.wrote set).insert c)).wrote set' ↔
      (set' = set ∧ c' = c) ∨ c' ∈ s.wrote set' := fun set' c' =>
    s.mem_wrote_setWrote_insert set set' c c'
  have hcontent : ∀ c', c' ∈ s.wroteContent →
      c' ∈ (s.setWrote set ((s.wrote set).insert c)).wroteContent := fun c' hc' =>
    (hwrote .content c').mpr (.inr hc')
  have hxattrs : (s.setWrote set ((s.wrote set).insert c)).wroteXattrs = s.wroteXattrs := by
    cases set <;> first | rfl | exact absurd rfl hx
  refine h.snocTracked objtype set hset hc [] (by simp) (fun _ _ => rfl)
    (fun set' c' _ => hwrote set' c')
    (fun c' hc' => hcontent c' (h.inv c' (hxattrs ▸ hc'))) fun c' => ?_
  simp only [List.map_append, List.map_cons, List.map_nil, defaultDataEntry_path, List.count_append,
    List.count_singleton, beq_iff_eq, if_neg (objectPath_ne_xattrsLinkPath objtype options c c'),
    Nat.add_zero]
  refine (h.link c').trans ?_
  by_cases hm : c' ∈ s.wroteContent
  · rw [if_pos hm, if_pos (hcontent c' hm)]
  · rw [if_neg hm]; exact Nat.zero_le _

end Once

end Invariant

/-! ## A file object -/

section File

variable (options : ExportOptions) (sha256 : Bytes → Checksum) (s : OstreeTarWriter)

/-- What `append_xattrs` adds for a file: no object, and at most the file's own link. -/
theorem xattrsStep_paths (c : Checksum) (x : Bytes) :
    ∃ more, (xattrsStep options sha256 s c x).out.map Entry.path = s.out.map Entry.path ++ more ∧
      (∀ o c', more.count (objectPath o c') = 0) ∧
      (∀ c', c' ≠ c → more.count (xattrsLinkPath options c') = 0) ∧
      more.count (xattrsLinkPath options c) ≤ 1 := by
  have hlink : ∀ o c', xattrsLinkPath options c ≠ objectPath o c' := fun o c' h =>
    objectPath_ne_xattrsLinkPath o options c' c h.symm
  have hblob : ∀ o c', xattrsBlobPath options (sha256 x) ≠ objectPath o c' := fun o c' =>
    xattrsBlobPath_ne_objectPath options _ c' o
  have hblob' : ∀ c', xattrsBlobPath options (sha256 x) ≠ xattrsLinkPath options c' :=
    xattrsBlobPath_ne_xattrsLinkPath options _
  have hother : ∀ c', c' ≠ c → xattrsLinkPath options c ≠ xattrsLinkPath options c' :=
    fun c' hc' h => hc' (xattrsLinkPath_inj h).symm
  rw [xattrsStep_out]
  split_ifs
  · exact ⟨[], by simp, by simp, by simp, by simp⟩
  · exact ⟨[xattrsLinkPath options c], by simp, by simp [List.count_singleton, hlink],
      fun c' hc' => by simp [List.count_singleton, hother c' hc'], by simp⟩
  · exact ⟨[xattrsBlobPath options (sha256 x), xattrsLinkPath options c], by simp,
      by simp [List.count_cons, hlink, hblob],
      fun c' hc' => by simp [List.count_cons, hblob', hother c' hc'],
      by simp [List.count_cons, hblob']⟩

variable {options s}

/-- A new file object, after its xattrs, keeps the invariant. -/
theorem Once.fileObject (h : Once options s) {c : Checksum} (hc : c ∉ s.wroteContent) (x : Bytes)
    {e : Entry} (he : e.path = objectPath .file c) :
    Once options { xattrsStep options sha256 s c x with
      out := (xattrsStep options sha256 s c x).out ++ [e] } := by
  obtain ⟨more, hout, hobj, hother, hmine⟩ := xattrsStep_paths options sha256 s c x
  have hpaths : ({ xattrsStep options sha256 s c x with
      out := (xattrsStep options sha256 s c x).out ++ [e] } : OstreeTarWriter).out.map Entry.path =
        s.out.map Entry.path ++ more ++ [objectPath .file c] := by
    simp [hout, he]
  refine h.snocTracked .file .content rfl hc more hpaths hobj
    (fun set' c' hx => ?_) (WriterInv.xattrsStep options sha256 s x h.inv) fun c' => ?_
  · cases set' <;> simp [OstreeTarWriter.wrote, List.mem_insert_iff]
    exact absurd rfl hx
  · have hlink := h.link c'
    have hcont : ({ xattrsStep options sha256 s c x with
        out := (xattrsStep options sha256 s c x).out ++ [e] } : OstreeTarWriter).wroteContent =
          s.wroteContent.insert c := xattrsStep_wroteContent options sha256 s c x
    rw [hpaths, hcont]
    simp only [List.count_append, List.count_singleton, beq_iff_eq,
      objectPath_ne_xattrsLinkPath .file options c c', if_false, Nat.add_zero]
    by_cases hcc : c' = c
    · subst hcc
      rw [if_neg hc] at hlink
      rw [if_pos (List.mem_insert_self _ _)]
      omega
    · rw [hother c' hcc, Nat.add_zero]
      refine hlink.trans ?_
      by_cases hm : c' ∈ s.wroteContent
      · rw [if_pos hm, if_pos (List.mem_insert_of_mem hm)]
      · rw [if_neg hm]; exact Nat.zero_le _

/-- `append_content` stopped after the xattrs of a new file: each object and link at most once. -/
theorem Once.xattrsStep_atMostOnce (h : Once options s) {c : Checksum} (hc : c ∉ s.wroteContent)
    (x : Bytes) : AtMostOnce options (xattrsStep options sha256 s c x) := by
  obtain ⟨more, hout, hobj, hother, hmine⟩ := xattrsStep_paths options sha256 s c x
  refine ⟨fun o c' => ?_, fun c' => ?_⟩
  · rw [hout, List.count_append, hobj, Nat.add_zero]; exact h.atMostOnce.1 o c'
  · rw [hout, List.count_append]
    by_cases hcc : c' = c
    · subst hcc
      have hlink := h.link c'
      rw [if_neg hc] at hlink
      omega
    · rw [hother c' hcc, Nat.add_zero]; exact h.atMostOnce.2 c'

end File

/-! ## The walk -/

section Walk

variable (repo : Repo) (options : ExportOptions) (sha256 : Bytes → Checksum)
  (hfmt : options.formatVersion = 0 ∨ options.formatVersion = 1)

/-- A stretch of a run ends with each object once on success, and at most once on failure. -/
def EndsOnce {α : Type} : EStateM.Result String OstreeTarWriter α → Prop :=
  Ends (fun _ s => Once options s) (AtMostOnce options)

include hfmt in
theorem appendContent_once {s : OstreeTarWriter} (h : Once options s) (c : Checksum) :
    EndsOnce options (appendContent repo options sha256 c s) := by
  rw [appendContent_run_of_inv repo options sha256 s hfmt h.inv]
  rcases loadContent repo c with e | ⟨file, meta, x⟩
  · exact h.atMostOnce
  dsimp only
  split
  · exact h
  · next hc =>
    rcases hce : contentEntry options c file meta with err | e
    · exact h.xattrsStep_atMostOnce sha256 hc x
    · exact h.fileObject sha256 hc x (contentEntry_ok hce).1

include hfmt in
/-- One turn of the loop over files: the file object, then its hard link at a path of the
walk. -/
theorem appendFileEntry_once {p : Utf8PathBuf} (hp : WalkPath p) {s : OstreeTarWriter}
    (h : Once options s) (file : String × Checksum) :
    EndsOnce options (appendFileEntry repo options sha256 p file s) := by
  obtain ⟨name, c⟩ := file
  have hc := appendContent_once repo options sha256 hfmt h c
  rw [appendFileEntry_run]
  rcases hrun : appendContent repo options sha256 c s with ⟨⟨objpath, hdr⟩, s₁⟩ | ⟨e, s₁⟩ <;>
    rw [hrun] at hc
  · have h₁ : Once options s₁ := hc
    dsimp only
    split
    · exact h₁.append _ (by simpa using (hp.join name).mapPath.offObjects)
    · exact h₁.atMostOnce
  · exact hc

/-- One turn of the loop over directories: the DirMeta object, then, but for the root's
`sysroot`, a directory entry at a path of the walk and the subtree. -/
theorem appendDirEntry_once {recurse : Utf8PathBuf → Checksum → WriterM Unit}
    (ih : ∀ p t s, WalkPath p → Once options s → EndsOnce options (recurse p t s))
    {p : Utf8PathBuf} (hp : WalkPath p) (isRoot : Bool) {s : OstreeTarWriter} (h : Once options s)
    (dir : String × Checksum × Checksum) :
    EndsOnce options (appendDirEntry repo options recurse p isRoot dir s) := by
  obtain ⟨name, contents, metaCsum⟩ := dir
  rw [appendDirEntry_run]
  rcases repo.loadDirMeta metaCsum with e | metaV
  · exact h.atMostOnce
  have h₁ := h.objectWritten .dirMeta rfl metaCsum metaV.bytes
  dsimp only
  split
  · exact h₁
  · exact ih _ contents _ (hp.join name).mapPath
      (h₁.append _ (by simpa using (hp.join name).mapPath.offObjects))

include hfmt in
/-- `append_dirtree` from a path of the walk keeps each object once. -/
theorem appendDirtree_once : ∀ fuel p t isRoot s, WalkPath p → Once options s →
    EndsOnce options (appendDirtree repo options sha256 fuel p t isRoot s)
  | 0, _, _, _, _, _, h => h.atMostOnce
  | fuel + 1, p, t, isRoot, s, hp, h => by
    rw [appendDirtree_succ]
    rcases repo.loadDirTree t with e | v
    · exact h.atMostOnce
    refine Ends.bind (Ends.forM_inv (Once options) v.files _
      (fun f _ s' hs' => appendFileEntry_once repo options sha256 hfmt hp hs' f) _
      (h.objectWritten .dirTree rfl t v.bytes)) fun _ s₂ h₂ => ?_
    exact Ends.forM_inv (Once options) v.dirs _ (fun d _ s' hs' =>
      appendDirEntry_once repo options
        (fun p' t' s'' hp' h'' => appendDirtree_once fuel p' t' false s'' hp' h'') hp isRoot hs' d)
      s₂ h₂

/-- `write_commit` on a new writer: the root directory, the scaffolding and the configuration
hold no object; the commit and its metadata are written once each; then the root DirMeta and
the walk. -/
theorem writeCommit_once (fuel : Nat) (checksum : Checksum) :
    EndsOnce options (writeCommit repo options sha256 fuel checksum OstreeTarWriter.new) := by
  have h₀ : Once options OstreeTarWriter.new := Once.new
  rw [writeCommit_run]
  rcases repo.loadCommit checksum with e | commitV
  · exact h₀.atMostOnce
  dsimp only
  rcases repo.loadDirMeta commitV.metadata with e | metadataV
  · exact h₀.atMostOnce
  dsimp only
  have hcur : WalkPath (Utf8Path.new "./") := by rw [new_curDir]; exact walkPath_curDir.mapPath
  let root := dirEntry options (Utf8Path.new "./") metadataV.parsed
  have hdirs :
      ∀ e ∈ [root] ++ (repoStructureDirs options).map defaultDirEntry, OffObjects e.path := by
    simpa [root] using ⟨hcur.offObjects,
      fun p hp => offObjects_of_length (length_ne_of_mem_repoStructureDirs hp)⟩
  rw [writeRepoStructure_run]
  rcases hcfg : configPath options with _ | cfg
  · simp only [OstreeTarWriter.new, Bool.false_eq_true, if_false]
    simpa using (h₀.append _ hdirs).atMostOnce
  simp only [OstreeTarWriter.new, Bool.false_eq_true, if_false]
  let pre := [root] ++ (repoStructureDirs options).map defaultDirEntry ++
    [defaultDataEntry cfg repoConfig.toUTF8.data.toList]
  have hpre : ∀ e ∈ pre, OffObjects e.path := fun e he => by
    rcases List.mem_append.mp he with he | he
    · exact hdirs e he
    · rw [List.mem_singleton.mp he]; exact offObjects_of_length (configPath_length hcfg)
  have h₁ := (h₀.append pre hpre).setInitdirs true
  have h₂ := h₁.snocUntracked .commit rfl checksum
    (count_objectsPath_offObjects hpre _ _) commitV.bytes
  rcases repo.readCommitDetachedMetadata checksum with e | commitmeta
  · simpa [pre, root] using h₂.atMostOnce
  dsimp only
  have hfmt := formatVersion_of_configPath hcfg
  cases commitmeta with
  | none =>
    exact appendDirtree_once repo options sha256 hfmt fuel _ _ true _ hcur
      (h₂.objectWritten .dirMeta rfl _ _)
  | some m =>
    have h₃ := h₂.snocUntracked .commitMeta rfl checksum (by
      simp only [OstreeTarWriter.new, List.nil_append, List.map_append, List.map_cons, List.map_nil,
        defaultDataEntry_path, count_snoc_objectPath, count_objectPath_offObjects hpre]
      decide) m
    exact appendDirtree_once repo options sha256 hfmt fuel _ _ true _ hcur
      (h₃.objectWritten .dirMeta rfl _ _)

end Walk

/-- Whatever `export_commit` writes, whether it succeeds or stops on an error, for any store,
commit, format version and fuel, holds each object path (commit, commit metadata, DirTree, DirMeta
or file) at most once, and each file's xattrs link path at most once: the membership sets and the
layout of object paths keep a shared DirTree, DirMeta or file from being written again. -/
theorem exportCommit_paths_once (repo : Repo) (sha256 : Bytes → Checksum) (fuel : Nat)
    (rev : String) (options : Option ExportOptions) :
    (∀ objtype c, ((finalState (exportCommit repo sha256 fuel rev options)).out.map
      Entry.path).count (objectPath objtype c) ≤ 1) ∧
    ∀ c, ((finalState (exportCommit repo sha256 fuel rev options)).out.map Entry.path).count
      (xattrsLinkPath (options.getD {}) c) ≤ 1 := by
  show AtMostOnce (options.getD {}) _
  rw [exportCommit_eq]
  rcases repo.requireRev rev with e | commit
  · exact (Once.new : Once (options.getD {}) _).atMostOnce
  have hw := writeCommit_once repo (options.getD {}) sha256 fuel commit
  dsimp only
  rcases hr : writeCommit repo (options.getD {}) sha256 fuel commit OstreeTarWriter.new with
    ⟨u, w⟩ | ⟨e, w⟩ <;> rw [hr] at hw
  · exact (show Once (options.getD {}) w from hw).atMostOnce
  · exact hw

end OstreeTar
