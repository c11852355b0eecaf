import OstreeTar.Export.Checkout
import Mathlib.Data.List.Nodup

/-!
# Which entries of the archive share a path

An archive is extracted path by path, `./a` and `a` being one path: an entry whose normalized
path another entry has overwrites it or is overwritten.  The checkout's paths are `map_path`
images of logical paths below `./`; two of them meet only when `/usr/etc` is mapped onto an
`/etc` the tree also has, and one meets the repository's only when it is a root-level file
named `sysroot`, the name the scaffolding owns (the root-level skip covers directories only).
-/

namespace OstreeTar

/-- The path an entry denotes once extracted: its components but `.`. -/
def normalizedPath (p : Utf8PathBuf) : Utf8PathBuf := p.filter (· ≠ .curDir)

/-- The names of a DirTree's entries, files then directories. -/
def DirTreeObject.names (v : DirTreeObject) : List String :=
  v.files.map Prod.fst ++ v.dirs.map Prod.fst

/-- The names of a DirTree are pairwise distinct single components. -/
def DirTreeObject.NamesOk (v : DirTreeObject) : Prop :=
  v.names.Nodup ∧ ∀ n ∈ v.names, Utf8Path.IsPlain n

instance (v : DirTreeObject) : Decidable v.NamesOk := inferInstanceAs (Decidable (_ ∧ _))

/-- A path below the DirTree `c` that its checkout lists, as names: an entry's name, or a
subdirectory's name and a path below the subdirectory's DirTree; at the root, never into
`sysroot`. -/
inductive TreePath (repo : Repo) : Checksum → Bool → List String → Prop
  | file {c : Checksum} {isRoot : Bool} {v : DirTreeObject} {name : String} {f : Checksum} :
      repo.loadDirTree c = .ok v → (name, f) ∈ v.files → TreePath repo c isRoot [name]
  | dir {c : Checksum} {isRoot : Bool} {v : DirTreeObject} {name : String} {t m : Checksum} :
      repo.loadDirTree c = .ok v → (name, t, m) ∈ v.dirs → ¬(isRoot = true ∧ name = sysroot) →
      TreePath repo c isRoot [name]
  | sub {c : Checksum} {isRoot : Bool} {v : DirTreeObject} {name : String} {t m : Checksum}
      {p : List String} :
      repo.loadDirTree c = .ok v → (name, t, m) ∈ v.dirs → ¬(isRoot = true ∧ name = sysroot) →
      TreePath repo t false p → TreePath repo c isRoot (name :: p)

/-! ## Paths below a DirTree -/

theorem new_of_isPlain {name : String} (h : Utf8Path.IsPlain name) :
    Utf8Path.new name = [.normal name] := by
  have := @Utf8Path.new_render_normal [name] (by simpa using h) (by simp)
  simpa [Utf8Path.render, Component.bytes, List.intercalate] using this

theorem join_new_of_isPlain (L : Utf8PathBuf) {name : String} (h : Utf8Path.IsPlain name) :
    Utf8Path.join L (Utf8Path.new name) = L ++ [.normal name] := by
  rw [new_of_isPlain h]; exact join_of_isInner (by simp [Component.IsInner])

theorem append_normal_inj {L : Utf8PathBuf} {n n' : String} {q q' : Utf8PathBuf}
    (h : L ++ .normal n :: q = L ++ .normal n' :: q') : n = n' ∧ q = q' := by
  simpa using List.append_cancel_left h

namespace TreePath

variable {repo : Repo} {c : Checksum} {isRoot : Bool}

theorem ne_nil {p : List String} (h : TreePath repo c isRoot p) : p ≠ [] := by
  cases h <;> simp

/-- The first name of a listed path is an entry of the DirTree. -/
theorem head_mem {n : String} {p : List String} (h : TreePath repo c isRoot (n :: p)) :
    ∃ v, repo.loadDirTree c = .ok v ∧ n ∈ v.names := by
  cases h with
  | file hv hf => exact ⟨_, hv, List.mem_append_left _ (List.mem_map_of_mem _ hf)⟩
  | dir hv hd => exact ⟨_, hv, List.mem_append_right _ (List.mem_map_of_mem Prod.fst hd)⟩
  | sub hv hd => exact ⟨_, hv, List.mem_append_right _ (List.mem_map_of_mem Prod.fst hd)⟩

/-- A listed path two names deep goes through a subdirectory. -/
theorem tail {n m : String} {p : List String} (h : TreePath repo c isRoot (n :: m :: p)) :
    ∃ v t meta, repo.loadDirTree c = .ok v ∧ (n, t, meta) ∈ v.dirs ∧ TreePath repo t false (m :: p) := by
  cases h with
  | sub hv hd _ hp => exact ⟨_, _, _, hv, hd, hp⟩

/-- At the root, a listed path starts with `sysroot` only through a file of that name. -/
theorem sysroot_file {n : String} {p : List String} (h : TreePath repo c true (n :: p))
    (hn : n = sysroot) : ∃ v f, repo.loadDirTree c = .ok v ∧ (sysroot, f) ∈ v.files := by
  cases h with
  | file hv hf => exact ⟨_, _, hv, hn ▸ hf⟩
  | dir _ _ hroot => exact absurd ⟨rfl, hn⟩ hroot
  | sub _ _ hroot => exact absurd ⟨rfl, hn⟩ hroot

end TreePath

/-- Every item of a listing at `L` is at `map_path` of its logical path, which is `L` followed by
a path the DirTree `c` lists. -/
def ListedBelow (repo : Repo) (L : Utf8PathBuf) (c : Checksum) (isRoot : Bool)
    (items : List (Utf8PathBuf × Entry)) : Prop :=
  ∀ item ∈ items, item.2.path = mapPath item.1 ∧
    ∃ p, item.1 = L ++ p.map .normal ∧ TreePath repo c isRoot p

theorem ListedBelow.append {repo : Repo} {L : Utf8PathBuf} {c : Checksum} {isRoot : Bool}
    {a b : List (Utf8PathBuf × Entry)} (ha : ListedBelow repo L c isRoot a)
    (hb : ListedBelow repo L c isRoot b) : ListedBelow repo L c isRoot (a ++ b) := fun item h =>
  (List.mem_append.mp h).elim (ha item) (hb item)

section Listing

variable {repo : Repo} {options : ExportOptions} {L : Utf8PathBuf} {c : Checksum} {isRoot : Bool}
  {v : DirTreeObject} (hv : repo.loadDirTree c = .ok v)
include hv

/-- The links of some files of the DirTree: one per file, at `L` and the file's name. -/
theorem mapM_checkoutFile : ∀ (files : List (String × Checksum)) (links : List (Utf8PathBuf × Entry)),
    files ⊆ v.files → (∀ f ∈ files, Utf8Path.IsPlain f.1) →
    files.mapM (checkoutFile repo options L) = some links →
    links.map Prod.fst = files.map (fun f => L ++ [.normal f.1]) ∧ ListedBelow repo L c isRoot links
  | [], links, _, _, h => by cases h; exact ⟨rfl, by simp [ListedBelow]⟩
  | (name, f) :: files, links, hsub, hplain, h => by
    rw [List.mapM_cons] at h
    simp only [checkoutFile, Option.bind_eq_bind, Option.pure_def] at h
    rcases hload : (repo.loadFile f).toOption with _ | loaded <;> rw [hload] at h
    · cases h
    rcases hmeta : loaded.meta with _ | meta <;> simp only [hmeta, Option.some_bind, Option.none_bind] at h
    · cases h
    rcases hrest : files.mapM (checkoutFile repo options L) with _ | rest <;>
      simp only [hrest, Option.some_bind, Option.none_bind] at h
    · cases h
    cases h
    have hname := hplain (name, f) (List.mem_cons_self _ _)
    obtain ⟨hfst, hlisted⟩ := mapM_checkoutFile files rest (fun x hx => hsub (List.mem_cons_of_mem _ hx))
      (fun x hx => hplain x (List.mem_cons_of_mem _ hx)) hrest
    refine ⟨by simp [hfst, join_new_of_isPlain L hname], fun item hitem => ?_⟩
    rcases List.mem_cons.mp hitem with rfl | hitem
    · exact ⟨rfl, [name], by simp [join_new_of_isPlain L hname],
        .file hv (hsub (List.mem_cons_self _ _))⟩
    · exact hlisted item hitem

/-- The entries one subdirectory of the DirTree contributes: distinct logical paths, all below `L`
and its name, each the map of a path the DirTree lists. -/
theorem checkoutSubdir_below {fuel : Nat}
    (ih : ∀ L' t listing, checkoutListing repo options fuel L' t false = some listing →
      (listing.map Prod.fst).Nodup ∧ ListedBelow repo L' t false listing)
    {name : String} {t m : Checksum} (hd : (name, t, m) ∈ v.dirs) (hname : Utf8Path.IsPlain name)
    {g : List (Utf8PathBuf × Entry)}
    (hg : checkoutSubdir repo options (fun p t => checkoutListing repo options fuel p t false)
      L isRoot (name, t, m) = some g) :
    (g.map Prod.fst).Nodup ∧ ListedBelow repo L c isRoot g ∧
      ∀ item ∈ g, ∃ q, item.1 = L ++ .normal name :: q := by
  simp only [checkoutSubdir] at hg
  split_ifs at hg with hroot
  · cases hg; simp [ListedBelow]
  rcases hmeta : (repo.loadDirMeta m).toOption with _ | metaV <;>
    simp only [hmeta, Option.bind_eq_bind, Option.some_bind, Option.none_bind] at hg
  · cases hg
  rcases hrest : checkoutListing repo options fuel (Utf8Path.join L (Utf8Path.new name)) t false
    with _ | rest <;> simp only [hrest, Option.some_bind, Option.none_bind, Option.pure_def] at hg
  · cases hg
  cases hg
  obtain ⟨hrnd, hrlisted⟩ := ih _ t rest hrest
  rw [join_new_of_isPlain L hname] at hrlisted ⊢
  refine ⟨List.nodup_cons.mpr ⟨fun hmem => ?_, hrnd⟩, fun item hitem => ?_, fun item hitem => ?_⟩
  · obtain ⟨item, hitem, hfst⟩ := List.mem_map.mp hmem
    obtain ⟨-, p, hp, htree⟩ := hrlisted item hitem
    exact htree.ne_nil (by simpa [hfst] using hp)
  · rcases List.mem_cons.mp hitem with rfl | hitem
    · exact ⟨rfl, [name], by simp, .dir hv hd hroot⟩
    · obtain ⟨hpath, p, hp, htree⟩ := hrlisted item hitem
      exact ⟨hpath, name :: p, by simp [hp], .sub hv hd hroot htree⟩
  · rcases List.mem_cons.mp hitem with rfl | hitem
    · exact ⟨[], by simp⟩
    · obtain ⟨-, p, hp, -⟩ := hrlisted item hitem
      exact ⟨p.map .normal, by simp [hp]⟩

/-- The entries of some subdirectories of the DirTree: per subdirectory, one group whose logical
paths all start with `L` and its name. -/
theorem mapM_checkoutSubdir {fuel : Nat}
    (ih : ∀ L' t listing, checkoutListing repo options fuel L' t false = some listing →
      (listing.map Prod.fst).Nodup ∧ ListedBelow repo L' t false listing) :
    ∀ (dirs : List (String × Checksum × Checksum)) (groups : List (List (Utf8PathBuf × Entry))),
    dirs ⊆ v.dirs → (∀ d ∈ dirs, Utf8Path.IsPlain d.1) → (dirs.map Prod.fst).Nodup →
    dirs.mapM (checkoutSubdir repo options (fun p t => checkoutListing repo options fuel p t false)
      L isRoot) = some groups →
    (groups.flatten.map Prod.fst).Nodup ∧ ListedBelow repo L c isRoot groups.flatten ∧
      ∀ item ∈ groups.flatten, ∃ n ∈ dirs.map Prod.fst, ∃ q, item.1 = L ++ .normal n :: q
  | [], groups, _, _, _, h => by cases h; simp [ListedBelow]
  | (name, t, m) :: dirs, groups, hsub, hplain, hnodup, h => by
    rw [List.mapM_cons] at h
    rcases hg : checkoutSubdir repo options (fun p t => checkoutListing repo options fuel p t false)
      L isRoot (name, t, m) with _ | g <;> simp only [hg, Option.bind_eq_bind, Option.some_bind,
        Option.none_bind] at h
    · cases h
    rcases hgs : dirs.mapM (checkoutSubdir repo options
      (fun p t => checkoutListing repo options fuel p t false) L isRoot) with _ | gs <;>
      simp only [hgs, Option.some_bind, Option.none_bind, Option.pure_def] at h
    · cases h
    cases h
    obtain ⟨hnd, hlisted, hheads⟩ := mapM_checkoutSubdir ih dirs gs
      (fun x hx => hsub (List.mem_cons_of_mem _ hx)) (fun x hx => hplain x (List.mem_cons_of_mem _ hx))
      (List.nodup_cons.mp hnodup).2 hgs
    obtain ⟨hgnd, hglisted, hgheads⟩ := checkoutSubdir_below hv ih (hsub (List.mem_cons_self _ _))
      (hplain _ (List.mem_cons_self _ _)) hg
    refine ⟨?_, hglisted.append hlisted, fun item hitem => ?_⟩
    · rw [List.flatten_cons, List.map_append, List.nodup_append]
      refine ⟨hgnd, hnd, fun x hx hx' => ?_⟩
      obtain ⟨i, hi, rfl⟩ := List.mem_map.mp hx
      obtain ⟨j, hj, hij⟩ := List.mem_map.mp hx'
      obtain ⟨q, hq⟩ := hgheads i hi
      obtain ⟨n, hn, q', hq'⟩ := hheads j hj
      have := (append_normal_inj (hq.symm.trans (hij.symm.trans hq'))).1
      exact (List.nodup_cons.mp hnodup).1 (this ▸ hn)
    · rcases List.mem_append.mp (List.flatten_cons ▸ hitem) with hitem | hitem
      · obtain ⟨q, hq⟩ := hgheads item hitem
        exact ⟨name, List.mem_cons_self _ _, q, hq⟩
      · obtain ⟨n, hn, q, hq⟩ := hheads item hitem
        exact ⟨n, List.mem_cons_of_mem _ hn, q, hq⟩

end Listing

/-- Under distinct plain names, a checkout listing has pairwise distinct logical paths, each
listed below its root at `map_path` of itself. -/
theorem checkoutListing_listed {repo : Repo} {options : ExportOptions}
    (hnames : ∀ c v, repo.loadDirTree c = .ok v → v.NamesOk) :
    ∀ fuel L c isRoot listing, checkoutListing repo options fuel L c isRoot = some listing →
      (listing.map Prod.fst).Nodup ∧ ListedBelow repo L c isRoot listing
  | 0, _, _, _, _, h => by cases h
  | fuel + 1, L, c, isRoot, listing, h => by
    simp only [checkoutListing, Option.bind_eq_bind] at h
    rcases hv : repo.loadDirTree c with e | v <;> simp only [hv, Except.toOption, Option.some_bind,
      Option.none_bind] at h
    · cases h
    rcases hl : v.files.mapM (checkoutFile repo options L) with _ | links <;>
      simp only [hl, Option.some_bind, Option.none_bind] at h
    · cases h
    rcases hs : v.dirs.mapM (checkoutSubdir repo options
      (fun p t => checkoutListing repo options fuel p t false) L isRoot) with _ | groups <;>
      simp only [hs, Option.some_bind, Option.none_bind, Option.pure_def] at h
    · cases h
    cases h
    obtain ⟨hnodup, hplain⟩ := hnames c v hv
    have hfplain : ∀ f ∈ v.files, Utf8Path.IsPlain f.1 := fun f hf =>
      hplain _ (List.mem_append_left _ (List.mem_map_of_mem _ hf))
    have hdplain : ∀ d ∈ v.dirs, Utf8Path.IsPlain d.1 := fun d hd =>
      hplain _ (List.mem_append_right _ (List.mem_map_of_mem Prod.fst hd))
    obtain ⟨hfst, hllisted⟩ := mapM_checkoutFile hv v.files links (List.Subset.refl _) hfplain hl
    obtain ⟨hgnd, hglisted, hheads⟩ := mapM_checkoutSubdir hv
      (fun L' t listing h => checkoutListing_listed hnames fuel L' t false listing h) v.dirs groups
      (List.Subset.refl _) hdplain (List.Nodup.of_append_right hnodup) hs
    refine ⟨?_, hllisted.append hglisted⟩
    rw [List.map_append, List.nodup_append, hfst]
    have hinj : Function.Injective fun n : String => L ++ [Component.normal n] := fun n n' h =>
      (append_normal_inj h).1
    refine ⟨by simpa [Function.comp_def] using (List.Nodup.of_append_left hnodup).map hinj, hgnd,
      fun x hx hx' => ?_⟩
    · obtain ⟨f, hf, rfl⟩ := List.mem_map.mp hx
      obtain ⟨j, hj, hij⟩ := List.mem_map.mp hx'
      obtain ⟨n, hn, q, hq⟩ := hheads j hj
      have := (append_normal_inj (hij.symm.trans hq).symm).1
      exact List.disjoint_of_nodup_append hnodup (List.mem_map_of_mem _ hf) (this ▸ hn)

theorem loadDirTree_of_checkoutListing {repo : Repo} {options : ExportOptions} {fuel : Nat}
    {L : Utf8PathBuf} {c : Checksum} {isRoot : Bool} {listing : List (Utf8PathBuf × Entry)}
    (h : checkoutListing repo options fuel L c isRoot = some listing) :
    ∃ v, repo.loadDirTree c = .ok v := by
  cases fuel with
  | zero => cases h
  | succ fuel =>
    simp only [checkoutListing, Option.bind_eq_bind] at h
    rcases hv : repo.loadDirTree c with e | v
    · simp [hv, Except.toOption] at h
    · exact ⟨v, rfl⟩

/-! ## Normalized paths of the checkout -/

/-- What keeps the checkout's paths apart from the repository's and from each other, besides
distinct names: no file `sysroot` at the root, and not both an `etc` at the root and an `etc` in
the root's `usr`. -/
def RootOk (repo : Repo) (root : DirTreeObject) : Prop :=
  (∀ f, (sysroot, f) ∉ root.files) ∧
    ¬("etc" ∈ root.names ∧ ∃ t m vu, ("usr", t, m) ∈ root.dirs ∧ repo.loadDirTree t = .ok vu ∧
      "etc" ∈ vu.names)

theorem normalizedPath_curDir_normal (p : List String) :
    normalizedPath (.curDir :: p.map .normal) = p.map .normal := by
  simp [normalizedPath, List.filter_map, Function.comp_def]

theorem normalizedPath_repo {p : Utf8PathBuf} (h : IsRepoPath p) :
    ∃ q, normalizedPath p = .normal sysroot :: q := by
  obtain ⟨q, rfl⟩ := h; exact ⟨normalizedPath q, by simp [normalizedPath]⟩

/-- `map_path` of a path below `./`, by names: `usr/etc/..` becomes `etc/..`, nothing else
changes. -/
theorem mapPath_names (p : List String) : ∃ p', mapPath (.curDir :: p.map .normal) =
    .curDir :: p'.map .normal ∧ ((∃ r, p = "usr" :: "etc" :: r ∧ p' = "etc" :: r) ∨ p' = p ∧
      ∀ r, p ≠ "usr" :: "etc" :: r) := by
  by_cases h : ∃ r, p = "usr" :: "etc" :: r
  · obtain ⟨r, rfl⟩ := h
    have hmap := @mapPath_usrEtc (r.map .normal) (by simp [Component.IsInner])
    exact ⟨"etc" :: r, by simpa using hmap, .inl ⟨r, rfl, rfl⟩⟩
  · refine ⟨p, mapPath_of_not_usrEtc fun r hr => h ?_, .inr ⟨rfl, not_exists.mp h⟩⟩
    rcases p with _ | ⟨u, _ | ⟨e, q⟩⟩ <;> simp only [List.map_cons, List.map_nil, List.cons.injEq,
      Component.normal.injEq, reduceCtorEq, false_and, and_false] at hr
    exact ⟨q, by rw [hr.2.1, hr.2.2.1]⟩

theorem normalized_mapPath_ne_nil {repo : Repo} {c : Checksum} {p : List String}
    (hp : TreePath repo c true p) : normalizedPath (mapPath (.curDir :: p.map .normal)) ≠ [] := by
  obtain ⟨p', hp', hpc⟩ := mapPath_names p
  rw [hp', normalizedPath_curDir_normal]
  rcases hpc with ⟨r, -, rfl⟩ | ⟨rfl, -⟩
  · simp
  · simpa using hp.ne_nil

section Root

variable {repo : Repo} {c : Checksum} {root : DirTreeObject} (hv : repo.loadDirTree c = .ok root)
  (hroot : RootOk repo root)
include hv hroot

/-- Below `./`, `map_path` followed by normalization tells listed paths apart. -/
theorem normalized_mapPath_inj {p q : List String} (hp : TreePath repo c true p)
    (hq : TreePath repo c true q)
    (h : normalizedPath (mapPath (.curDir :: p.map .normal)) =
      normalizedPath (mapPath (.curDir :: q.map .normal))) : p = q := by
  obtain ⟨p', hp', hpc⟩ := mapPath_names p
  obtain ⟨q', hq', hqc⟩ := mapPath_names q
  rw [hp', hq', normalizedPath_curDir_normal, normalizedPath_curDir_normal] at h
  have heq : p' = q' := List.map_injective_iff.mpr (fun _ _ h => by cases h; rfl) h
  -- an `etc` at the root and one in `usr` would be the only way to meet
  have hmeet : ∀ {r : List String}, TreePath repo c true ("usr" :: "etc" :: r) →
      TreePath repo c true ("etc" :: r) → False := fun h₁ h₂ => by
    obtain ⟨v, t, m, hv₁, hd, ht⟩ := h₁.tail
    obtain ⟨vu, hvu, hetc⟩ := ht.head_mem
    obtain ⟨v', hv', hetc'⟩ := h₂.head_mem
    rw [hv] at hv₁ hv'
    cases hv₁; cases hv'
    exact hroot.2 ⟨hetc', t, m, vu, hd, hvu, hetc⟩
  rcases hpc with ⟨r, rfl, rfl⟩ | ⟨rfl, -⟩ <;> rcases hqc with ⟨r', rfl, rfl⟩ | ⟨rfl, -⟩
  · cases heq; rfl
  · exact (hmeet hp (heq ▸ hq)).elim
  · exact (hmeet hq (heq ▸ hp)).elim
  · exact heq

/-- Below `./`, a listed path normalizes to something outside `sysroot`. -/
theorem normalized_mapPath_ne_repo {p : List String} (hp : TreePath repo c true p)
    (q : Utf8PathBuf) : normalizedPath (mapPath (.curDir :: p.map .normal)) ≠ .normal sysroot :: q := by
  obtain ⟨p', hp', hpc⟩ := mapPath_names p
  rw [hp', normalizedPath_curDir_normal]
  intro h
  rcases hpc with ⟨r, rfl, rfl⟩ | ⟨rfl, -⟩
  · simp [sysroot] at h
  · obtain ⟨n, p, rfl⟩ := List.exists_cons_of_ne_nil hp.ne_nil
    simp only [List.map_cons, List.cons.injEq, Component.normal.injEq] at h
    obtain ⟨v, f, hv', hf⟩ := hp.sysroot_file h.1
    rw [hv] at hv'; cases hv'
    exact hroot.1 f hf

end Root

/-! ## The whole export -/

/-- Under distinct plain names, no file `sysroot` at the root, and not both an `etc` at the root
and one in `usr`, the checkout entries of a successful export have pairwise distinct normalized
paths, none of which a repository entry has. -/
theorem exportCommit_checkout_distinct {repo : Repo} {sha256 : Bytes → Checksum} {fuel : Nat}
    {rev : String} {options : Option ExportOptions} {w : OstreeTarWriter}
    (h : exportCommit repo sha256 fuel rev options = .ok () w)
    (hnames : ∀ c v, repo.loadDirTree c = .ok v → v.NamesOk)
    (hroot : ∀ commit commitV root, repo.requireRev rev = .ok commit →
      repo.loadCommit commit = .ok commitV → repo.loadDirTree commitV.contents = .ok root →
      RootOk repo root) :
    ((checkoutPart w.out).map fun e => normalizedPath e.path).Nodup ∧
      ∀ e ∈ checkoutPart w.out, ∀ e' ∈ w.out, isCheckoutPath e'.path = false →
        normalizedPath e.path ≠ normalizedPath e'.path := by
  obtain ⟨commit, commitV, metadataV, listing, hrev, hc, -, hl, hpart, hrepo⟩ :=
    exportCommit_listing h
  rw [new_curDir, mapPath_curDir] at hl
  obtain ⟨root, hv⟩ := loadDirTree_of_checkoutListing hl
  have hrootOk := hroot commit commitV root hrev hc hv
  obtain ⟨hnd, hlisted⟩ := checkoutListing_listed hnames fuel _ _ true listing hl
  have hfst : ∀ x ∈ listing.map Prod.fst, ∃ p, TreePath repo commitV.contents true p ∧
      x = .curDir :: p.map .normal := fun x hx => by
    obtain ⟨item, hitem, rfl⟩ := List.mem_map.mp hx
    obtain ⟨-, p, hp, htree⟩ := hlisted item hitem
    exact ⟨p, htree, by simpa using hp⟩
  have hsnd : (listing.map Prod.snd).map (fun e => normalizedPath e.path) =
      (listing.map Prod.fst).map (fun x => normalizedPath (mapPath x)) := by
    simp only [List.map_map]
    exact List.map_congr_left fun item hitem => by simp [(hlisted item hitem).1]
  have hrootPath : normalizedPath (dirEntry (options.getD {}) (Utf8Path.new "./")
      metadataV.parsed).path = [] := by
    rw [dirEntry_path, new_curDir, mapPath_curDir]; rfl
  rw [hpart]
  constructor
  · rw [List.map_cons, hrootPath, hsnd, List.nodup_cons]
    refine ⟨fun hmem => ?_, hnd.map_on fun x hx y hy hxy => ?_⟩
    · obtain ⟨x, hx, hnil⟩ := List.mem_map.mp hmem
      obtain ⟨p, hp, rfl⟩ := hfst x hx
      exact normalized_mapPath_ne_nil hp hnil
    · obtain ⟨p, hp, rfl⟩ := hfst x hx
      obtain ⟨q, hq, rfl⟩ := hfst y hy
      rw [normalized_mapPath_inj hv hrootOk hp hq hxy]
  · intro e he e' he' hce'
    obtain ⟨q, hq⟩ := normalizedPath_repo (hrepo e' he' hce')
    rw [hq]
    rcases List.mem_cons.mp he with rfl | he
    · rw [hrootPath]; simp
    · obtain ⟨item, hitem, rfl⟩ := List.mem_map.mp he
      obtain ⟨p, hp, hx⟩ := hfst item.1 (List.mem_map_of_mem _ hitem)
      rw [(hlisted item hitem).1, hx]
      exact normalized_mapPath_ne_repo hv hrootOk hp q

set_option maxRecDepth 100000 in
theorem exportCommit_checkout_distinct_sample :
    ∃ w, exportCommit sampleRepo (fun _ => sampleDigest) 4 "main" (some ⟨1⟩) = .ok () w ∧
      (∀ c v, sampleRepo.loadDirTree c = .ok v → v.NamesOk) ∧
      (∀ commit commitV root, sampleRepo.requireRev "main" = .ok commit →
        sampleRepo.loadCommit commit = .ok commitV →
        sampleRepo.loadDirTree commitV.contents = .ok root → RootOk sampleRepo root) ∧
      ((checkoutPart w.out).map fun e => normalizedPath e.path).Nodup ∧
      ∀ e ∈ checkoutPart w.out, ∀ e' ∈ w.out, isCheckoutPath e'.path = false →
        normalizedPath e.path ≠ normalizedPath e'.path := by
  have hnames : ∀ c v, sampleRepo.loadDirTree c = .ok v → v.NamesOk := fun c v h => by
    simp only [sampleRepo] at h
    split_ifs at h <;> cases h <;> decide
  have hroot : ∀ commit commitV root, sampleRepo.requireRev "main" = .ok commit →
      sampleRepo.loadCommit commit = .ok commitV →
      sampleRepo.loadDirTree commitV.contents = .ok root → RootOk sampleRepo root := by
    intro commit commitV root h₁ h₂ h₃
    simp only [sampleRepo, Except.ok.injEq] at h₁ h₂ h₃
    subst h₂
    simp only [if_true] at h₃
    cases h₃
    simp [RootOk, DirTreeObject.names, sysroot]
  obtain ⟨w, hw⟩ : ∃ w, exportCommit sampleRepo (fun _ => sampleDigest) 4 "main" (some ⟨1⟩) =
      .ok () w := ⟨_, rfl⟩
  exact ⟨w, hw, hnames, hroot, exportCommit_checkout_distinct hw hnames hroot⟩

/-- A store whose root DirTree holds a file named `sysroot`. -/
def sysrootFileRepo : Repo where
  requireRev _ := .ok sampleCommit
  loadCommit _ := .ok ⟨[1], sampleRoot, sampleDirMeta⟩
  loadDirTree _ := .ok ⟨[2], [(sysroot, sampleFile)], []⟩
  loadDirMeta _ := .ok ⟨[3], ⟨0, 0, 0o40755⟩⟩
  readCommitDetachedMetadata _ := .ok none
  loadFile _ := .ok ⟨some [4], some ⟨0, 0, 0o100644, .regular, 1, none⟩, some [7]⟩

set_option maxRecDepth 100000 in
/-- Its names are fine, yet the file's link `./sysroot` and the scaffolding's `sysroot`
directory are one path. -/
theorem exportCommit_sysroot_file_collides :
    (∀ c v, sysrootFileRepo.loadDirTree c = .ok v → v.NamesOk) ∧
    ∃ w, exportCommit sysrootFileRepo (fun _ => sampleDigest) 2 "main" (some ⟨1⟩) = .ok () w ∧
      ∃ e ∈ checkoutPart w.out, ∃ e' ∈ w.out, isCheckoutPath e'.path = false ∧
        normalizedPath e.path = normalizedPath e'.path := by
  refine ⟨fun c v h => ?_, _, rfl, ?_⟩
  · cases h; decide
  · decide

end OstreeTar
