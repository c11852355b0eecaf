import Mathlib.Data.Finset.Card
import Mathlib.Logic.Relation
import OstreeTar.Export.Checkout

/-!
# The walk ends

`append_dirtree` recurses into the DirTree of every directory entry, with nothing to stop it
entering a DirTree twice: `wrote_dirtree` only keeps the object from being written twice.  The
model gives the recursion fuel; it ends, with a result no more fuel changes, as soon as the fuel
reaches the height of the root DirTree.  A store that is finite and whose DirTree references from
the root have no cycle gives the root a height: the number of DirTrees of the store below it
bounds every chain of references.
-/

namespace OstreeTar

open Relation

section Height

variable (repo : Repo)

/-- A DirTree of the store lists `t'` as the DirTree of one of its directory entries. -/
def SubtreeOf (t t' : Checksum) : Prop :=
  ∃ v, repo.loadDirTree t = .ok v ∧ ∃ d ∈ v.dirs, d.2.1 = t'

/-- The height of a DirTree is below `n`: every chain of references from it has fewer than `n`
DirTrees. -/
inductive HeightBelow : Nat → Checksum → Prop
  | mk {n : Nat} {t : Checksum} :
    (∀ v, repo.loadDirTree t = .ok v → ∀ d ∈ v.dirs, HeightBelow n d.2.1) → HeightBelow (n + 1) t

variable {repo}

/-- A directory entry's DirTree is lower than the DirTree that lists it. -/
theorem HeightBelow.sub {n : Nat} {t : Checksum} {v : DirTreeObject}
    (h : HeightBelow repo (n + 1) t) (hv : repo.loadDirTree t = .ok v) {d : String × Checksum × Checksum}
    (hd : d ∈ v.dirs) : HeightBelow repo n d.2.1 := by
  cases h with
  | mk h => exact h v hv d hd

/-- A DirTree the store does not have is of height one. -/
theorem heightBelow_missing {t : Checksum} (ht : ∀ v, repo.loadDirTree t ≠ .ok v) (n : Nat) :
    HeightBelow repo (n + 1) t :=
  .mk fun v hv => absurd hv (ht v)

/-- In a finite store whose references from `root` have no cycle, `root` has a height: the
DirTrees of the store below a DirTree bound its height, and a reference strictly lowers them. -/
theorem exists_heightBelow (objs : List Checksum)
    (hfin : ∀ t v, repo.loadDirTree t = .ok v → t ∈ objs) (root : Checksum)
    (hacyclic : ∀ t, ReflTransGen (SubtreeOf repo) root t → ¬ TransGen (SubtreeOf repo) t t) :
    ∃ n, HeightBelow repo n root := by
  classical
  let below (t : Checksum) := objs.toFinset.filter fun u => TransGen (SubtreeOf repo) t u
  have step : ∀ m t, ReflTransGen (SubtreeOf repo) root t → (below t).card < m →
      HeightBelow repo (m + 1) t := by
    intro m
    induction m with
    | zero => intro t _ h; omega
    | succ m ih =>
      intro t hreach hcard
      refine .mk fun v hv d hd => ?_
      have hsub : SubtreeOf repo t d.2.1 := ⟨v, hv, d, hd, rfl⟩
      by_cases hload : ∃ v', repo.loadDirTree d.2.1 = .ok v'
      · obtain ⟨v', hv'⟩ := hload
        have hlt : (below d.2.1).card < (below t).card := by
          refine Finset.card_lt_card (Finset.ssubset_iff_of_subset ?_ |>.mpr ⟨d.2.1, ?_, ?_⟩)
          · intro u hu
            simp only [below, Finset.mem_filter] at hu ⊢
            exact ⟨hu.1, .head hsub hu.2⟩
          · simpa [below] using ⟨hfin _ _ hv', TransGen.single hsub⟩
          · simp only [below, Finset.mem_filter, not_and]
            exact fun _ => hacyclic _ (hreach.tail hsub)
        exact ih _ (hreach.tail hsub) (by omega)
      · exact heightBelow_missing (fun v' hv' => hload ⟨v', hv'⟩) m
  exact ⟨_, step _ root .refl (Nat.lt_succ_self _)⟩

end Height

/-! ## Enough fuel -/

theorem forM_congr {γ : Type} {l : List γ} {f g : γ → WriterM PUnit} (h : ∀ a ∈ l, f a = g a) :
    l.forM f = l.forM g := by
  induction l with
  | nil => rfl
  | cons a l ih =>
    simp only [List.forM_cons', h a (List.mem_cons_self _ _),
      ih fun b hb => h b (List.mem_cons_of_mem _ hb)]

section Fuel

variable (repo : Repo) (options : ExportOptions) (sha256 : Bytes → Checksum)

/-- A turn of the loop over directories depends on the recursion only through the entry's
DirTree. -/
theorem appendDirEntry_congr {recurse recurse' : Utf8PathBuf → Checksum → WriterM Unit}
    {item : String × Checksum × Checksum} (h : ∀ p, recurse p item.2.1 = recurse' p item.2.1)
    (dirpath : Utf8PathBuf) (isRoot : Bool) :
    appendDirEntry repo options recurse dirpath isRoot item =
      appendDirEntry repo options recurse' dirpath isRoot item := by
  obtain ⟨name, contents, metaCsum⟩ := item
  simp only [appendDirEntry, h]

/-- `append_dirtree` with `exhausted` for what a call with no fuel left does. -/
def appendDirtreeWith (exhausted : WriterM Unit) :
    Nat → Utf8PathBuf → Checksum → Bool → WriterM Unit
  | 0, _, _, _ => exhausted
  | fuel + 1, dirpath, checksum, isRoot => do
    let v ← liftExcept (repo.loadDirTree checksum)
    append .dirTree checksum v.bytes
    v.files.forM (appendFileEntry repo options sha256 dirpath)
    v.dirs.forM (appendDirEntry repo options
      (fun p c => appendDirtreeWith exhausted fuel p c false) dirpath isRoot)

/-- The walk is `appendDirtreeWith` whose calls with no fuel fail. -/
theorem appendDirtreeWith_throw (fuel : Nat) :
    appendDirtreeWith repo options sha256 (throw "recursion depth exhausted") fuel =
      appendDirtree repo options sha256 fuel := by
  induction fuel with
  | zero => funext _ _ _; rfl
  | succ fuel ih => funext _ _ _; simp only [appendDirtreeWith, appendDirtree, ih]

/-- From fuel past the height of a DirTree, the walk makes no call with no fuel left, whatever
such a call would do, and computes what it computes with fuel the height: each recursive call is
on a DirTree of smaller height, and fuel that reaches it is enough for it. -/
theorem appendDirtreeWith_fuel {n : Nat} {t : Checksum} (h : HeightBelow repo n t) :
    ∀ exhausted fuel, n ≤ fuel → ∀ dirpath isRoot,
      appendDirtreeWith repo options sha256 exhausted fuel dirpath t isRoot =
        appendDirtree repo options sha256 n dirpath t isRoot := by
  induction h with
  | @mk n t _ ih =>
    intro exhausted fuel hle dirpath isRoot
    obtain ⟨fuel, rfl⟩ : ∃ f, fuel = f + 1 := ⟨fuel - 1, by omega⟩
    funext s
    cases hv : repo.loadDirTree t with
    | error e => simp only [appendDirtreeWith, appendDirtree, hv, run_liftExcept_error_bind]
    | ok v =>
      have hdirs : v.dirs.forM (appendDirEntry repo options
            (fun p c => appendDirtreeWith repo options sha256 exhausted fuel p c false) dirpath
              isRoot) =
          v.dirs.forM (appendDirEntry repo options
            (fun p c => appendDirtree repo options sha256 n p c false) dirpath isRoot) :=
        forM_congr fun d hd => appendDirEntry_congr repo options
          (fun p => ih v hv d hd exhausted fuel (by omega) p false) dirpath isRoot
      simp only [appendDirtreeWith, appendDirtree, hv, run_liftExcept_ok_bind, hdirs]

/-- Fuel past the height of a DirTree changes nothing. -/
theorem appendDirtree_fuel {n : Nat} {t : Checksum} (h : HeightBelow repo n t) (fuel : Nat)
    (hle : n ≤ fuel) (dirpath : Utf8PathBuf) (isRoot : Bool) :
    appendDirtree repo options sha256 fuel dirpath t isRoot =
      appendDirtree repo options sha256 n dirpath t isRoot := by
  rw [← appendDirtreeWith_throw]
  exact appendDirtreeWith_fuel repo options sha256 h _ fuel hle dirpath isRoot

/-- `write_commit` with fuel past the height of the commit's root DirTree. -/
theorem writeCommit_fuel {n : Nat} {checksum : Checksum}
    (h : ∀ commitV, repo.loadCommit checksum = .ok commitV → HeightBelow repo n commitV.contents)
    (fuel : Nat) (hle : n ≤ fuel) :
    writeCommit repo options sha256 fuel checksum = writeCommit repo options sha256 n checksum := by
  funext s
  cases hc : repo.loadCommit checksum with
  | error e => simp only [writeCommit, hc, run_liftExcept_error_bind]
  | ok commitV =>
    simp only [writeCommit, hc, run_liftExcept_ok_bind,
      appendDirtree_fuel repo options sha256 (h commitV hc) fuel hle]

end Fuel

/-- `export_commit` with fuel past the height of the commit's root DirTree. -/
theorem exportCommit_fuel (repo : Repo) (sha256 : Bytes → Checksum) (rev : String)
    (options : Option ExportOptions) {n : Nat}
    (h : ∀ commit commitV, repo.requireRev rev = .ok commit → repo.loadCommit commit = .ok commitV →
      HeightBelow repo n commitV.contents)
    (fuel : Nat) (hle : n ≤ fuel) :
    exportCommit repo sha256 fuel rev options = exportCommit repo sha256 n rev options := by
  cases hr : repo.requireRev rev with
  | error e => simp only [exportCommit, context, hr, run_liftExcept_error_bind]
  | ok commit =>
    simp only [exportCommit, context, hr, run_liftExcept_ok_bind,
      writeCommit_fuel repo _ sha256 (h commit · hr) fuel hle]

/-- For a finite store in which the DirTree references reachable from the commit's root have no
cycle, `export_commit` ends: past some fuel, more fuel gives the same result, and the walk from
the commit's root DirTree never runs out of fuel, since it computes the same whatever a call
with no fuel left would do. -/
theorem exportCommit_terminates (repo : Repo) (sha256 : Bytes → Checksum) (rev : String)
    (options : Option ExportOptions) (objs : List Checksum)
    (hfin : ∀ t v, repo.loadDirTree t = .ok v → t ∈ objs)
    (hacyclic : ∀ commit commitV, repo.requireRev rev = .ok commit →
      repo.loadCommit commit = .ok commitV →
      ∀ t, ReflTransGen (SubtreeOf repo) commitV.contents t → ¬ TransGen (SubtreeOf repo) t t) :
    ∃ fuel₀, (∀ fuel, fuel₀ ≤ fuel →
      exportCommit repo sha256 fuel rev options = exportCommit repo sha256 fuel₀ rev options) ∧
      ∀ commit commitV, repo.requireRev rev = .ok commit → repo.loadCommit commit = .ok commitV →
        ∀ exhausted fuel, fuel₀ ≤ fuel → ∀ dirpath,
          appendDirtreeWith repo (options.getD {}) sha256 exhausted fuel dirpath commitV.contents
              true =
            appendDirtree repo (options.getD {}) sha256 fuel₀ dirpath commitV.contents true := by
  obtain ⟨n, hn⟩ : ∃ n, ∀ commit commitV, repo.requireRev rev = .ok commit →
      repo.loadCommit commit = .ok commitV → HeightBelow repo n commitV.contents := by
    cases hr : repo.requireRev rev with
    | error e => exact ⟨0, fun _ _ h => nomatch h⟩
    | ok commit =>
      cases hc : repo.loadCommit commit with
      | error e => exact ⟨0, fun _ _ h₁ h₂ => by cases h₁; rw [hc] at h₂; cases h₂⟩
      | ok commitV =>
        obtain ⟨n, hn⟩ := exists_heightBelow objs hfin _ (hacyclic commit commitV hr hc)
        exact ⟨n, fun _ _ h₁ h₂ => by cases h₁; rw [hc] at h₂; cases h₂; exact hn⟩
  exact ⟨n, exportCommit_fuel repo sha256 rev options hn, fun commit commitV hr hc exhausted fuel hle
    dirpath => appendDirtreeWith_fuel repo _ sha256 (hn commit commitV hr hc) exhausted fuel hle
      dirpath true⟩

/-- A store without cycles: a rank that every reference lowers. -/
theorem not_transGen_of_rank {repo : Repo} (rank : Checksum → Nat)
    (hrank : ∀ t t', SubtreeOf repo t t' → rank t' < rank t) (t : Checksum) :
    ¬ TransGen (SubtreeOf repo) t t := by
  have hlt : ∀ a b, TransGen (SubtreeOf repo) a b → rank b < rank a := fun a b h => by
    induction h with
    | single h => exact hrank _ _ h
    | tail _ h ih => exact Nat.lt_trans (hrank _ _ h) ih
  exact fun h => Nat.lt_irrefl _ (hlt t t h)

/-! ## A DirTree reached twice -/

/-- A store whose root lists the DirTree of `usr` twice, as `a` and as `b`; that DirTree holds
one file, `f`. -/
def diamondRepo : Repo where
  requireRev _ := .ok sampleCommit
  loadCommit _ := .ok ⟨[1], sampleRoot, sampleDirMeta⟩
  loadDirTree c :=
    if c = sampleRoot then
      .ok ⟨[2], [], [("a", sampleUsr, sampleDirMeta), ("b", sampleUsr, sampleDirMeta)]⟩
    else if c = sampleUsr then .ok ⟨[2], [("f", sampleFile)], []⟩
    else .error "no such object"
  loadDirMeta _ := .ok ⟨[3], ⟨0, 0, 0o40755⟩⟩
  readCommitDetachedMetadata _ := .ok none
  loadFile _ := .ok ⟨some [4], some ⟨0, 0, 0o100644, .regular, 1, none⟩, some []⟩

theorem diamondRepo_finite (t : Checksum) (v : DirTreeObject) (h : diamondRepo.loadDirTree t = .ok v) :
    t ∈ [sampleRoot, sampleUsr] := by
  simp only [diamondRepo] at h
  split_ifs at h with h₁ h₂
  · simp [h₁]
  · simp [h₂]

theorem diamondRepo_acyclic (t : Checksum) : ¬ TransGen (SubtreeOf diamondRepo) t t :=
  not_transGen_of_rank (fun c => if c = sampleRoot then 1 else 0) (fun t t' ⟨v, hv, d, hd, hd'⟩ => by
    simp only [diamondRepo] at hv
    split_ifs at hv with h₁ h₂
    · cases hv
      simp only [List.mem_cons, List.mem_singleton, List.not_mem_nil, or_false] at hd
      have hne : sampleUsr ≠ sampleRoot := by decide
      rcases hd with rfl | rfl <;> subst hd' <;> simp [h₁, hne]
    · cases hv; simp at hd) t

set_option maxRecDepth 100000 in
/-- The walk over the sample store ends, and it enters the shared DirTree twice: its object is
written once, but its file is linked at both `a/f` and `b/f`. -/
theorem exportCommit_terminates_diamond :
    (∃ fuel₀, (∀ fuel, fuel₀ ≤ fuel →
      exportCommit diamondRepo (fun _ => sampleDigest) fuel "main" (some ⟨0⟩) =
        exportCommit diamondRepo (fun _ => sampleDigest) fuel₀ "main" (some ⟨0⟩)) ∧
      ∀ commit commitV, diamondRepo.requireRev "main" = .ok commit →
        diamondRepo.loadCommit commit = .ok commitV →
        ∀ exhausted fuel, fuel₀ ≤ fuel → ∀ dirpath,
          appendDirtreeWith diamondRepo ((some ⟨0⟩ : Option ExportOptions).getD {})
              (fun _ => sampleDigest) exhausted fuel dirpath commitV.contents true =
            appendDirtree diamondRepo ((some ⟨0⟩ : Option ExportOptions).getD {})
              (fun _ => sampleDigest) fuel₀ dirpath commitV.contents true) ∧
    ∃ w, exportCommit diamondRepo (fun _ => sampleDigest) 2 "main" (some ⟨0⟩) = .ok () w ∧
      (w.out.map Entry.path).count (objectPath .dirTree sampleUsr) = 1 ∧
      (w.out.filter fun e => e.header.entryType = .link).length = 2 :=
  ⟨exportCommit_terminates diamondRepo _ "main" _ [sampleRoot, sampleUsr] diamondRepo_finite
    fun _ _ _ _ t _ => diamondRepo_acyclic t, _, rfl, by decide, by decide⟩

end OstreeTar
