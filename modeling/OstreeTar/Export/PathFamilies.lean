import OstreeTar.Export.Objects

/-!
# One path per object

The archive names each object it writes by a path built from a checksum, with one of five
helpers: `object_path` and the four xattrs paths.  Their suffixes are prefixes of one another
(`file`, `file.xattrs`, `file-xattrs`, `file-xattrs-link`), so what keeps the paths apart is the
fixed length of the file name stem, 62 hex digits, before the suffix.

`LayoutPath` is a path of one family with its arguments.  Its `path` is injective, and no such
path is a directory of the scaffolding or the repository configuration, in any format version.
-/

namespace OstreeTar

/-- A path of the layout: the helper that builds it and the arguments it is given. -/
inductive LayoutPath
  | object (objtype : ObjectType) (checksum : Checksum)
  | v0Xattrs (checksum : Checksum)
  | v0XattrsObject (checksum : Checksum)
  | v1XattrsObject (checksum : Checksum)
  | v1XattrsLinkObject (checksum : Checksum)
  deriving DecidableEq

namespace LayoutPath

/-- The path the helper builds. -/
def path : LayoutPath → Utf8PathBuf
  | object objtype checksum => objectPath objtype checksum
  | v0Xattrs checksum => v0XattrsPath checksum
  | v0XattrsObject checksum => v0XattrsObjectPath checksum
  | v1XattrsObject checksum => v1XattrsObjectPath checksum
  | v1XattrsLinkObject checksum => v1XattrsLinkObjectPath checksum

/-- The checksum the path is built from. -/
def checksum : LayoutPath → Checksum
  | object _ c | v0Xattrs c | v0XattrsObject c | v1XattrsObject c | v1XattrsLinkObject c => c

/-- The suffix of a path under `repo/objects`; `none` for the v0 xattrs blob, which is not there. -/
def suffix : LayoutPath → Option String
  | object objtype _ => some objtype.suffix
  | v0Xattrs _ => none
  | v0XattrsObject _ => some "file.xattrs"
  | v1XattrsObject _ => some "file-xattrs"
  | v1XattrsLinkObject _ => some "file-xattrs-link"

theorem path_eq (l : LayoutPath) :
    l.path = match l.suffix with
      | some s => objectsPath l.checksum s
      | none => v0XattrsPath l.checksum := by
  cases l <;> rfl

theorem eq_of_suffix_checksum {l l' : LayoutPath} (hs : l.suffix = l'.suffix)
    (hc : l.checksum = l'.checksum) : l = l' := by
  cases l <;> cases l' <;> (try cases ‹ObjectType›) <;> (try cases ‹ObjectType›) <;>
    simp_all [suffix, checksum, ObjectType.suffix]

end LayoutPath

theorem v0XattrsPath_length (c : Checksum) : (v0XattrsPath c).length = 5 := rfl

theorem v0XattrsPath_inj {c c' : Checksum} (h : v0XattrsPath c = v0XattrsPath c') : c = c' :=
  Checksum.eq_of_str (by simpa [v0XattrsPath, ostreeDir] using h)

/-- The v0 xattrs blob lies in `repo/xattrs`, where no directory of the scaffolding has a child. -/
theorem v0XattrsPath_not_mem_repoStructureDirs (options : ExportOptions) (c : Checksum) :
    v0XattrsPath c ∉ repoStructureDirs options := by
  have apart : ∀ p ∈ repoStructureDirs options, p.get? 3 ≠ some (.normal "xattrs") ∨ p.length ≠ 5 := by
    rw [repoStructureDirs_eq]
    intro p hp
    rcases List.mem_append.mp hp with h | h <;> clear hp
    · rcases List.mem_append.mp h with h' | h' <;> clear h
      · revert h' p; decide
      · obtain ⟨d, -, rfl⟩ := List.mem_map.mp h'; simp [ostreeDir]
    · split_ifs at h <;> revert h p <;> decide
  intro h
  rcases apart _ h with h' | h' <;> exact h' rfl

theorem configPath_length_lt {options : ExportOptions} {cfg : Utf8PathBuf}
    (hcfg : configPath options = some cfg) : cfg.length < 5 := by
  unfold configPath at hcfg
  split_ifs at hcfg <;> cases hcfg <;> decide

namespace LayoutPath

theorem path_length (l : LayoutPath) : 5 ≤ l.path.length := by
  rw [path_eq]; split <;> simp [v0XattrsPath_length]

theorem path_injective : Function.Injective path := fun l l' h => by
  rw [path_eq, path_eq] at h
  rcases hs : l.suffix with _ | s <;> rcases hs' : l'.suffix with _ | s' <;> simp only [hs, hs'] at h
  · exact eq_of_suffix_checksum (hs.trans hs'.symm) (v0XattrsPath_inj h)
  · exact absurd (congrArg List.length h) (by simp [v0XattrsPath_length])
  · exact absurd (congrArg List.length h) (by simp [v0XattrsPath_length])
  · obtain ⟨hc, rfl⟩ := objectsPath_inj h
    exact eq_of_suffix_checksum (hs.trans hs'.symm) hc

theorem path_not_mem_repoStructureDirs (l : LayoutPath) (options : ExportOptions) :
    l.path ∉ repoStructureDirs options := by
  rw [path_eq]
  split
  · exact fun h => length_ne_of_mem_repoStructureDirs h (objectsPath_length _ _)
  · exact v0XattrsPath_not_mem_repoStructureDirs options _

theorem configPath_ne (l : LayoutPath) (options : ExportOptions) :
    configPath options ≠ some l.path := fun h =>
  absurd (configPath_length_lt h) (Nat.not_lt.mpr l.path_length)

end LayoutPath

/-- The layout is injective across its families: two paths of the layout are equal only when
they come from one helper and one checksum (and, for `object_path`, one object type).  None of
them is a directory of the scaffolding or the configuration, whatever the format version. -/
theorem layoutPath_apart :
    Function.Injective LayoutPath.path ∧
      ∀ (l : LayoutPath) (options : ExportOptions),
        l.path ∉ repoStructureDirs options ∧ configPath options ≠ some l.path :=
  ⟨LayoutPath.path_injective, fun l options =>
    ⟨l.path_not_mem_repoStructureDirs options, l.configPath_ne options⟩⟩

end OstreeTar
