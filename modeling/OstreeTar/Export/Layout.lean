import OstreeTar.Tar
import Mathlib.Data.List.Infix
import Mathlib.Data.String.Basic

/-!
# The layout of an exported archive

Where the export puts each object of the store (`sysroot/ostree/repo/objects/..`), where its
xattrs records go in either format, how the checkout part rewrites `/usr/etc` and modes, and
which symlink targets are written literally.  Every path here is built by `format!` from plain
names; it is given by its components.
-/

namespace OstreeTar

/-- A lowercase hex digit, as `hex::encode` writes them. -/
def isLowerHexDigit (c : Char) : Bool := c.isDigit || ('a' ≤ c && c ≤ 'f')

/-- An object checksum: a SHA-256 digest as `hex::encode` writes it, 64 lowercase hex digits. -/
structure Checksum where
  str : String
  hex : str.data.all isLowerHexDigit = true
  length : str.length = 64
  deriving DecidableEq

/-- `checksum.split_at(2)`: the shard directory and the file name stem. -/
def Checksum.splitAt (c : Checksum) : String × String :=
  (String.mk (c.str.data.take 2), String.mk (c.str.data.drop 2))

/-- The object types the export writes (`ostree::ObjectType`); `object_path` panics on the
others, which the writer never passes. -/
inductive ObjectType
  | file
  | dirTree
  | dirMeta
  | commit
  | commitMeta
  deriving DecidableEq, Repr

/-- `SYSROOT`: special in the tar stream and in the commit. -/
def sysroot : String := "sysroot"

/-- `OSTREEDIR`, `"sysroot/ostree"`. -/
def ostreeDir : Utf8PathBuf := [.normal "sysroot", .normal "ostree"]

/-- `REPO_CONFIG`, the repository configuration declaring the `bare-split-xattrs` mode. -/
def repoConfig : String := "[core]\nrepo_version=1\nmode=bare-split-xattrs\n"

/-- `format!("{}/repo/objects/{}/{}.{}", OSTREEDIR, first, rest, suffix)`: the shape shared by
`object_path` and the three xattrs object paths. -/
def objectsPath (checksum : Checksum) (suffix : String) : Utf8PathBuf :=
  let (first, rest) := checksum.splitAt
  ostreeDir ++ [.normal "repo", .normal "objects", .normal first, .normal (rest ++ "." ++ suffix)]

/-- The suffix `object_path` gives an object type. -/
def ObjectType.suffix : ObjectType → String
  | .commit => "commit"
  | .commitMeta => "commitmeta"
  | .dirTree => "dirtree"
  | .dirMeta => "dirmeta"
  | .file => "file"

/-- `object_path`. -/
def objectPath (objtype : ObjectType) (checksum : Checksum) : Utf8PathBuf :=
  objectsPath checksum objtype.suffix

/-- `v0_xattrs_path`: `sysroot/ostree/repo/xattrs/<checksum>`. -/
def v0XattrsPath (checksum : Checksum) : Utf8PathBuf :=
  ostreeDir ++ [.normal "repo", .normal "xattrs", .normal checksum.str]

/-- `v0_xattrs_object_path`. -/
def v0XattrsObjectPath (checksum : Checksum) : Utf8PathBuf :=
  objectsPath checksum "file.xattrs"

/-- `v1_xattrs_object_path`. -/
def v1XattrsObjectPath (checksum : Checksum) : Utf8PathBuf :=
  objectsPath checksum "file-xattrs"

/-- `v1_xattrs_link_object_path`. -/
def v1XattrsLinkObjectPath (checksum : Checksum) : Utf8PathBuf :=
  objectsPath checksum "file-xattrs-link"

/-- `map_path`: convert `/usr/etc` back to `/etc`. -/
def mapPath (p : Utf8PathBuf) : Utf8PathBuf :=
  match Utf8Path.stripPrefix p (Utf8Path.new "./usr/etc") with
  | some r => Utf8Path.join (Utf8Path.new "./etc") r
  | none => p

/-- `symlink_is_denormal`: the target contains `//`. -/
def symlinkIsDenormal (target : String) : Bool := decide (['/', '/'] <:+: target.data)

/-- `libc::S_IFMT`, the file-type bits of a mode. -/
def S_IFMT : UInt32 := 0o170000

/-- `ExportOptions`: the format version, 0 by default and 0 or 1 when valid. -/
structure ExportOptions where
  formatVersion : UInt32 := 0
  deriving DecidableEq, Repr

/-- `filter_mode`: format 0 keeps the file-type bits it historically wrote, format 1 clears them. -/
def filterMode (options : ExportOptions) (mode : UInt32) : UInt32 :=
  if options.formatVersion = 0 then mode else mode &&& ~~~S_IFMT

/-! ## Object paths are plain -/

theorem Checksum.isLowerHexDigit_of_mem (c : Checksum) {ch : Char} (h : ch ∈ c.str.data) :
    isLowerHexDigit ch = true :=
  List.all_eq_true.mp c.hex ch h

/-- A character that is not a lowercase hex digit is in no checksum. -/
theorem Checksum.not_mem (c : Checksum) {ch : Char} (hch : isLowerHexDigit ch = false) :
    ch ∉ c.str.data := fun h => by simp [c.isLowerHexDigit_of_mem h] at hch

theorem Checksum.length_data (c : Checksum) : c.str.data.length = 64 := c.length

/-- A name fit to be a path component and a link name: plain, and without NUL. -/
def PlainName (n : String) : Prop := Utf8Path.IsPlain n ∧ '\x00' ∉ n.data

instance (n : String) : Decidable (PlainName n) := inferInstanceAs (Decidable (_ ∧ _))

theorem Checksum.plainName (c : Checksum) : PlainName c.str := by
  refine ⟨⟨fun h => ?_, c.not_mem (by decide), fun h => ?_, fun h => ?_⟩, c.not_mem (by decide)⟩
  · simpa [h] using c.length_data
  · exact @Checksum.not_mem c '.' (by decide) (by simp [h])
  · exact @Checksum.not_mem c '.' (by decide) (by simp [h])

theorem Checksum.plainName_splitAt_fst (c : Checksum) : PlainName c.splitAt.1 := by
  have hsub : ∀ ch ∈ c.splitAt.1.data, ch ∈ c.str.data := fun ch h =>
    List.mem_of_mem_take (by simpa [Checksum.splitAt] using h)
  have hlen : c.splitAt.1.data.length = 2 := by simp [Checksum.splitAt, c.length_data]
  refine ⟨⟨fun h => by simp [h] at hlen, fun h => c.not_mem (by decide) (hsub _ h),
    fun h => @Checksum.not_mem c '.' (by decide) (hsub _ (by simp [h])),
    fun h => @Checksum.not_mem c '.' (by decide) (hsub _ (by simp [h]))⟩,
    fun h => c.not_mem (by decide) (hsub _ h)⟩

/-- The file name of an object: the checksum past the shard, a dot and a suffix. -/
theorem Checksum.plainName_splitAt_snd (c : Checksum) {suffix : String}
    (hsuffix : '/' ∉ suffix.data ∧ '\x00' ∉ suffix.data) :
    PlainName (c.splitAt.2 ++ "." ++ suffix) := by
  have hsub : ∀ ch ∈ c.splitAt.2.data, ch ∈ c.str.data := fun ch h =>
    List.mem_of_mem_drop (by simpa [Checksum.splitAt] using h)
  have hlen : (c.splitAt.2 ++ "." ++ suffix).data.length = 63 + suffix.data.length := by
    simp [Checksum.splitAt, c.length_data]; omega
  refine ⟨⟨fun h => by simp [h] at hlen; omega, fun h => ?_, fun h => by simp [h] at hlen; omega,
    fun h => by simp [h] at hlen; omega⟩, fun h => ?_⟩
  · simp only [String.data_append, List.mem_append] at h
    rcases h with (h | h) | h
    · exact c.not_mem (by decide) (hsub _ h)
    · simp at h
    · exact hsuffix.1 h
  · simp only [String.data_append, List.mem_append] at h
    rcases h with (h | h) | h
    · exact c.not_mem (by decide) (hsub _ h)
    · simp at h
    · exact hsuffix.2 h

theorem objectsPath_eq (checksum : Checksum) (suffix : String) :
    objectsPath checksum suffix =
      ["sysroot", "ostree", "repo", "objects", checksum.splitAt.1,
        checksum.splitAt.2 ++ "." ++ suffix].map .normal := rfl

/-- Every name of an object path is plain and free of NUL. -/
theorem objectsPath_plainName (checksum : Checksum) {suffix : String}
    (hsuffix : '/' ∉ suffix.data ∧ '\x00' ∉ suffix.data) :
    ∀ n ∈ ["sysroot", "ostree", "repo", "objects", checksum.splitAt.1,
      checksum.splitAt.2 ++ "." ++ suffix], PlainName n := by
  simp only [List.forall_mem_cons, List.not_mem_nil, false_implies, implies_true, and_true]
  exact ⟨by decide, by decide, by decide, by decide, checksum.plainName_splitAt_fst,
    checksum.plainName_splitAt_snd hsuffix⟩

/-! ## File objects fit a link name

`append_dirtree` links each file to its object with `set_link_name`, which has no long-link
fallback: the object path has to fit the 100-byte field.  It does, at 98 bytes. -/

theorem utf8Size_of_isLowerHexDigit {ch : Char} (h : isLowerHexDigit ch = true) :
    ch.utf8Size = 1 := by
  have hv : ch.val ≤ 'f'.val := by
    simp only [isLowerHexDigit, Char.isDigit, Bool.or_eq_true, Bool.and_eq_true,
      decide_eq_true_eq] at h
    rcases h with ⟨-, h⟩ | ⟨-, h⟩
    · exact UInt32.le_trans h (by decide)
    · exact h
  unfold Char.utf8Size
  exact if_pos (UInt32.le_trans hv (by decide))

theorem utf8Len_of_utf8Size_one {l : List Char} (h : ∀ c ∈ l, c.utf8Size = 1) :
    String.utf8Len l = l.length := by
  induction l with
  | nil => rfl
  | cons c l ih => simp [h c (by simp), ih fun d hd => h d (by simp [hd])]

theorem objectPath_file_fits (c : Checksum) :
    (Utf8Path.render (objectPath .file c)).utf8ByteSize ≤ linkNameCapacity := by
  have hhex : ∀ ch ∈ c.str.data, ch.utf8Size = 1 := fun ch h =>
    utf8Size_of_isLowerHexDigit (c.isLowerHexDigit_of_mem h)
  have h1 : String.utf8Len (c.str.data.take 2) = 2 := by
    rw [utf8Len_of_utf8Size_one fun ch h => hhex ch (List.mem_of_mem_take h)]
    simp [c.length_data]
  have h2 : String.utf8Len (c.str.data.drop 2) = 62 := by
    rw [utf8Len_of_utf8Size_one fun ch h => hhex ch (List.mem_of_mem_drop h)]
    simp [c.length_data]
  rw [objectPath, objectsPath_eq, Utf8Path.render_map_normal]
  simp [List.intercalate, Checksum.splitAt, h1, h2, linkNameCapacity]
  decide

/-- `set_link_name` takes a file object's path as it is. -/
theorem setLinkName_objectPath_file (h : Header) (c : Checksum) :
    h.setLinkName (Utf8Path.render (objectPath .file c)) =
      .ok { h with linkName := some (Utf8Path.render (objectPath .file c)) } := by
  have hplain := @objectsPath_plainName c ObjectType.file.suffix (by decide)
  have hnul : '\x00' ∉ (Utf8Path.render (objectPath .file c)).data := fun hc => by
    rw [objectPath, objectsPath_eq] at hc
    rcases Utf8Path.mem_render_map_normal hc with h0 | ⟨n, hn, h0⟩
    · exact absurd h0 (by decide)
    · exact (hplain n hn).2 h0
  have hcopy : copyPathInto (Utf8Path.render (objectPath .file c)) =
      .ok (Utf8Path.render (objectPath .file c)) := by
    rw [objectPath, objectsPath_eq, copyPathInto_render (fun n hn => (hplain n hn).1) (by simp)]
    exact copyInto_ok (objectPath_file_fits c) hnul
  rw [Header.setLinkName, hcopy]
  rfl

theorem v0XattrsPath_eq (checksum : Checksum) :
    v0XattrsPath checksum = ["sysroot", "ostree", "repo", "xattrs", checksum.str].map .normal := rfl

theorem v0XattrsPath_plainName (checksum : Checksum) :
    ∀ n ∈ ["sysroot", "ostree", "repo", "xattrs", checksum.str], PlainName n := by
  simp only [List.forall_mem_cons, List.not_mem_nil, false_implies, implies_true, and_true]
  exact ⟨by decide, by decide, by decide, by decide, checksum.plainName⟩

end OstreeTar
