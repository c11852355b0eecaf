import OstreeTar.Path

/-!
# The `tar` crate, as the writer and the extractor use it

An archive is a list of entries as a reader sees them: the GNU long-name and long-link records
the crate emits for names over 100 bytes are folded into the entry they belong to.  Of a header
only the fields this repository sets or reads are kept.  The two link-name encodings are
modelled as the crate computes them, since the writer chooses between them.
-/

namespace OstreeTar

/-- Raw bytes. -/
abbrev Bytes := List UInt8

/-- `tar::EntryType`, with the kinds this repository never tells apart merged into `other`. -/
inductive EntryType
  | regular
  | link
  | symlink
  | directory
  | other
  deriving DecidableEq, Repr

/-- The header fields this repository sets or reads (`tar::Header`). -/
structure Header where
  entryType : EntryType
  uid : Nat
  gid : Nat
  mode : UInt32
  size : Nat
  linkName : Option String
  deriving DecidableEq, Repr

/-- `Header::new_gnu()`: a regular file, every number zero, no link name. -/
def Header.newGnu : Header := ⟨.regular, 0, 0, 0, 0, none⟩

/-- One entry of an archive: path, header and data. -/
structure Entry where
  path : Utf8PathBuf
  header : Header
  data : Bytes
  deriving DecidableEq, Repr

/-- The size of the `linkname` field of a header. -/
def linkNameCapacity : Nat := 100

/-- `copy_into`: bytes that fit the field and hold no NUL. -/
def copyInto (bytes : String) : Except String String :=
  if linkNameCapacity < bytes.utf8ByteSize then .error "provided value is too long"
  else if '\x00' ∈ bytes.data then .error "provided value contains a nul byte"
  else .ok bytes

/-- `Header::set_link_name_literal`: the bytes as they are. -/
def Header.setLinkNameLiteral (h : Header) (target : String) : Except String Header := do
  let name ← copyInto target
  pure { h with linkName := some name }

/-- `copy_path_into` with `is_link_name`: the components of the path rendered, `.`, `..` and the
root kept, and a trailing `/` when the path ends in one.  The crate checks length and NUL bytes
piece by piece; checking the whole name changes only which of the two messages a name with both
faults gets. -/
def copyPathInto (target : String) : Except String String := do
  let comps := Utf8Path.new target
  if comps = [] then throw "paths in archives must have at least one component"
  copyInto (Utf8Path.render comps ++ if target.data.getLast? = some '/' then "/" else "")

/-- `Header::set_link_name`. -/
def Header.setLinkName (h : Header) (target : String) : Except String Header := do
  let name ← copyPathInto target
  pure { h with linkName := some name }

/-- `prepare_header_link`: the header takes the link name when `set_link_name` does; a name of
at least 100 bytes that it refuses goes whole into a GNU long-link record instead. -/
def prepareHeaderLink (h : Header) (linkName : String) : Except String Header :=
  match h.setLinkName linkName with
  | .ok h' => .ok h'
  | .error e =>
    if linkName.utf8ByteSize < linkNameCapacity then .error e
    else .ok { h with linkName := some linkName }

/-! ## The link-name encodings set only the link name

Whether a name is accepted, and how it is spelled, depends on the name alone: a header that
differs in its mode gets the same outcome, with its own mode. -/

section Mode

variable (f : UInt32 → UInt32) (h : Header) (target : String)

theorem setLinkNameLiteral_mapMode :
    Header.setLinkNameLiteral { h with mode := f h.mode } target =
      (h.setLinkNameLiteral target).map fun h' => { h' with mode := f h'.mode } := by
  unfold Header.setLinkNameLiteral
  cases copyInto target <;> rfl

theorem setLinkName_mapMode :
    Header.setLinkName { h with mode := f h.mode } target =
      (h.setLinkName target).map fun h' => { h' with mode := f h'.mode } := by
  unfold Header.setLinkName
  cases copyPathInto target <;> rfl

theorem prepareHeaderLink_mapMode :
    prepareHeaderLink { h with mode := f h.mode } target =
      (prepareHeaderLink h target).map fun h' => { h' with mode := f h'.mode } := by
  unfold prepareHeaderLink
  rw [setLinkName_mapMode]
  cases h.setLinkName target with
  | ok h' => rfl
  | error e => dsimp only [Except.map]; split <;> rfl

end Mode

theorem setLinkName_ok_eq {h h' : Header} {target : String} (hok : h.setLinkName target = .ok h') :
    ∃ n, h' = { h with linkName := some n } := by
  unfold Header.setLinkName at hok
  cases hc : copyPathInto target with
  | error e => rw [hc] at hok; cases hok
  | ok n => rw [hc] at hok; cases hok; exact ⟨n, rfl⟩

theorem setLinkNameLiteral_ok_eq {h h' : Header} {target : String}
    (hok : h.setLinkNameLiteral target = .ok h') : ∃ n, h' = { h with linkName := some n } := by
  unfold Header.setLinkNameLiteral at hok
  cases hc : copyInto target with
  | error e => rw [hc] at hok; cases hok
  | ok n => rw [hc] at hok; cases hok; exact ⟨n, rfl⟩

theorem prepareHeaderLink_ok_eq {h h' : Header} {target : String}
    (hok : prepareHeaderLink h target = .ok h') : ∃ n, h' = { h with linkName := some n } := by
  unfold prepareHeaderLink at hok
  split at hok
  · next hs => cases hok; exact setLinkName_ok_eq hs
  · split at hok
    · cases hok
    · cases hok; exact ⟨_, rfl⟩

/-! ## Names kept as they are -/

theorem copyInto_ok {bytes : String} (hsize : bytes.utf8ByteSize ≤ linkNameCapacity)
    (hnul : '\x00' ∉ bytes.data) : copyInto bytes = .ok bytes := by
  simp [copyInto, hnul, Nat.not_lt.mpr hsize]

/-- `copy_path_into` spells a path as its components are, so it leaves alone a non-empty path
already spelled so, without a trailing `/`. -/
theorem copyPathInto_canonical {target : String} (hne : Utf8Path.new target ≠ [])
    (hslash : target.data.getLast? ≠ some '/')
    (hcanon : Utf8Path.render (Utf8Path.new target) = target) :
    copyPathInto target = copyInto target := by
  simp [copyPathInto, hne, hslash, hcanon]

/-- A name that `copy_path_into` leaves alone and that holds no NUL is always accepted by
`append_link`: in the header when it fits, whole in a long-link record when it does not. -/
theorem prepareHeaderLink_of_copyPathInto {target : String}
    (hcopy : copyPathInto target = copyInto target) (hnul : '\x00' ∉ target.data) (h : Header) :
    prepareHeaderLink h target = .ok { h with linkName := some target } := by
  by_cases hsize : target.utf8ByteSize ≤ linkNameCapacity
  · simp [prepareHeaderLink, Header.setLinkName, hcopy, copyInto_ok hsize hnul]
  · have hlong : copyInto target = .error "provided value is too long" := by
      simp [copyInto, Nat.lt_of_not_le hsize]
    simp [prepareHeaderLink, Header.setLinkName, hcopy, hlong,
      Nat.not_lt.mpr (Nat.le_of_lt (Nat.lt_of_not_le hsize))]

/-! ## Names recorded as they are -/

/-- A name `copy_into` keeps: it fits the field and holds no NUL. -/
def FitsLinkName (name : String) : Prop :=
  name.utf8ByteSize ≤ linkNameCapacity ∧ '\x00' ∉ name.data

instance (name : String) : Decidable (FitsLinkName name) := inferInstanceAs (Decidable (_ ∧ _))

/-- The name `copy_path_into` makes of a path: its components rendered, a trailing `/` kept. -/
def spelledLinkName (target : String) : String :=
  Utf8Path.render (Utf8Path.new target) ++ if target.data.getLast? = some '/' then "/" else ""

theorem copyInto_eq_ok_iff {bytes name : String} :
    copyInto bytes = .ok name ↔ FitsLinkName bytes ∧ name = bytes := by
  unfold copyInto FitsLinkName
  split_ifs with h₁ h₂
  · exact ⟨nofun, fun h => absurd h₁ (Nat.not_lt.mpr h.1.1)⟩
  · exact ⟨nofun, fun h => h.1.2 h₂⟩
  · exact ⟨fun h => ⟨⟨Nat.not_lt.mp h₁, h₂⟩, (Except.ok.inj h).symm⟩, fun h => h.2 ▸ rfl⟩

theorem copyPathInto_eq (target : String) :
    copyPathInto target = if Utf8Path.new target = [] then
      .error "paths in archives must have at least one component"
      else copyInto (spelledLinkName target) := by
  unfold copyPathInto spelledLinkName
  split <;> rfl

theorem setLinkName_eq (h : Header) (target : String) :
    h.setLinkName target = match copyPathInto target with
      | .ok name => .ok { h with linkName := some name }
      | .error e => .error e := by
  unfold Header.setLinkName
  cases copyPathInto target <;> rfl

theorem withLinkName_inj {h : Header} {a b : String} :
    ({ h with linkName := some a } : Header) = { h with linkName := some b } ↔ a = b :=
  ⟨fun e => Option.some.inj (congrArg Header.linkName e), fun e => e ▸ rfl⟩

/-- `set_link_name_literal` records a name as it is exactly when it fits. -/
theorem setLinkNameLiteral_eq_iff (h : Header) (target : String) :
    h.setLinkNameLiteral target = .ok { h with linkName := some target } ↔
      FitsLinkName target := by
  unfold Header.setLinkNameLiteral
  rcases hc : copyInto target with e | name
  · exact ⟨nofun, fun hf => nomatch hc.symm.trans (copyInto_eq_ok_iff.mpr ⟨hf, rfl⟩)⟩
  · obtain ⟨hf, rfl⟩ := copyInto_eq_ok_iff.mp hc
    exact ⟨fun _ => hf, fun _ => rfl⟩

/-- When `set_link_name` refuses a name, `append_link` records it as it is exactly when it is
long enough for a long-link record. -/
theorem prepareHeaderLink_of_error {h : Header} {target e : String}
    (hs : h.setLinkName target = .error e) :
    prepareHeaderLink h target = .ok { h with linkName := some target } ↔
      linkNameCapacity ≤ target.utf8ByteSize := by
  simp only [prepareHeaderLink, hs]
  split_ifs with hl
  · exact ⟨nofun, fun h => absurd hl (Nat.not_lt.mpr h)⟩
  · exact ⟨fun _ => Nat.not_lt.mp hl, fun _ => rfl⟩

/-- `append_link` records a name as it is exactly when `set_link_name` spells it so and the
spelling fits, or when `set_link_name` refuses it and it is long enough for a long-link record. -/
theorem prepareHeaderLink_eq_iff (h : Header) (target : String) :
    prepareHeaderLink h target = .ok { h with linkName := some target } ↔
      (Utf8Path.new target ≠ [] ∧ FitsLinkName (spelledLinkName target) ∧
          spelledLinkName target = target) ∨
        ((Utf8Path.new target = [] ∨ ¬ FitsLinkName (spelledLinkName target)) ∧
          linkNameCapacity ≤ target.utf8ByteSize) := by
  have hs := setLinkName_eq h target
  rw [copyPathInto_eq] at hs
  by_cases hn : Utf8Path.new target = []
  · rw [if_pos hn] at hs
    simp [prepareHeaderLink_of_error hs, hn]
  rw [if_neg hn] at hs
  by_cases hf : FitsLinkName (spelledLinkName target)
  · rw [copyInto_eq_ok_iff.mpr ⟨hf, rfl⟩] at hs
    simp [prepareHeaderLink, hs, withLinkName_inj, hn, hf]
  · rcases hc : copyInto (spelledLinkName target) with e | name
    · rw [hc] at hs
      simp [prepareHeaderLink_of_error hs, hn, hf]
    · exact absurd (copyInto_eq_ok_iff.mp hc).1 hf

/-! ## Link names of plain paths -/

section PlainPath

variable {names : List String} (hplain : ∀ n ∈ names, Utf8Path.IsPlain n) (hne : names ≠ [])
include hplain hne

/-- The link name of a path of plain names is its rendering, checked by `copy_into`. -/
theorem copyPathInto_render :
    copyPathInto (Utf8Path.render (names.map .normal)) =
      copyInto (Utf8Path.render (names.map .normal)) := by
  have hnew := Utf8Path.new_render_normal hplain hne
  exact copyPathInto_canonical (by simpa [hnew] using hne)
    (Utf8Path.getLast?_render_map_normal hplain) (by rw [hnew])

variable (hnul : ∀ n ∈ names, '\x00' ∉ n.data)
include hnul

/-- A path of plain names without NUL is always accepted as a link name: in the header when it
fits, in a long-link record when it does not. -/
theorem prepareHeaderLink_render (h : Header) :
    prepareHeaderLink h (Utf8Path.render (names.map .normal)) =
      .ok { h with linkName := some (Utf8Path.render (names.map .normal)) } := by
  refine prepareHeaderLink_of_copyPathInto (copyPathInto_render hplain hne) (fun hc => ?_) h
  rcases Utf8Path.mem_render_map_normal hc with h0 | ⟨n, hn, h0⟩
  · exact absurd h0 (by decide)
  · exact hnul n hn h0

end PlainPath

end OstreeTar
