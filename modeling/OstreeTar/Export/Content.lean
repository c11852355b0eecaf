import OstreeTar.Export.Checkout

/-!
# File objects

What `append_content` writes for a file object it has not written yet: its xattrs records, then
the object's own entry.  A symlink object's entry carries the target as its link name, through
one of the two encodings of the `tar` crate: `set_link_name_literal` for a target with `//`
(`symlink_is_denormal`), `append_link` otherwise.  The first has no long-name fallback, so a
denormal target over 100 bytes fails the export.  The second spells the target by its components,
keeping a trailing `/`, so `a/./b` is recorded as `a/b`; a target it refuses goes whole into a
long-link record when it is long enough.  `RecordedAsIs` is the set of targets recorded exactly.
-/

namespace OstreeTar

/-! ## Symlink targets -/

/-- The targets a symlink object's entry records as they are: with `//`, one that fits the
header (`set_link_name_literal`); without, one that `set_link_name` spells as it is and whose
spelling fits, or one that `set_link_name` refuses and that is long enough for a long-link
record (`prepare_header_link`). -/
def RecordedAsIs (target : String) : Prop :=
  if symlinkIsDenormal target then FitsLinkName target
  else (Utf8Path.new target ≠ [] ∧ FitsLinkName (spelledLinkName target) ∧
      spelledLinkName target = target) ∨
    ((Utf8Path.new target = [] ∨ ¬ FitsLinkName (spelledLinkName target)) ∧
      linkNameCapacity ≤ target.utf8ByteSize)

instance (target : String) : Decidable (RecordedAsIs target) :=
  inferInstanceAs (Decidable (if symlinkIsDenormal target then _ else _))

theorem symlinkHeader_eq_iff (h : Header) (target : String) :
    symlinkHeader h target = .ok { h with linkName := some target } ↔ RecordedAsIs target := by
  unfold symlinkHeader RecordedAsIs
  split
  · exact setLinkNameLiteral_eq_iff h target
  · exact prepareHeaderLink_eq_iff h target

example : RecordedAsIs "foo/" ∧ ¬ RecordedAsIs "a/./b" := by decide

theorem symlinkHeader_ok_eq {h h' : Header} {target : String}
    (hok : symlinkHeader h target = .ok h') : ∃ n, h' = { h with linkName := some n } := by
  unfold symlinkHeader at hok
  split at hok
  · exact setLinkNameLiteral_ok_eq hok
  · exact prepareHeaderLink_ok_eq hok

/-- The entry of a file object holds what the store has for it: the owner, a regular file's
content, and a symlink's target whenever that target is recorded as it is. -/
theorem contentEntry_stored {options : ExportOptions} {checksum : Checksum} {file : LoadedFile}
    {meta : FileInfo} {e : Entry} (h : contentEntry options checksum file meta = .ok e) :
    e.path = objectPath .file checksum ∧ e.header.uid = meta.uid.toNat ∧
      e.header.gid = meta.gid.toNat ∧
      (∀ data, file.instream = some data → e.header.entryType = .regular ∧ e.data = data) ∧
      (file.instream = none → e.header.entryType = .symlink ∧
        ∀ target, meta.symlinkTarget = some target → RecordedAsIs target →
          e.header.linkName = some target) := by
  unfold contentEntry at h
  split at h
  · next data hi =>
    split at h <;> cases h
    exact ⟨rfl, rfl, rfl, fun d hd => ⟨rfl, Option.some.inj (hi.symm.trans hd)⟩,
      fun hn => nomatch hi.symm.trans hn⟩
  · next hi =>
    split at h
    · split at h
      · cases h
      · next target ht =>
        split at h
        · next h' hs =>
          cases h
          obtain ⟨n, rfl⟩ := symlinkHeader_ok_eq hs
          refine ⟨rfl, rfl, rfl, fun d hd => ?_, fun _ => ⟨rfl, fun t' ht' hrec => ?_⟩⟩
          · rw [hi] at hd; cases hd
          · cases ht.symm.trans ht'
            exact congrArg Header.linkName (Except.ok.inj (hs.symm.trans
              ((symlinkHeader_eq_iff _ _).mpr hrec)))
        · cases h
    · cases h

section Symlink

variable (repo : Repo) (options : ExportOptions) (sha256 : Bytes → Checksum) (s : OstreeTarWriter)

end Symlink

end OstreeTar
