import Mathlib.Logic.Basic

/-!
# The layer of a manifest (`container/import.rs`)

An image that carries an ostree commit has one layer, of one of two media types.
`find_layer_blobid` picks that layer out of the manifest and returns its digest without the
`sha256:` prefix.  The two media types are constants of the `oci` module, which is not part of
this source, so the model takes them as parameters and the results hold for any two.
-/

namespace OstreeTar

/-- An OCI descriptor, by the fields `find_layer_blobid` reads. -/
structure Descriptor where
  mediaType : String
  digest : String
  deriving DecidableEq, Repr

/-- `oci::Manifest`, by its layers. -/
structure Manifest where
  layers : List Descriptor
  deriving DecidableEq, Repr

/-- `str::strip_prefix`. -/
def strStripPrefix (s pre : String) : Option String :=
  if pre.data.isPrefixOf s.data then some (String.mk (s.data.drop pre.data.length)) else none

theorem strStripPrefix_eq_some {s pre h : String} : strStripPrefix s pre = some h ↔ s = pre ++ h := by
  unfold strStripPrefix
  split
  · next hp =>
    obtain ⟨rest, hs⟩ := List.isPrefixOf_iff_prefix.mp hp
    obtain ⟨s⟩ := s
    obtain ⟨h⟩ := h
    subst hs
    simp [String.ext_iff]
  · next hp =>
    refine ⟨nofun, fun hs => absurd ?_ hp⟩
    rw [List.isPrefixOf_iff_prefix, hs, String.data_append]
    exact List.prefix_append _ _

section Layer

variable (dockerTypeLayer ociTypeLayer : String)

/-- The media types `find_layer_blobid` takes for the commit's layer:
`DOCKER_TYPE_LAYER | OCI_TYPE_LAYER`. -/
def isLayerType (mediaType : String) : Bool :=
  mediaType == dockerTypeLayer || mediaType == ociTypeLayer

/-- `find_layer_blobid`. -/
def findLayerBlobid (manifest : Manifest) : Except String String :=
  let layers := manifest.layers.filter fun layer =>
    isLayerType dockerTypeLayer ociTypeLayer layer.mediaType
  let n := layers.length
  match layers with
  | layer :: _ =>
    if n > 1 then .error ("Expected 1 layer, found " ++ toString n)
    else
      let digest := layer.digest
      match strStripPrefix digest "sha256:" with
      | some hash => .ok hash
      | none => .error ("Expected sha256: in digest: " ++ digest)
  | [] => .error ("No layers found (orig: " ++ toString manifest.layers.length ++ ")")

/-- The layers of a manifest of the two media types. -/
def eligibleLayers (manifest : Manifest) : List Descriptor :=
  manifest.layers.filter fun layer => isLayerType dockerTypeLayer ociTypeLayer layer.mediaType

/-- `find_layer_blobid` by the number of layers of the two types: none, one, or more. -/
theorem findLayerBlobid_eq (manifest : Manifest) :
    findLayerBlobid dockerTypeLayer ociTypeLayer manifest =
      match eligibleLayers dockerTypeLayer ociTypeLayer manifest with
      | [] => .error ("No layers found (orig: " ++ toString manifest.layers.length ++ ")")
      | [layer] =>
        match strStripPrefix layer.digest "sha256:" with
        | some hash => .ok hash
        | none => .error ("Expected sha256: in digest: " ++ layer.digest)
      | layers => .error ("Expected 1 layer, found " ++ toString layers.length) := by
  unfold findLayerBlobid eligibleLayers
  rcases manifest.layers.filter _ with _ | ⟨layer, _ | ⟨other, rest⟩⟩
  · rfl
  · rfl
  · simp

/-- `isLayerType` is membership in the two media types. -/
theorem isLayerType_iff (mediaType : String) :
    isLayerType dockerTypeLayer ociTypeLayer mediaType = true ↔
      mediaType = dockerTypeLayer ∨ mediaType = ociTypeLayer := by
  simp [isLayerType]

theorem eligibleLayers_eq (manifest : Manifest) :
    eligibleLayers dockerTypeLayer ociTypeLayer manifest = manifest.layers.filter fun layer =>
      layer.mediaType = dockerTypeLayer ∨ layer.mediaType = ociTypeLayer :=
  List.filter_congr fun layer _ => by rw [Bool.eq_iff_iff, isLayerType_iff, decide_eq_true_iff]

/-- `find_layer_blobid` returns `h` exactly when one layer of the manifest has one of the two
media types and its digest is `sha256:` then `h`.  It fails, with the error the code gives, when
no layer or several layers have those types, or when the one layer's digest is not a SHA-256
one. -/
theorem findLayerBlobid_spec (manifest : Manifest) :
    (∀ h, findLayerBlobid dockerTypeLayer ociTypeLayer manifest = .ok h ↔
      ∃ layer, (manifest.layers.filter fun l =>
          l.mediaType = dockerTypeLayer ∨ l.mediaType = ociTypeLayer) = [layer] ∧
        layer.digest = "sha256:" ++ h) ∧
    ((∀ l ∈ manifest.layers, l.mediaType ≠ dockerTypeLayer ∧ l.mediaType ≠ ociTypeLayer) →
      findLayerBlobid dockerTypeLayer ociTypeLayer manifest =
        .error ("No layers found (orig: " ++ toString manifest.layers.length ++ ")")) ∧
    (1 < (manifest.layers.filter fun l =>
        l.mediaType = dockerTypeLayer ∨ l.mediaType = ociTypeLayer).length →
      findLayerBlobid dockerTypeLayer ociTypeLayer manifest =
        .error ("Expected 1 layer, found " ++ toString (manifest.layers.filter fun l =>
          l.mediaType = dockerTypeLayer ∨ l.mediaType = ociTypeLayer).length)) ∧
    (∀ layer, (manifest.layers.filter fun l =>
        l.mediaType = dockerTypeLayer ∨ l.mediaType = ociTypeLayer) = [layer] →
      (∀ h, layer.digest ≠ "sha256:" ++ h) →
      findLayerBlobid dockerTypeLayer ociTypeLayer manifest =
        .error ("Expected sha256: in digest: " ++ layer.digest)) := by
  have hnone : (∀ l ∈ manifest.layers, l.mediaType ≠ dockerTypeLayer ∧ l.mediaType ≠ ociTypeLayer) ↔
      eligibleLayers dockerTypeLayer ociTypeLayer manifest = [] := by
    simp [eligibleLayers_eq, List.filter_eq_nil_iff, not_or]
  rw [hnone, ← eligibleLayers_eq, findLayerBlobid_eq]
  rcases eligibleLayers dockerTypeLayer ociTypeLayer manifest with _ | ⟨layer, _ | ⟨other, rest⟩⟩
  · simp
  · simp only [List.cons.injEq, and_true, exists_eq_left', forall_eq', List.length_singleton,
      Nat.lt_irrefl, false_imp_iff, true_and, reduceCtorEq, imp_false]
    rcases hs : strStripPrefix layer.digest "sha256:" with _ | hash
    · have hn : ∀ h, layer.digest ≠ "sha256:" ++ h := fun h hd => by
        rw [strStripPrefix_eq_some.mpr hd] at hs; cases hs
      exact ⟨fun h => by simp [hn h], fun _ => rfl⟩
    · refine ⟨fun h => ?_, fun hn => absurd (strStripPrefix_eq_some.mp hs) (hn hash)⟩
      rw [← strStripPrefix_eq_some, hs, Option.some.injEq, Except.ok.injEq]
  · simp

end Layer

end OstreeTar
