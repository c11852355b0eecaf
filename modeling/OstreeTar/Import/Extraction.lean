import OstreeTar.Import.FindLayer
import OstreeTar.Run

/-!
# What the layer extractor forwards

The worker forwards exactly one entry: the first regular entry whose path has extension `tar`,
reached once every entry before it passed the checks.  What reaches the channel is an initial
segment of that entry's reads, and nothing after them; a dropped receiver ends the loop without
an error, and the archive is then read to its end.
-/

namespace OstreeTar

/-! ## The chunk loop -/

/-- The first two characters of an error message, which tell the messages apart. -/
theorem take_two_append {a : String} (b : String) (h : 2 ≤ a.data.length) :
    (a ++ b).data.take 2 = a.data.take 2 := by
  simp [List.take_append_of_le_length h]

theorem blockingSend_open {chunk : Bytes} {ch : Channel} (h : ch.receiverOpen) :
    blockingSend chunk ch =
      .ok true { ch with delivered := ch.delivered ++ [chunk], sends := ch.sends + 1 } := by
  simp [blockingSend, h]

theorem blockingSend_dropped {chunk : Bytes} {ch : Channel} (h : ¬ ch.receiverOpen) :
    blockingSend chunk ch = .ok false { ch with sends := ch.sends + 1 } := by
  simp [blockingSend, h]

theorem forwardChunks_cons_open {c : Bytes} {cs : List Bytes} {ending : Except String Unit}
    {ch : Channel} (h : ch.receiverOpen) :
    forwardChunks (c :: cs) ending ch =
      forwardChunks cs ending { ch with delivered := ch.delivered ++ [c], sends := ch.sends + 1 } := by
  rw [forwardChunks, run_bind_ok (blockingSend_open h)]; rfl

theorem forwardChunks_cons_dropped {c : Bytes} {cs : List Bytes} {ending : Except String Unit}
    {ch : Channel} (h : ¬ ch.receiverOpen) :
    forwardChunks (c :: cs) ending ch = .ok () { ch with sends := ch.sends + 1 } := by
  rw [forwardChunks, run_bind_ok (blockingSend_dropped h)]; rfl

theorem forwardChunks_nil_ok (ch : Channel) :
    forwardChunks [] (.ok ()) ch = .ok () (finalState (blockingSend [] ch)) := by
  rw [forwardChunks]
  by_cases h : ch.receiverOpen
  · rw [run_bind_ok (blockingSend_open h)]; simp [blockingSend, h]
  · rw [run_bind_ok (blockingSend_dropped h)]; simp [blockingSend, h]

/-- With the receiver never dropped, every chunk and the empty end-of-file chunk are delivered. -/
theorem forwardChunks_never_dropped (chunks : List Bytes) (ch : Channel) (h : ch.dropAt = none) :
    forwardChunks chunks (.ok ()) ch =
      .ok () { ch with delivered := ch.delivered ++ chunks ++ [[]],
                       sends := ch.sends + chunks.length + 1 } := by
  have hopen : ∀ ch' : Channel, ch'.dropAt = none → ch'.receiverOpen := by
    intro ch' h'; simp [Channel.receiverOpen, h']
  induction chunks generalizing ch with
  | nil => rw [forwardChunks_nil_ok]; simp [blockingSend, hopen ch h]
  | cons c cs ih =>
    rw [forwardChunks_cons_open (hopen ch h),
      ih { ch with delivered := ch.delivered ++ [c], sends := ch.sends + 1 } h]
    simp only [List.append_assoc, List.singleton_append, List.length_cons, List.cons_append]
    congr 2
    omega

/-- With the receiver never dropped, the loop succeeds only when the reads end well. -/
theorem forwardChunks_ending_of_ok {chunks : List Bytes} {ending : Except String Unit}
    {ch ch' : Channel} (hnd : ch.dropAt = none) (h : forwardChunks chunks ending ch = .ok () ch') :
    ending = .ok () := by
  induction chunks generalizing ch with
  | nil => cases ending with
    | ok u => rfl
    | error e => simp [forwardChunks] at h
  | cons c cs ih =>
    rw [forwardChunks_cons_open (by simp [Channel.receiverOpen, hnd])] at h
    refine ih ?_ h
    exact hnd

/-- The loop's only error is a read error. -/
theorem forwardChunks_error_message {chunks : List Bytes} {ending : Except String Unit}
    {ch ch' : Channel} {m : String} (h : forwardChunks chunks ending ch = .error m ch') :
    m.data.take 2 ≠ ['F', 'a'] := by
  induction chunks generalizing ch with
  | nil => cases ending with
    | ok u => rw [forwardChunks_nil_ok] at h; cases h
    | error e =>
      simp only [forwardChunks, run_throw, EStateM.Result.error.injEq] at h
      rw [← h.1, take_two_append _ (by decide)]; decide
  | cons c cs ih =>
    by_cases hop : ch.receiverOpen
    · rw [forwardChunks_cons_open hop] at h; exact ih h
    · simp [forwardChunks_cons_dropped hop] at h

/-! ## One entry -/

/-- A regular entry whose path has extension `tar`: what the worker forwards. -/
def IsLayerTar (e : ArchiveEntry) : Prop :=
  e.entryType = .regular ∧ ∃ p, e.path = .utf8 p ∧ Utf8Path.extension (Utf8Path.new p) = some "tar"

/-- The checks the worker makes on an entry before the layer: its path is UTF-8, and the
`layer.tar` link, if that is what it is, points at the expected target (compared as paths). -/
def PassesCheck (target : String) (e : ArchiveEntry) : Prop :=
  ∃ p, e.path = .utf8 p ∧
    (e.entryType = .symlink → Utf8Path.extension (Utf8Path.new p) = some "tar" →
      Utf8Path.fileName (Utf8Path.new p) = some "layer.tar" →
      ∃ t, e.linkName = some (.utf8 t) ∧ Utf8Path.new t = Utf8Path.new target)

theorem scanEntry_found (t : String) (e : ArchiveEntry) (ch : Channel) :
    scanEntry t true (.ok e) ch = .ok true ch := rfl

theorem scanEntry_error (t : String) (found : Bool) (m : String) (ch : Channel) :
    scanEntry t found (.error m) ch = .error ("Reading entry: " ++ m) ch := rfl

/-- Before the layer is found, a regular `.tar` entry is forwarded. -/
theorem scanEntry_layer {t : String} {e : ArchiveEntry} (h : IsLayerTar e) (ch : Channel) :
    scanEntry t false (.ok e) ch = (forwardChunks e.reads.chunks e.reads.ending >>= fun _ => pure true) ch := by
  obtain ⟨hr, p, hp, hx⟩ := h
  simp [scanEntry, hp, hx, hr]

/-- Before the layer is found, any other entry leaves the channel alone: it passes the checks and
the scan goes on, or it fails them with an error other than the missing layer's. -/
theorem scanEntry_other {t : String} {e : ArchiveEntry} (h : ¬ IsLayerTar e) (ch : Channel) :
    (PassesCheck t e ∧ scanEntry t false (.ok e) ch = .ok false ch) ∨
    (¬ PassesCheck t e ∧
      ∃ m, scanEntry t false (.ok e) ch = .error m ch ∧ m.data.take 2 ≠ ['F', 'a']) := by
  cases hpath : e.path with
  | nonUtf8 =>
    exact .inr ⟨by simp [PassesCheck, hpath], "Invalid non-utf8 path", by simp [scanEntry, hpath],
      by decide⟩
  | utf8 p =>
    by_cases hx : Utf8Path.extension (Utf8Path.new p) = some "tar"
    · cases hty : e.entryType with
      | regular => exact absurd ⟨hty, p, hpath, hx⟩ h
      | symlink =>
        by_cases hf : Utf8Path.fileName (Utf8Path.new p) = some "layer.tar"
        · cases hl : e.linkName with
          | none =>
            refine .inr ⟨by simp [PassesCheck, hpath, hty, hx, hf, hl], "Invalid link " ++ p,
              by simp [scanEntry, hpath, hx, hty, hf, hl], ?_⟩
            rw [take_two_append _ (by decide)]; decide
          | some l =>
            cases l with
            | nonUtf8 =>
              exact .inr ⟨by simp [PassesCheck, hpath, hty, hx, hf, hl], "Invalid non-UTF8 path",
                by simp [scanEntry, hpath, hx, hty, hf, hl], by decide⟩
            | utf8 l =>
              by_cases heq : Utf8Path.new l = Utf8Path.new t
              · exact .inl ⟨⟨p, hpath, fun _ _ _ => ⟨l, hl, heq⟩⟩,
                  by simp [scanEntry, hpath, hx, hty, hf, hl, heq]⟩
              · refine .inr ⟨by simp [PassesCheck, hpath, hty, hx, hf, hl, heq],
                  "Found unexpected layer link " ++ p ++ " -> " ++ l,
                  by simp [scanEntry, hpath, hx, hty, hf, hl, heq], ?_⟩
                simp only [String.append_assoc]
                rw [take_two_append _ (by decide)]; decide
        · exact .inl ⟨⟨p, hpath, fun _ _ hf' => absurd hf' hf⟩,
            by simp [scanEntry, hpath, hx, hty, hf]⟩
      | link | directory | other =>
        exact .inl ⟨⟨p, hpath, by simp [hty]⟩, by simp [scanEntry, hpath, hx, hty]⟩
    · exact .inl ⟨⟨p, hpath, fun _ hx' => absurd hx' hx⟩, by simp [scanEntry, hpath, hx]⟩

/-- An entry that passes the checks and is not a layer lets the scan go on. -/
theorem scanEntry_pass {t : String} {e : ArchiveEntry} (hl : ¬ IsLayerTar e) (hp : PassesCheck t e)
    (ch : Channel) : scanEntry t false (.ok e) ch = .ok false ch :=
  ((scanEntry_other hl ch).resolve_right fun h => h.1 hp).2

/-- An entry that fails the checks ends the scan with an error other than the missing layer's. -/
theorem scanEntry_fail {t : String} {e : ArchiveEntry} (hl : ¬ IsLayerTar e)
    (hp : ¬ PassesCheck t e) (ch : Channel) :
    ∃ m, scanEntry t false (.ok e) ch = .error m ch ∧ m.data.take 2 ≠ ['F', 'a'] :=
  ((scanEntry_other hl ch).resolve_left fun h => hp h.1).2

/-! ## The loop over entries -/

/-- The scan reaches `e` as the first layer: every item before it is an entry that passes the
checks and is not a layer, and `rest` follows it. -/
inductive ReachesLayer (t : String) :
    List (Except String ArchiveEntry) → ArchiveEntry → List (Except String ArchiveEntry) → Prop
  | here {e : ArchiveEntry} {rest : List (Except String ArchiveEntry)} :
      IsLayerTar e → ReachesLayer t (.ok e :: rest) e rest
  | skip {e e' : ArchiveEntry} {entries rest : List (Except String ArchiveEntry)} :
      ¬ IsLayerTar e → PassesCheck t e → ReachesLayer t entries e' rest →
      ReachesLayer t (.ok e :: entries) e' rest

/-- Every item is an entry that passes the checks and is not a layer: the scan goes through the
whole archive without finding one. -/
def NoLayer (t : String) (entries : List (Except String ArchiveEntry)) : Prop :=
  ∀ x ∈ entries, ∃ e, x = .ok e ∧ PassesCheck t e ∧ ¬ IsLayerTar e

@[simp] theorem noLayer_nil (t : String) : NoLayer t [] := by simp [NoLayer]

@[simp] theorem noLayer_cons_ok (t : String) (e : ArchiveEntry)
    (entries : List (Except String ArchiveEntry)) :
    NoLayer t (.ok e :: entries) ↔ (PassesCheck t e ∧ ¬ IsLayerTar e) ∧ NoLayer t entries := by
  simp [NoLayer]

@[simp] theorem noLayer_cons_error (t m : String) (entries : List (Except String ArchiveEntry)) :
    ¬ NoLayer t (.error m :: entries) := by
  simp [NoLayer]

/-- Where the layer sits in the archive. -/
theorem ReachesLayer.split {t : String} {entries rest : List (Except String ArchiveEntry)}
    {e : ArchiveEntry} (h : ReachesLayer t entries e rest) :
    IsLayerTar e ∧ ∃ pre, entries = pre ++ .ok e :: rest ∧ NoLayer t pre := by
  induction h with
  | here hl => exact ⟨hl, [], rfl, noLayer_nil t⟩
  | @skip e _ _ _ hl hp _ ih =>
    obtain ⟨hle, pre, rfl, hpre⟩ := ih
    exact ⟨hle, .ok e :: pre, rfl, by simp [hl, hp, hpre]⟩

/-- Once the layer is found the rest of the archive is read to its end without touching the
channel: the scan ends well exactly when every remaining item is an entry. -/
theorem foldlM_found (t : String) (rest : List (Except String ArchiveEntry)) (ch : Channel) :
    ((∀ x ∈ rest, ∃ e, x = .ok e) ∧ rest.foldlM (scanEntry t) true ch = .ok true ch) ∨
    ((¬ ∀ x ∈ rest, ∃ e, x = .ok e) ∧
      ∃ m, rest.foldlM (scanEntry t) true ch = .error m ch ∧ m.data.take 2 ≠ ['F', 'a']) := by
  induction rest with
  | nil => simp
  | cons x rest ih =>
    rw [List.foldlM_cons]
    cases x with
    | error m =>
      refine .inr ⟨fun h => ?_, _, run_bind_error (scanEntry_error t true m ch), ?_⟩
      · obtain ⟨e, he⟩ := h _ (List.mem_cons_self _ _); cases he
      · rw [take_two_append _ (by decide)]; decide
    | ok e => simpa [run_bind_ok (scanEntry_found t e ch)] using ih

/-- Up to the layer the channel is untouched; from there the run is the chunk loop's, followed by
the rest of the archive. -/
theorem foldlM_of_reachesLayer {t : String} {entries rest : List (Except String ArchiveEntry)}
    {e : ArchiveEntry} (h : ReachesLayer t entries e rest) (ch : Channel) :
    entries.foldlM (scanEntry t) false ch =
      match forwardChunks e.reads.chunks e.reads.ending ch with
      | .ok _ c => rest.foldlM (scanEntry t) true c
      | .error m c => .error m c := by
  induction h with
  | here hl =>
    rw [List.foldlM_cons, run_bind, scanEntry_layer hl, run_bind]
    cases forwardChunks _ _ ch <;> rfl
  | skip hl hp _ ih => rw [List.foldlM_cons, run_bind_ok (scanEntry_pass hl hp ch), ih]

/-- A scan that reaches no layer leaves the channel alone: it ends with `found` false when every
item passes, and with another error otherwise. -/
theorem foldlM_unreached {t : String} {entries : List (Except String ArchiveEntry)}
    (h : ¬ ∃ e rest, ReachesLayer t entries e rest) (ch : Channel) :
    (NoLayer t entries ∧ entries.foldlM (scanEntry t) false ch = .ok false ch) ∨
    (¬ NoLayer t entries ∧
      ∃ m, entries.foldlM (scanEntry t) false ch = .error m ch ∧ m.data.take 2 ≠ ['F', 'a']) := by
  induction entries with
  | nil => simp
  | cons x entries ih =>
    rw [List.foldlM_cons]
    cases x with
    | error m =>
      refine .inr ⟨noLayer_cons_error t m entries, _,
        run_bind_error (scanEntry_error t false m ch), ?_⟩
      rw [take_two_append _ (by decide)]; decide
    | ok e =>
      by_cases hl : IsLayerTar e
      · exact absurd ⟨e, entries, .here hl⟩ h
      by_cases hp : PassesCheck t e
      · rw [run_bind_ok (scanEntry_pass hl hp ch)]
        simpa [hl, hp] using ih fun ⟨e', rest, hr⟩ => h ⟨e', rest, .skip hl hp hr⟩
      · obtain ⟨m, hm, hne⟩ := scanEntry_fail hl hp ch
        exact .inr ⟨by simp [hp], m, run_bind_error hm, hne⟩

/-- `find_layer_tar_sync` as a function of the scan. -/
theorem findLayerTarSync_run (entries : List (Except String ArchiveEntry)) (t : String)
    (ch : Channel) :
    findLayerTarSync entries t ch =
      match entries.foldlM (scanEntry t) false ch with
      | .ok true c => .ok () c
      | .ok false c => .error ("Failed to find layer " ++ t) c
      | .error m c => .error m c := by
  rw [findLayerTarSync, run_bind]
  cases entries.foldlM (scanEntry t) false ch with
  | ok b c => cases b <;> rfl
  | error m c => rfl

/-- Once the layer is reached the channel ends as the chunk loop leaves it; the run succeeds
exactly when the loop does and every later item is an entry, and never fails for a missing
layer. -/
theorem findLayerTarSync_of_reachesLayer {t : String}
    {entries rest : List (Except String ArchiveEntry)} {e : ArchiveEntry}
    (h : ReachesLayer t entries e rest) (ch : Channel) :
    finalState (findLayerTarSync entries t ch) =
        finalState (forwardChunks e.reads.chunks e.reads.ending ch) ∧
      ((∃ c, findLayerTarSync entries t ch = .ok () c) ↔
        (∃ c, forwardChunks e.reads.chunks e.reads.ending ch = .ok () c) ∧
          ∀ x ∈ rest, ∃ e', x = .ok e') ∧
      ∀ m c, findLayerTarSync entries t ch = .error m c → m.data.take 2 ≠ ['F', 'a'] := by
  rw [findLayerTarSync_run, foldlM_of_reachesLayer h]
  cases hf : forwardChunks e.reads.chunks e.reads.ending ch with
  | error m c => simpa using forwardChunks_error_message hf
  | ok u c =>
    rcases foldlM_found t rest c with ⟨hall, hr⟩ | ⟨hall, m, hr, hne⟩
    · simp only [hr]; simpa using hall
    · simp [hr, hall, hne]

/-- A run that reaches no layer leaves the channel alone, and fails: for the missing layer when
every item passed, and with another error otherwise. -/
theorem findLayerTarSync_unreached {t : String} {entries : List (Except String ArchiveEntry)}
    (h : ¬ ∃ e rest, ReachesLayer t entries e rest) (ch : Channel) :
    (NoLayer t entries ∧ findLayerTarSync entries t ch = .error ("Failed to find layer " ++ t) ch) ∨
    (¬ NoLayer t entries ∧
      ∃ m, findLayerTarSync entries t ch = .error m ch ∧ m.data.take 2 ≠ ['F', 'a']) := by
  rw [findLayerTarSync_run]
  rcases foldlM_unreached h ch with ⟨hn, hr⟩ | ⟨hn, m, hr, hne⟩
  · simp [hn, hr]
  · simp [hn, hr, hne]

/-- A one-byte regular entry `abc.tar`: the layer the link of blob `abc` names. -/
def expectedLayerEntry : ArchiveEntry :=
  ⟨.utf8 "abc.tar", .regular, none, ⟨[[1]], by decide, .ok ()⟩⟩

/-- A run that ends well with the receiver never dropped forwarded the whole of the archive's
first regular `.tar` entry, whatever its name. -/
theorem findLayerTarSync_ok_forwards_first_layer (entries : List (Except String ArchiveEntry))
    (t : String) (c : Channel) (h : findLayerTarSync entries t (Channel.new none) = .ok () c) :
    ∃ pre e rest, entries = pre ++ .ok e :: rest ∧ IsLayerTar e ∧ NoLayer t pre ∧
      c.delivered.flatten = e.reads.contents := by
  by_cases hu : ∃ e rest, ReachesLayer t entries e rest
  · obtain ⟨e, rest, hr⟩ := hu
    obtain ⟨hl, pre, hent, hpre⟩ := hr.split
    obtain ⟨hfin, hok, -⟩ := findLayerTarSync_of_reachesLayer hr (Channel.new none)
    obtain ⟨⟨c', hc'⟩, -⟩ := hok.1 ⟨c, h⟩
    have hend := forwardChunks_ending_of_ok rfl hc'
    rw [h, hend, forwardChunks_never_dropped _ _ rfl, finalState_ok, finalState_ok] at hfin
    refine ⟨pre, e, rest, hent, hl, hpre, ?_⟩
    simp [hfin, Channel.new, EntryReads.contents]
  · rcases findLayerTarSync_unreached hu (Channel.new none) with ⟨-, hr⟩ | ⟨-, m, hr, -⟩ <;>
      simp [hr] at h

theorem findLayerTarSync_ok_forwards_first_layer_example :
    findLayerTarSync [.ok expectedLayerEntry] (blobSymlinkTarget "abc") (Channel.new none) =
        .ok () ⟨[[1], []], 2, none⟩ ∧
      ∃ pre e rest, [Except.ok expectedLayerEntry] = pre ++ .ok e :: rest ∧ IsLayerTar e ∧
        NoLayer (blobSymlinkTarget "abc") pre ∧ [[(1 : UInt8)], []].flatten = e.reads.contents :=
  ⟨rfl, findLayerTarSync_ok_forwards_first_layer _ _ ⟨[[1], []], 2, none⟩ rfl⟩

/-- A one-byte regular entry `def.tar`: a layer, but not the one the link of blob `abc` names. -/
def otherLayerEntry : ArchiveEntry :=
  ⟨.utf8 "def.tar", .regular, none, ⟨[[1]], by decide, .ok ()⟩⟩

theorem findLayerTarSync_forwards_other_layer :
    findLayerTarSync [.ok otherLayerEntry] (blobSymlinkTarget "abc") (Channel.new none) =
        .ok () ⟨[[1], []], 2, none⟩ ∧
      Utf8Path.fileName (Utf8Path.new "def.tar") ≠ some "abc.tar" :=
  ⟨rfl, by decide⟩

/-! ## The `layer.tar` link -/

/-- A path whose file name is `layer.tar` has extension `tar`. -/
theorem extension_of_fileName_layer {p : Utf8PathBuf}
    (h : Utf8Path.fileName p = some "layer.tar") : Utf8Path.extension p = some "tar" := by
  rw [Utf8Path.extension, h]; rfl

/-- A `layer.tar` link with another target fails the checks. -/
theorem not_passesCheck_wrong_link {t p : String} {s : ArchiveEntry}
    (hsym : s.entryType = .symlink) (hpath : s.path = .utf8 p)
    (hname : Utf8Path.fileName (Utf8Path.new p) = some "layer.tar")
    (hwrong : ∀ target, s.linkName = some (.utf8 target) → Utf8Path.new target ≠ Utf8Path.new t) :
    ¬ PassesCheck t s := by
  rintro ⟨p', hp', hchk⟩
  rw [hpath] at hp'; cases hp'
  obtain ⟨target, hl, heq⟩ := hchk hsym (extension_of_fileName_layer hname) hname
  exact hwrong target hl heq

/-- The scan cannot get past an entry that fails the checks. -/
theorem not_reachesLayer_past {t : String} {pre post : List (Except String ArchiveEntry)}
    {s : ArchiveEntry} (hpre : ∀ x ∈ pre, ∀ e, x = .ok e → ¬ IsLayerTar e) (hs : ¬ IsLayerTar s)
    (hp : ¬ PassesCheck t s) : ¬ ∃ e rest, ReachesLayer t (pre ++ .ok s :: post) e rest := by
  induction pre with
  | nil =>
    rintro ⟨e, rest, hr⟩
    cases hr with
    | here hl => exact hs hl
    | skip _ hp' _ => exact hp hp'
  | cons x pre ih =>
    rintro ⟨e, rest, hr⟩
    cases hr with
    | here hl => exact hpre _ (List.mem_cons_self _ _) _ rfl hl
    | skip _ _ hr' => exact ih (fun y hy => hpre y (List.mem_cons_of_mem _ hy)) ⟨e, rest, hr'⟩

/-- A `layer.tar` link with the wrong target that comes before every regular `.tar` entry makes
the run fail. -/
theorem findLayerTarSync_rejects_wrong_link_before_layer
    (pre post : List (Except String ArchiveEntry)) (s : ArchiveEntry) (blobid p : String)
    (dropAt : Option Nat) (hpre : ∀ x ∈ pre, ∀ e, x = .ok e → ¬ IsLayerTar e)
    (hsym : s.entryType = .symlink) (hpath : s.path = .utf8 p)
    (hname : Utf8Path.fileName (Utf8Path.new p) = some "layer.tar")
    (hwrong : ∀ target, s.linkName = some (.utf8 target) →
      Utf8Path.new target ≠ Utf8Path.new (blobSymlinkTarget blobid)) :
    ∃ m c, findLayerTarSync (pre ++ .ok s :: post) (blobSymlinkTarget blobid) (Channel.new dropAt) =
      .error m c := by
  have hs : ¬ IsLayerTar s := fun ⟨hr, _⟩ => by rw [hsym] at hr; cases hr
  have hu : ¬ ∃ e rest, ReachesLayer _ (pre ++ .ok s :: post) e rest :=
    not_reachesLayer_past hpre hs (not_passesCheck_wrong_link hsym hpath hname hwrong)
  rcases findLayerTarSync_unreached hu (Channel.new dropAt) with ⟨-, hr⟩ | ⟨-, m, hr, -⟩
  · exact ⟨_, _, hr⟩
  · exact ⟨_, _, hr⟩

/-- A `layer.tar` link to another layer. -/
def wrongLinkEntry : ArchiveEntry :=
  ⟨.utf8 "layer.tar", .symlink, some (.utf8 "../def.tar"), ⟨[], by decide, .ok ()⟩⟩

theorem findLayerTarSync_rejects_wrong_link_example :
    ∃ m c, findLayerTarSync ([] ++ .ok wrongLinkEntry :: [.ok expectedLayerEntry])
      (blobSymlinkTarget "abc") (Channel.new none) = .error m c :=
  findLayerTarSync_rejects_wrong_link_before_layer [] [.ok expectedLayerEntry] wrongLinkEntry "abc"
    "layer.tar" none (by simp) rfl rfl (by decide) (by
      intro target h
      simp only [wrongLinkEntry, Option.some.injEq, RawName.utf8.injEq] at h
      subst h; decide)

theorem findLayerTarSync_ignores_wrong_link_after_layer :
    findLayerTarSync [.ok expectedLayerEntry, .ok wrongLinkEntry] (blobSymlinkTarget "abc")
        (Channel.new none) = .ok () ⟨[[1], []], 2, none⟩ ∧
      Utf8Path.new "../def.tar" ≠ Utf8Path.new (blobSymlinkTarget "abc") :=
  ⟨rfl, by decide⟩

end OstreeTar
