import OstreeTar.Tar

/-!
# Extracting the layer (`container/import.rs`)

`find_layer_tar_sync` runs on a blocking worker.  It walks the entries of the archive the
registry tool writes into the pipe, checks the `layer.tar` compatibility link, forwards the first
regular `.tar` entry to a bounded channel chunk by chunk, and reads the rest of the archive to
its end.

The archive is what `Archive::entries` yields: each item an entry, or the error that ends the
iteration.  An entry's data is given by what successive `read` calls into the 8192-byte buffer
return: chunks of 1 to 8192 bytes, then end of file or an error — every way the pipe may split
the data.  The consumer drops the receiver before some send, or never: the sends before it are
delivered, the later ones fail.  The reader `find_layer_tar_sync` hands back on success is not
modelled.
-/

namespace OstreeTar

/-- A name as the archive stores it, valid UTF-8 or not. -/
inductive RawName
  | utf8 (s : String)
  | nonUtf8
  deriving DecidableEq, Repr

/-- The size of the worker's buffer, `vec![0u8; 8192]`. -/
def chunkCapacity : Nat := 8192

/-- What successive `entry.read(&mut buf[..])` calls return for one entry. -/
structure EntryReads where
  chunks : List Bytes
  chunks_sized : ∀ c ∈ chunks, 0 < c.length ∧ c.length ≤ chunkCapacity
  ending : Except String Unit

/-- The data the reads deliver. -/
def EntryReads.contents (r : EntryReads) : Bytes := r.chunks.flatten

/-- An entry of the archive, with the fields the worker reads. -/
structure ArchiveEntry where
  path : RawName
  entryType : EntryType
  linkName : Option RawName
  reads : EntryReads

/-- The worker's end of the channel: the chunks the receiver got, the sends tried so far, and the
send before which the receiver is dropped, if it ever is. -/
structure Channel where
  delivered : List Bytes
  sends : Nat
  dropAt : Option Nat

/-- The receiver is still there at the next send. -/
def Channel.receiverOpen (ch : Channel) : Bool :=
  match ch.dropAt with
  | none => true
  | some k => decide (ch.sends < k)

/-- The channel before the first send. -/
def Channel.new (dropAt : Option Nat) : Channel := ⟨[], 0, dropAt⟩

/-- The worker's actions. -/
abbrev WorkerM := EStateM String Channel

/-- `tx_buf.blocking_send(Ok(chunk)).is_ok()`: delivered while the receiver is there. -/
def blockingSend (chunk : Bytes) : WorkerM Bool :=
  modifyGet fun ch =>
    if ch.receiverOpen then (true, { ch with delivered := ch.delivered ++ [chunk], sends := ch.sends + 1 })
    else (false, { ch with sends := ch.sends + 1 })

/-- The `Regular` arm's loop: send each chunk read, and the empty one read at end of file;
stop once a send fails or the data is done. -/
def forwardChunks : List Bytes → Except String Unit → WorkerM Unit
  | [], .ok () => do let _ ← blockingSend []; pure ()
  | [], .error e => throw ("Reading tar file contents: " ++ e)
  | chunk :: rest, ending => do
    if ← blockingSend chunk then forwardChunks rest ending else pure ()

/-- One turn of the loop over entries, given `found`; returns the new `found`. -/
def scanEntry (blobSymlinkTarget : String) (found : Bool) (item : Except String ArchiveEntry) :
    WorkerM Bool := do
  let entry ← match item with
    | .ok entry => pure entry
    | .error e => throw ("Reading entry: " ++ e)
  -- Continue to read to the end to avoid broken pipe error from skopeo.
  if found then pure true else
  let path ← match entry.path with
    | .utf8 path => pure path
    | .nonUtf8 => throw "Invalid non-utf8 path"
  let comps := Utf8Path.new path
  -- Skip anything unexpected, to be robust against changes in skopeo.
  if Utf8Path.extension comps ≠ some "tar" then pure false else
  match entry.entryType with
  | .symlink =>
    if Utf8Path.fileName comps = some "layer.tar" then do
      let target ← match entry.linkName with
        | some (.utf8 target) => pure target
        | some .nonUtf8 => throw "Invalid non-UTF8 path"
        | none => throw ("Invalid link " ++ path)
      if Utf8Path.new target ≠ Utf8Path.new blobSymlinkTarget then
        throw ("Found unexpected layer link " ++ path ++ " -> " ++ target)
      pure false
    else pure false
  | .regular => do
    forwardChunks entry.reads.chunks entry.reads.ending
    pure true
  | _ => pure false

/-- `find_layer_tar_sync`. -/
def findLayerTarSync (entries : List (Except String ArchiveEntry)) (blobSymlinkTarget : String) :
    WorkerM Unit := do
  let found ← entries.foldlM (scanEntry blobSymlinkTarget) false
  if found then pure () else throw ("Failed to find layer " ++ blobSymlinkTarget)

/-- The link `find_layer_tar` expects `layer.tar` to be: `format!("../{}.tar", blobid)`. -/
def blobSymlinkTarget (blobid : String) : String := "../" ++ blobid ++ ".tar"

end OstreeTar
