import OstreeTar.Import.Progress

/-!
# The progress reader in a release build

`ProgressReader::poll_read` checks its arithmetic twice in a debug build: `debug_assert!(newlen >=
len)`, and the overflow check of `state.processed_bytes += read`.  A release build compiles both
out: `newlen - len` wraps as a `usize`, taken here 64 bits wide so that `as u64` keeps it, and `+=`
wraps as a `u64`.  `Release.pollRead` is the poll as a release build runs it.

A release build never panics, returns what the inner reader returned, and counts the bytes modulo
`2^64`.
-/

namespace OstreeTar

theorem ofNat_sub_ofNat {a b : Nat} (h : b ≤ a) :
    UInt64.ofNat a - UInt64.ofNat b = UInt64.ofNat (a - b) := by
  apply UInt64.eq_of_toBitVec_eq
  show BitVec.ofNat 64 a - BitVec.ofNat 64 b = BitVec.ofNat 64 (a - b)
  apply BitVec.eq_of_toNat_eq
  simp only [BitVec.toNat_sub, BitVec.toNat_ofNat]
  omega

theorem toNat_add_ofNat_mod (a : UInt64) (n : Nat) :
    (a + UInt64.ofNat n).toNat = (a.toNat + n) % UInt64.size := by
  show (a.toBitVec + (UInt64.ofNat n).toBitVec).toNat = _
  rw [BitVec.toNat_add]
  show (a.toNat + (BitVec.ofNat 64 n).toNat) % 2 ^ 64 = _
  rw [BitVec.toNat_ofNat]
  show _ = (a.toNat + n) % 2 ^ 64
  omega

namespace Release

/-- `ProgressReader::poll_read` in a release build: the `debug_assert!` and the overflow check of
`+=` are gone, and the subtraction and the sum wrap. -/
def pollRead (connected : Bool) (st : ProgressWorld) (buf : Bytes) (inner : InnerPoll) :
    PollRead × Bytes × ProgressWorld :=
  let len := buf.length
  match inner.result with
  | .readyOk =>
    if st.progress then
      let state := st.watch.value
      let newlen := inner.filled.length
      let read := UInt64.ofNat newlen - UInt64.ofNat len
      let (success, watch) :=
        st.watch.send connected { state with processedBytes := state.processedBytes + read }
      (.readyOk, inner.filled, { progress := success, watch })
    else (.readyOk, inner.filled, st)
  | o => (o, inner.filled, st)

/-- `pollReads` in a release build. -/
def pollReads (dropAt : Option Nat) : Nat → ProgressWorld → List PollStep →
    List (PollRead × Bytes) × ProgressWorld
  | _, st, [] => ([], st)
  | i, st, p :: ps =>
    let (r, filled, st) := pollRead (connectedAt dropAt i) st p.before p.inner
    let (rs, st) := pollReads dropAt (i + 1) st ps
    ((r, filled) :: rs, st)

/-- A poll whose read does not shrink the buffer returns what the inner reader returned, and
leaves the world a poll that does not panic leaves, whatever the sum. -/
theorem pollRead_eq (connected : Bool) (st : ProgressWorld) (p : PollStep)
    (hgrow : p.inner.result = .readyOk → p.before.length ≤ p.inner.filled.length) :
    pollRead connected st p.before p.inner =
      (p.inner.result, p.inner.filled, afterPoll connected st p) := by
  rcases p with ⟨before, _ | _ | _, filled⟩
  · rfl
  · cases hp : st.progress
    · simp [pollRead, afterPoll, hp]
    · simp only [pollRead, afterPoll, hp, if_true, PollStep.filledBytes,
        ofNat_sub_ofNat (hgrow rfl)]
      rfl
  · rfl

theorem pollReads_eq (dropAt : Option Nat) : ∀ (i : Nat) (st : ProgressWorld) (steps : List PollStep),
    (∀ p ∈ steps, p.inner.result = .readyOk → p.before.length ≤ p.inner.filled.length) →
    pollReads dropAt i st steps = (steps.map PollStep.returned, afterPolls dropAt i st steps)
  | _, _, [], _ => rfl
  | i, st, p :: ps, hgrow => by
    simp only [pollReads, pollRead_eq _ st p (hgrow p (List.mem_cons_self _ _)),
      pollReads_eq dropAt (i + 1) _ ps fun q hq => hgrow q (List.mem_cons_of_mem _ hq)]
    rfl

end Release

/-- With a receiver at every poll, the reader keeps the sender, and the channel's value and every
send carry the running total modulo `2^64`, from any `n` the value stands for. -/
theorem afterPolls_connected_mod (dropAt : Option Nat) :
    ∀ (i : Nat) (st : ProgressWorld) (steps : List PollStep) (n : Nat), st.progress = true →
    st.watch.value.processedBytes.toNat = n % UInt64.size →
    (∀ j < steps.length, connectedAt dropAt (i + j) = true) →
    (afterPolls dropAt i st steps).progress = true ∧
    (afterPolls dropAt i st steps).watch.value.processedBytes.toNat =
      (n + totalFilled steps) % UInt64.size ∧
    (afterPolls dropAt i st steps).watch.ledger =
      st.watch.ledger ++ (runningTotals n steps).map fun m => (m % UInt64.size, true)
  | _, st, [], _, hp, hv, _ => by simp [afterPolls, runningTotals, hp, hv]
  | i, st, p :: ps, n, hp, hv, hconn => by
    have hc : connectedAt dropAt i = true := by simpa using hconn 0 (by simp)
    have hconn' : ∀ j < ps.length, connectedAt dropAt (i + 1 + j) = true := fun j hj => by
      simpa [Nat.add_assoc, Nat.add_comm 1 j] using hconn (j + 1) (by simp; omega)
    simp only [afterPolls, totalFilled_cons, hc]
    by_cases hr : p.inner.result = .readyOk
    · rcases p with ⟨before, result, filled⟩
      cases hr
      have hsum : (st.watch.value.processedBytes + UInt64.ofNat (filled.length - before.length)).toNat
          = (n + (filled.length - before.length)) % UInt64.size := by
        rw [toNat_add_ofNat_mod, hv, Nat.mod_add_mod]
      obtain ⟨h₁, h₂, h₃⟩ := afterPolls_connected_mod dropAt (i + 1)
        (afterPoll true st ⟨before, ⟨.readyOk, filled⟩⟩) ps (n + (filled.length - before.length))
        (by simp [afterPoll, hp]) (by simp [afterPoll, hp, Watch.send, PollStep.filledBytes, hsum])
        hconn'
      refine ⟨h₁, by rw [h₂, Nat.add_assoc]; rfl, ?_⟩
      rw [h₃, runningTotals_cons_readyOk rfl]
      simp [afterPoll, hp, Watch.send, Watch.ledger, PollStep.filledBytes, hsum]
    · have he : afterPoll true st p = st := by
        unfold afterPoll; split
        · next h => exact absurd h hr
        · rfl
      rw [he, runningTotals_cons_of_ne hr, filledBytes_of_ne hr, Nat.zero_add]
      exact afterPolls_connected_mod dropAt (i + 1) st ps n hp hv hconn'

/-- A release build's `ProgressReader`, over any polls that do not shrink the buffer, from any
channel value, whenever every receiver goes: no poll panics, each returns what the inner reader
returned, and while a receiver is there at every poll the channel's value is the initial one plus
every byte delivered modulo `2^64`, and the sends are the running totals modulo `2^64`, each
delivered. -/
theorem progressReader_release_polls (v0 : UInt64) (dropAt : Option Nat) (steps : List PollStep)
    (hgrow : ∀ p ∈ steps, p.inner.result = .readyOk → p.before.length ≤ p.inner.filled.length) :
    ∃ st, Release.pollReads dropAt 0 (.start v0) steps = (steps.map PollStep.returned, st) ∧
      ((∀ i < steps.length, connectedAt dropAt i = true) →
        st.watch.value.processedBytes.toNat = (v0.toNat + totalFilled steps) % UInt64.size ∧
        st.watch.ledger = (runningTotals v0.toNat steps).map fun n => (n % UInt64.size, true)) := by
  refine ⟨_, Release.pollReads_eq dropAt 0 _ steps hgrow, fun hconn => ?_⟩
  obtain ⟨-, hv, hl⟩ := afterPolls_connected_mod dropAt 0 (.start v0) steps v0.toNat rfl
    (Nat.mod_eq_of_lt v0.toNat_lt_size).symm (by simpa using hconn)
  exact ⟨hv, by simpa [ProgressWorld.start, Watch.ledger] using hl⟩

/-- From `u64::MAX`, a release build's read of two bytes publishes `1`. -/
theorem progressReader_release_polls_wraps :
    ∃ st, Release.pollReads none 0 (.start (UInt64.ofNat (UInt64.size - 1)))
        [⟨[], ⟨.readyOk, [0, 0]⟩⟩] = ([(.readyOk, [0, 0])], st) ∧
      st.watch.value.processedBytes.toNat = 1 :=
  (progressReader_release_polls _ none _ (by decide)).imp fun _ h => ⟨h.1, (h.2 fun _ _ => rfl).1⟩

end OstreeTar
