import OstreeTar.Tar

/-!
# Download progress (`container/import.rs`)

`ProgressReader` wraps the reader of the image's layer.  After each successful read it takes
the last value of a `watch` channel, adds the bytes the read filled, and sends the sum; once a
send fails, because every receiver is gone, it drops the sender.

A poll is modelled by the filled region of the caller's buffer on entry and what the inner
reader does: its result and the filled region after it.  The channel is seen from the sender:
its value, and a ledger of every `send` with the value it carried and whether a receiver got
it.  The receivers are there up to some poll and gone from it on, or never go.  A panic, from
`debug_assert!` or from the overflow check of `+=` in a debug build, is an error.
-/

namespace OstreeTar

/-- `ImportProgress`. -/
structure ImportProgress where
  processedBytes : UInt64
  deriving DecidableEq, Repr

/-- `Poll<io::Result<()>>`. -/
inductive PollRead
  | pending
  | readyOk
  | readyErr (e : String)
  deriving DecidableEq, Repr

/-- What the inner reader's `poll_read` does: its result, and the filled region of the caller's
buffer after it. -/
structure InnerPoll where
  result : PollRead
  filled : Bytes

/-- A `watch` channel seen from its sender: its value, and every `send` so far with the value
it carried and whether a receiver got it. -/
structure Watch where
  value : ImportProgress
  sends : List (ImportProgress × Bool)

/-- `watch::Sender::send`: with a receiver left the value is replaced; with none the send fails
and the value stays. -/
def Watch.send (w : Watch) (connected : Bool) (state : ImportProgress) : Bool × Watch :=
  (connected, { value := if connected then state else w.value,
                sends := w.sends ++ [(state, connected)] })

/-- The reader's `progress`, `Some` while it holds the sender, and the channel. -/
structure ProgressWorld where
  progress : Bool
  watch : Watch

/-- A reader holding the sender of a channel whose value is `v0`. -/
def ProgressWorld.start (v0 : UInt64) : ProgressWorld := ⟨true, ⟨⟨v0⟩, []⟩⟩

/-- `ProgressReader::poll_read`, given the filled region on entry, what the inner reader does,
and whether a receiver is left. -/
def pollRead (connected : Bool) (st : ProgressWorld) (buf : Bytes) (inner : InnerPoll) :
    Except String (PollRead × Bytes × ProgressWorld) :=
  let len := buf.length
  match inner.result with
  | .readyOk =>
    if st.progress then do
      let state := st.watch.value
      let newlen := inner.filled.length
      if newlen < len then throw "assertion failed: newlen >= len"
      let read := UInt64.ofNat (newlen - len)
      -- `+=` on a `u64` panics on overflow in a debug build.
      if UInt64.size ≤ state.processedBytes.toNat + read.toNat then
        throw "attempt to add with overflow"
      let (success, watch) :=
        st.watch.send connected { state with processedBytes := state.processedBytes + read }
      -- `if !success { self.progress.take(); }`
      pure (.readyOk, inner.filled, { progress := success, watch })
    else pure (.readyOk, inner.filled, st)
  | o => pure (o, inner.filled, st)

/-- A poll the caller makes: the filled region of its buffer, and what the inner reader does. -/
structure PollStep where
  before : Bytes
  inner : InnerPoll

/-- What the caller gets back: the inner reader's result and buffer. -/
def PollStep.returned (p : PollStep) : PollRead × Bytes := (p.inner.result, p.inner.filled)

/-- Whether a receiver is left at poll `i`, when every receiver goes at poll `dropAt`, if ever. -/
def connectedAt (dropAt : Option Nat) (i : Nat) : Bool :=
  match dropAt with
  | none => true
  | some k => decide (i < k)

/-- Polls `i`, `i + 1`, … of one `ProgressReader`: what each returns, and the world at the end. -/
def pollReads (dropAt : Option Nat) : Nat → ProgressWorld → List PollStep →
    Except String (List (PollRead × Bytes) × ProgressWorld)
  | _, st, [] => pure ([], st)
  | i, st, p :: ps => do
    let (r, filled, st) ← pollRead (connectedAt dropAt i) st p.before p.inner
    let (rs, st) ← pollReads dropAt (i + 1) st ps
    pure ((r, filled) :: rs, st)

/-! ## What the polls deliver -/

/-- The bytes a successful read delivers: by how much it grows the filled region. -/
def PollStep.filledBytes (p : PollStep) : Nat :=
  match p.inner.result with
  | .readyOk => p.inner.filled.length - p.before.length
  | _ => 0

/-- The bytes a sequence of polls delivers. -/
def totalFilled : List PollStep → Nat
  | [] => 0
  | p :: ps => p.filledBytes + totalFilled ps

/-- The totals an observer should see, one after each successful read: the initial value plus
every byte delivered so far. -/
def runningTotals (v0 : Nat) : List PollStep → List Nat
  | [] => []
  | p :: ps =>
    match p.inner.result with
    | .readyOk => (v0 + p.filledBytes) :: runningTotals (v0 + p.filledBytes) ps
    | _ => runningTotals v0 ps

@[simp] theorem totalFilled_nil : totalFilled [] = 0 := rfl

@[simp] theorem totalFilled_cons (p : PollStep) (ps : List PollStep) :
    totalFilled (p :: ps) = p.filledBytes + totalFilled ps := rfl

theorem filledBytes_of_ne {p : PollStep} (h : p.inner.result ≠ .readyOk) : p.filledBytes = 0 := by
  rw [PollStep.filledBytes]; split
  · next hr => exact absurd hr h
  · rfl

theorem runningTotals_cons_readyOk {p : PollStep} (h : p.inner.result = .readyOk) (v0 : Nat)
    (ps : List PollStep) :
    runningTotals v0 (p :: ps) = (v0 + p.filledBytes) :: runningTotals (v0 + p.filledBytes) ps := by
  simp only [runningTotals, h]

theorem runningTotals_cons_of_ne {p : PollStep} (h : p.inner.result ≠ .readyOk) (v0 : Nat)
    (ps : List PollStep) : runningTotals v0 (p :: ps) = runningTotals v0 ps := by
  rw [runningTotals]; split
  · next hr => exact absurd hr h
  · rfl

/-! ## One poll -/

/-- The world after a poll that does not panic. -/
def afterPoll (connected : Bool) (st : ProgressWorld) (p : PollStep) : ProgressWorld :=
  match p.inner.result with
  | .readyOk =>
    if st.progress then
      let state := { st.watch.value with
        processedBytes := st.watch.value.processedBytes + UInt64.ofNat p.filledBytes }
      { progress := connected, watch := (st.watch.send connected state).2 }
    else st
  | _ => st

theorem toNat_add_ofNat {a : UInt64} {n : Nat} (h : a.toNat + n < UInt64.size) :
    (a + UInt64.ofNat n).toNat = a.toNat + n := by
  have hn : (UInt64.ofNat n).toNat = n := UInt64.toNat_ofNat_of_lt (by omega)
  show (a.toBitVec + (UInt64.ofNat n).toBitVec).toNat = _
  rw [BitVec.toNat_add]
  change (a.toNat + (UInt64.ofNat n).toNat) % UInt64.size = _
  rw [hn, Nat.mod_eq_of_lt h]

/-- A poll whose read does not shrink the buffer, and whose sum fits, returns what the inner
reader returned. -/
theorem pollRead_eq (connected : Bool) (st : ProgressWorld) (p : PollStep)
    (hgrow : p.inner.result = .readyOk → p.before.length ≤ p.inner.filled.length)
    (hfit : st.progress = true → st.watch.value.processedBytes.toNat + p.filledBytes < UInt64.size) :
    pollRead connected st p.before p.inner =
      .ok (p.inner.result, p.inner.filled, afterPoll connected st p) := by
  rcases p with ⟨before, result, filled⟩
  unfold pollRead afterPoll
  cases result with
  | readyOk =>
    have hle := hgrow rfl
    cases hp : st.progress
    · rfl
    · have hfit' : st.watch.value.processedBytes.toNat + (filled.length - before.length) <
          UInt64.size := hfit hp
      have hread : (UInt64.ofNat (filled.length - before.length)).toNat =
          filled.length - before.length := UInt64.toNat_ofNat_of_lt (by omega)
      simp only [Nat.not_lt.mpr hle, hread, Nat.not_le.mpr hfit', PollStep.filledBytes, Watch.send,
        if_false, if_true]
      rfl
  | pending | readyErr e => rfl

/-- A poll that reads nothing publishes nothing: pending and error results leave the world as
it was. -/
theorem pollRead_not_readyOk (connected : Bool) (st : ProgressWorld) (buf : Bytes)
    (inner : InnerPoll) (h : inner.result ≠ .readyOk) :
    pollRead connected st buf inner = .ok (inner.result, inner.filled, st) := by
  rcases inner with ⟨_ | _ | _, filled⟩
  · rfl
  · exact absurd rfl h
  · rfl

/-! ## A run of polls -/

/-- The world after polls `i`, `i + 1`, … that do not panic. -/
def afterPolls (dropAt : Option Nat) : Nat → ProgressWorld → List PollStep → ProgressWorld
  | _, st, [] => st
  | i, st, p :: ps => afterPolls dropAt (i + 1) (afterPoll (connectedAt dropAt i) st p) ps

/-- The ledger in numbers: each send's total, and whether it was delivered. -/
def Watch.ledger (w : Watch) : List (Nat × Bool) :=
  w.sends.map fun e => (e.1.processedBytes.toNat, e.2)

/-- What a poll that does not panic does to the world: it leaves it as it was, which it always
does unless the reader holds the sender and the read succeeds; or it sends the channel's value
plus what the read delivered, records the send in the ledger, and keeps the sender only if a
receiver got it. -/
theorem afterPoll_cases (connected : Bool) (st : ProgressWorld) (p : PollStep)
    (hfit : st.progress = true → st.watch.value.processedBytes.toNat + p.filledBytes < UInt64.size) :
    (afterPoll connected st p = st ∧ (st.progress = true → p.inner.result ≠ .readyOk)) ∨
    (p.inner.result = .readyOk ∧ st.progress = true ∧
      (afterPoll connected st p).progress = connected ∧
      (afterPoll connected st p).watch.ledger =
        st.watch.ledger ++ [(st.watch.value.processedBytes.toNat + p.filledBytes, connected)] ∧
      (connected = true → (afterPoll connected st p).watch.value.processedBytes.toNat =
        st.watch.value.processedBytes.toNat + p.filledBytes)) := by
  rcases p with ⟨before, _ | _ | _, filled⟩
  · exact .inl ⟨rfl, fun _ => nofun⟩
  · cases hp : st.progress
    · exact .inl ⟨by simp [afterPoll, hp], nofun⟩
    have hadd := toNat_add_ofNat (hfit hp)
    refine .inr ⟨rfl, rfl, by simp [afterPoll, hp], ?_, ?_⟩
    · simp [afterPoll, hp, Watch.send, Watch.ledger, hadd]
    · rintro rfl; simp [afterPoll, hp, Watch.send, hadd]
  · exact .inl ⟨rfl, fun _ => nofun⟩

/-- The channel's value fits with what the rest of the polls deliver, one poll on. -/
theorem fit_afterPoll {connected : Bool} {st : ProgressWorld} {p : PollStep} {ps : List PollStep}
    (hfit : st.progress = true →
      st.watch.value.processedBytes.toNat + totalFilled (p :: ps) < UInt64.size) :
    (afterPoll connected st p).progress = true →
      (afterPoll connected st p).watch.value.processedBytes.toNat + totalFilled ps < UInt64.size := by
  simp only [totalFilled_cons] at hfit
  intro hp
  rcases afterPoll_cases connected st p (fun hp => by have := hfit hp; omega) with
    ⟨he, -⟩ | ⟨-, hp₀, hprog, -, hval⟩
  · rw [he] at hp ⊢; have := hfit hp; omega
  · rw [hprog] at hp; rw [hval hp]; have := hfit hp₀; omega

/-- Polls that do not shrink the buffer, from a value whose sum with what they deliver fits,
return what the inner reader returned, one after the other. -/
theorem pollReads_eq (dropAt : Option Nat) : ∀ (i : Nat) (st : ProgressWorld) (steps : List PollStep),
    (∀ p ∈ steps, p.inner.result = .readyOk → p.before.length ≤ p.inner.filled.length) →
    (st.progress = true → st.watch.value.processedBytes.toNat + totalFilled steps < UInt64.size) →
    pollReads dropAt i st steps = .ok (steps.map PollStep.returned, afterPolls dropAt i st steps)
  | _, _, [], _, _ => rfl
  | i, st, p :: ps, hgrow, hfit => by
    have hfit₁ : st.progress = true →
        st.watch.value.processedBytes.toNat + p.filledBytes < UInt64.size := fun hp => by
      have := hfit hp; simp only [totalFilled_cons] at this; omega
    have ih := pollReads_eq dropAt (i + 1) (afterPoll (connectedAt dropAt i) st p) ps
      (fun q hq => hgrow q (List.mem_cons_of_mem _ hq)) (fit_afterPoll hfit)
    simp only [pollReads, pollRead_eq _ st p (hgrow p (List.mem_cons_self _ _)) hfit₁, bind,
      Except.bind, ih]
    rfl

/-- With a receiver at every poll, the reader keeps the sender, and the ledger is the running
totals, each delivered. -/
theorem afterPolls_connected (dropAt : Option Nat) :
    ∀ (i : Nat) (st : ProgressWorld) (steps : List PollStep), st.progress = true →
    (∀ j < steps.length, connectedAt dropAt (i + j) = true) →
    st.watch.value.processedBytes.toNat + totalFilled steps < UInt64.size →
    (afterPolls dropAt i st steps).progress = true ∧
    (afterPolls dropAt i st steps).watch.value.processedBytes.toNat =
      st.watch.value.processedBytes.toNat + totalFilled steps ∧
    (afterPolls dropAt i st steps).watch.ledger =
      st.watch.ledger ++ (runningTotals st.watch.value.processedBytes.toNat steps).map (·, true)
  | _, st, [], hp, _, _ => by simp [afterPolls, runningTotals, hp]
  | i, st, p :: ps, hp, hconn, hfit => by
    have hc : connectedAt dropAt i = true := by simpa using hconn 0 (by simp)
    have hconn' : ∀ j < ps.length, connectedAt dropAt (i + 1 + j) = true := fun j hj => by
      simpa [Nat.add_assoc, Nat.add_comm 1 j] using hconn (j + 1) (by simp; omega)
    simp only [afterPolls, totalFilled_cons, hc] at hfit ⊢
    rcases afterPoll_cases true st p (fun _ => by omega) with
      ⟨he, hne⟩ | ⟨hr, -, hprog, hled, hval⟩
    · obtain ⟨h₁, h₂, h₃⟩ := afterPolls_connected dropAt (i + 1) st ps hp hconn' (by omega)
      rw [he, runningTotals_cons_of_ne (hne hp), filledBytes_of_ne (hne hp), Nat.zero_add]
      exact ⟨h₁, h₂, h₃⟩
    · obtain ⟨h₁, h₂, h₃⟩ :=
        afterPolls_connected dropAt (i + 1) _ ps hprog hconn' (by rw [hval rfl]; omega)
      rw [hval rfl] at h₂ h₃
      refine ⟨h₁, by omega, ?_⟩
      rw [h₃, hled, runningTotals_cons_readyOk hr]
      simp

/-! ## The ledger -/

/-- What the ledger of a reader that started from an empty one looks like: its totals never
decrease; while the reader holds the sender every send was delivered, and none carried more than
the channel's value; once it has let go, only the last send failed. -/
structure LedgerOk (st : ProgressWorld) : Prop where
  sorted : (st.watch.ledger.map Prod.fst).Pairwise (· ≤ ·)
  below : st.progress = true → ∀ e ∈ st.watch.ledger, e.1 ≤ st.watch.value.processedBytes.toNat
  delivered : st.progress = true → ∀ e ∈ st.watch.ledger, e.2 = true
  failedLast : st.progress = false →
    ∃ pre e, st.watch.ledger = pre ++ [e] ∧ ∀ e' ∈ pre, e'.2 = true

theorem ledgerOk_start (v0 : UInt64) : LedgerOk (.start v0) :=
  ⟨by simp [ProgressWorld.start, Watch.ledger], by simp [ProgressWorld.start, Watch.ledger],
    by simp [ProgressWorld.start, Watch.ledger], by simp [ProgressWorld.start]⟩

theorem LedgerOk.afterPoll {connected : Bool} {st : ProgressWorld} {p : PollStep} (h : LedgerOk st)
    (hfit : st.progress = true → st.watch.value.processedBytes.toNat + p.filledBytes < UInt64.size) :
    LedgerOk (afterPoll connected st p) := by
  rcases afterPoll_cases connected st p hfit with ⟨he, -⟩ | ⟨-, hp, hprog, hled, hval⟩
  · rw [he]; exact h
  set v := st.watch.value.processedBytes.toNat + p.filledBytes
  have hold : ∀ e ∈ st.watch.ledger, e.1 ≤ v := fun e he =>
    Nat.le_trans (h.below hp e he) (Nat.le_add_right _ _)
  refine ⟨?_, fun hc e he => ?_, fun hc e he => ?_, fun _ => ⟨_, _, hled, h.delivered hp⟩⟩
  · rw [hled, List.map_append, List.pairwise_append]
    refine ⟨h.sorted, List.pairwise_singleton _ _, fun a ha b hb => ?_⟩
    obtain ⟨e, he, rfl⟩ := List.mem_map.mp ha
    rw [List.mem_singleton.mp hb]
    exact hold e he
  · rw [hprog] at hc
    rw [hval hc]
    rcases List.mem_append.mp (hled ▸ he) with he | he
    · exact hold e he
    · rw [List.mem_singleton.mp he]
  · rw [hprog] at hc
    rcases List.mem_append.mp (hled ▸ he) with he | he
    · exact h.delivered hp e he
    · rw [List.mem_singleton.mp he]; exact hc

theorem LedgerOk.afterPolls (dropAt : Option Nat) : ∀ (i : Nat) (st : ProgressWorld)
    (steps : List PollStep), LedgerOk st →
    (st.progress = true → st.watch.value.processedBytes.toNat + totalFilled steps < UInt64.size) →
    LedgerOk (afterPolls dropAt i st steps)
  | _, _, [], h, _ => h
  | i, st, p :: ps, h, hfit =>
    LedgerOk.afterPolls dropAt (i + 1) _ ps
      (h.afterPoll fun hp => by have := hfit hp; simp only [totalFilled_cons] at this; omega)
      (fit_afterPoll hfit)

/-- Once a send has failed, none follows it. -/
theorem LedgerOk.nothing_after_failed {st : ProgressWorld} (h : LedgerOk st)
    {pre post : List (Nat × Bool)} {e : Nat × Bool} (hl : st.watch.ledger = pre ++ e :: post)
    (he : e.2 = false) : post = [] := by
  have hmem : e ∈ st.watch.ledger := by simp [hl]
  cases hp : st.progress
  · obtain ⟨pre', e', hl', hd⟩ := h.failedLast hp
    rw [hl'] at hl
    rcases post with _ | ⟨x, post⟩
    · rfl
    · have hdrop := congrArg List.dropLast hl
      rw [List.dropLast_concat, List.dropLast_append_of_ne_nil _ (List.cons_ne_nil _ _),
        List.dropLast_cons₂] at hdrop
      exact absurd (hd e (by rw [hdrop]; simp)) (by simp [he])
  · simp_all [h.delivered hp e hmem]

/-! ## Every run of polls -/

/-- A `ProgressReader` over any polls that do not shrink the buffer, from a channel value that
stays below `2^64` with all the bytes delivered, whenever every receiver goes: each poll returns
what the inner reader returned; while a receiver is there at every poll, the channel's value is
the initial one plus every byte delivered and the sends are the running totals, each delivered;
the totals sent never decrease; no send follows a failed one; and a poll that is pending or
failed publishes nothing. -/
theorem progressReader_polls (v0 : UInt64) (dropAt : Option Nat) (steps : List PollStep)
    (hgrow : ∀ p ∈ steps, p.inner.result = .readyOk → p.before.length ≤ p.inner.filled.length)
    (hfit : v0.toNat + totalFilled steps < UInt64.size) :
    ∃ st, pollReads dropAt 0 (.start v0) steps = .ok (steps.map PollStep.returned, st) ∧
      ((∀ i < steps.length, connectedAt dropAt i = true) →
        st.watch.value.processedBytes.toNat = v0.toNat + totalFilled steps ∧
        st.watch.ledger = (runningTotals v0.toNat steps).map (·, true)) ∧
      (st.watch.ledger.map Prod.fst).Pairwise (· ≤ ·) ∧
      (∀ pre e post, st.watch.ledger = pre ++ e :: post → e.2 = false → post = []) ∧
      ∀ connected w buf inner, inner.result ≠ .readyOk →
        pollRead connected w buf inner = .ok (inner.result, inner.filled, w) := by
  have hok := LedgerOk.afterPolls dropAt 0 _ steps (ledgerOk_start v0) fun _ => hfit
  refine ⟨_, pollReads_eq dropAt 0 _ steps hgrow (fun _ => hfit), fun hconn => ?_, hok.sorted,
    fun _ _ _ hl he => hok.nothing_after_failed hl he, pollRead_not_readyOk⟩
  obtain ⟨-, hv, hl⟩ :=
    afterPolls_connected dropAt 0 (.start v0) steps rfl (by simpa using hconn) hfit
  exact ⟨hv, by simpa [ProgressWorld.start, Watch.ledger] using hl⟩

/-- Three polls, the receivers gone at the third: five bytes then three more, with a pending
poll between. -/
def samplePolls : List PollStep :=
  [⟨[], ⟨.readyOk, [1, 2, 3, 4, 5]⟩⟩, ⟨[], ⟨.pending, []⟩⟩, ⟨[9], ⟨.readyOk, [9, 8, 7, 6]⟩⟩]

theorem progressReader_polls_sample :
    ∃ st, pollReads (some 2) 0 (.start 10) samplePolls =
        .ok (samplePolls.map PollStep.returned, st) ∧
      (st.watch.ledger.map Prod.fst).Pairwise (· ≤ ·) ∧
      ∀ pre e post, st.watch.ledger = pre ++ e :: post → e.2 = false → post = [] :=
  (progressReader_polls 10 (some 2) samplePolls (by decide) (by decide)).imp
    fun _ h => ⟨h.1, h.2.2.1, h.2.2.2.1⟩

/-- A debug build panics in the addition when the total passes `2^64`: from `u64::MAX`, a read
of one byte does not return what the inner reader returned. -/
theorem pollRead_overflow_panics :
    pollReads none 0 (.start (UInt64.ofNat (UInt64.size - 1))) [⟨[], ⟨.readyOk, [0]⟩⟩] =
      .error "attempt to add with overflow" := rfl

end OstreeTar
