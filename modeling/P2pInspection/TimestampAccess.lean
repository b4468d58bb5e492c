import P2pInspection.CallTrace
import P2pInspection.StatsText

/-!
# What the `Timestamps` constructor touches

The constructor once more, as a program that records its `memcpy`s: where in
the frame each of them reads and which element it fills. Without the record it
is `construct` (`construct_eq`). The frame is long enough for the reads from
66 bytes on, six more than `TIMESTAMP_PKT_SIZE`; the append keeps the length of
the data only where it finds no room; and no `memcpy` fills a tick.
-/

namespace P2pInspection

open Bytes CallTrace

namespace Timestamps

/-- An element of one of the two arrays. -/
inductive Element where
  | nbSync (i : Fin nbHops)
  | currTick (i : Fin nbHops)
deriving Repr, DecidableEq

def get (ts : Timestamps) : Element → BitVec 64
  | .nbSync i => ts.timestampNbSync i
  | .currTick i => ts.timestampCurrTick i

def set (ts : Timestamps) (val : BitVec 64) : Element → Timestamps
  | .nbSync i => { ts with timestampNbSync := Function.update ts.timestampNbSync i val }
  | .currTick i => { ts with timestampCurrTick := Function.update ts.timestampCurrTick i val }

/-- The elements that `calc_hop_latencies` reads. -/
def latencyOperands : List Element :=
  (List.finRange (nbHops - 1)).flatMap fun i =>
    [.nbSync i.castSucc, .nbSync i.succ, .currTick i.castSucc, .currTick i.succ]

/-! ## The constructor, recorded -/

/-- `memcpy(&dst, data + off, sizeof(uint64_t))`. -/
structure Memcpy where
  dst : Element
  off : Nat
deriving Repr, DecidableEq

def Memcpy.Reads (c : Memcpy) (k : Nat) : Prop := c.off ≤ k ∧ k < c.off + 8

inductive Abort where
  | assertFailed
deriving Repr, DecidableEq

structure Construction where
  mbuf : RteMbuf
  obj : Timestamps

abbrev Build (α : Type) := Prog Abort Construction Memcpy α

def memcpy (e : Endian) (dst : Element) (off : Nat) : Build Unit := do
  call ⟨dst, off⟩
  update fun c => { c with obj := c.obj.set (load64 e c.mbuf.bytes off) dst }

/-- Both destinations are in `timestamp_nb_sync`. -/
def extractLoop (e : Endian) : List (Fin nbHops) → Nat → Build Unit
  | [], _ => pure ()
  | i :: hops, payload => do
      memcpy e (.nbSync i) payload
      memcpy e (.nbSync i) (payload + nbSyncLen)
      extractLoop e hops (payload + nbSyncLen + currTickLen)

def build (e : Endian) (ndebug : Bool) : Build Unit := do
  update fun c => { c with mbuf := (rtePktmbufAppend c.mbuf timestampPktSize).2 }
  if ndebug || assertsHold e then extractLoop e (List.finRange nbHops) timestampOffset
  else throw .assertFailed

/-- The `memcpy`s of the loop from a payload offset on. -/
def copies : List (Fin nbHops) → Nat → List Memcpy
  | [], _ => []
  | i :: hops, payload =>
      ⟨.nbSync i, payload⟩ :: ⟨.nbSync i, payload + nbSyncLen⟩
        :: copies hops (payload + nbSyncLen + currTickLen)

theorem extractLoop_run (e : Endian) (hops : List (Fin nbHops)) (payload : Nat)
    (s : Logged Construction Memcpy) :
    extractLoop e hops payload s = .ok ()
      ⟨⟨s.state.mbuf, (hops.foldl (extractHop e s.state.mbuf.bytes) (s.state.obj, payload)).1⟩,
        s.calls ++ copies hops payload⟩ := by
  induction hops generalizing payload s with
  | nil => simp [extractLoop, copies]
  | cons i hops ih =>
      simp only [extractLoop, memcpy, run_bind, run_call, run_update]
      rw [ih]
      simp [copies, extractHop, set]

/-- The buffer behind the append, and the object the loop was run on or not. -/
theorem build_run (e : Endian) (ndebug : Bool) (obj : Timestamps) (m : RteMbuf) :
    build e ndebug ⟨⟨m, obj⟩, []⟩ =
      if ndebug || assertsHold e then
        .ok () ⟨⟨(rtePktmbufAppend m timestampPktSize).2, extract e m.bytes obj⟩,
          copies (List.finRange nbHops) timestampOffset⟩
      else .error .assertFailed ⟨⟨(rtePktmbufAppend m timestampPktSize).2, obj⟩, []⟩ := by
  rw [build, bind_ok (run_update _ _)]
  cases hgo : ndebug || assertsHold e with
  | true =>
      simp only [if_true, extractLoop_run, rtePktmbufAppend_bytes, List.nil_append]
      rfl
  | false => rfl

theorem construct_eq (e : Endian) (ndebug : Bool) (obj : Timestamps) (m : RteMbuf) :
    construct e ndebug obj m = match build e ndebug ⟨⟨m, obj⟩, []⟩ with
      | .ok _ s => some (s.state.obj, s.state.mbuf)
      | .error _ _ => none := by
  rw [build_run]
  unfold construct
  split
  · simp only [rtePktmbufAppend_bytes]
  · rfl

/-! ## Reads and writes -/

theorem mem_copies {hops : List (Fin nbHops)} {payload : Nat} {c : Memcpy}
    (h : c ∈ copies hops payload) :
    c.off + 8 ≤ payload + 16 * hops.length ∧ ∃ i, c.dst = .nbSync i := by
  induction hops generalizing payload with
  | nil => cases h
  | cons i hops ih =>
      simp only [copies, List.mem_cons, nbSyncLen, currTickLen] at h
      rw [List.length_cons]
      rcases h with rfl | rfl | htail
      · exact ⟨by simp only; omega, i, rfl⟩
      · exact ⟨by simp only; omega, i, rfl⟩
      · obtain ⟨hoff, hdst⟩ := ih htail
        exact ⟨by omega, hdst⟩

theorem append_dataLen_iff (m : RteMbuf) {len : Nat} (hlen : 0 < len) :
    (rtePktmbufAppend m len).2.dataLen = m.dataLen ↔ m.tailroom < len := by
  unfold rtePktmbufAppend
  split
  · simp only
    omega
  · simp only [true_iff]
    omega

/-- Every byte read is one of the frame's, the length of the data stays, and a
constructor that returns has filled all that the latencies are computed from. -/
structure StaysInside (e : Endian) (ndebug : Bool) (obj : Timestamps) (m : RteMbuf) : Prop where
  inside : ∀ c ∈ (after (build e ndebug ⟨⟨m, obj⟩, []⟩)).calls, ∀ k, c.Reads k → k < m.dataLen
  lengthKept : (after (build e ndebug ⟨⟨m, obj⟩, []⟩)).state.mbuf.dataLen = m.dataLen
  filled : ending (build e ndebug ⟨⟨m, obj⟩, []⟩) = none → ∀ x ∈ latencyOperands,
    ∃ c ∈ (after (build e ndebug ⟨⟨m, obj⟩, []⟩)).calls, c.dst = x

theorem build_aborts_iff (e : Endian) (ndebug : Bool) :
    (ndebug || assertsHold e) = false ↔ ndebug = false ∧ e = .little := by
  cases e <;> cases ndebug <;> decide

theorem not_filled (hops : List (Fin nbHops)) (payload : Nat) :
    ¬∀ x ∈ latencyOperands, ∃ c ∈ copies hops payload, c.dst = x := by
  intro hfilled
  have hoperand : .currTick ⟨0, by decide⟩ ∈ latencyOperands := by decide
  obtain ⟨c, hc, hdst⟩ := hfilled _ hoperand
  obtain ⟨-, i, hsync⟩ := mem_copies hc
  cases hdst.symm.trans hsync

/-- A constructor that returns leaves the ticks unset. One that aborts has
changed the length of the data unless there was no room for the append. -/
theorem staysInside_iff (e : Endian) (ndebug : Bool) (obj : Timestamps) (m : RteMbuf) :
    StaysInside e ndebug obj m
      ↔ ndebug = false ∧ e = .little ∧ m.tailroom < timestampPktSize := by
  have happend := append_dataLen_iff m (show 0 < timestampPktSize by decide)
  rw [← and_assoc, ← build_aborts_iff, ← happend]
  cases hgo : ndebug || assertsHold e with
  | true =>
      constructor
      · rintro ⟨-, -, hfilled⟩
        rw [build_run, if_pos hgo] at hfilled
        exact absurd (hfilled rfl) (not_filled _ _)
      · rintro ⟨habort, -⟩
        cases habort
  | false =>
      have hrun := build_run e ndebug obj m
      rw [if_neg (by rw [hgo]; decide)] at hrun
      constructor
      · rintro ⟨-, hlength, -⟩
        rw [hrun] at hlength
        exact ⟨rfl, hlength⟩
      · rintro ⟨-, hlength⟩
        refine ⟨?_, ?_, ?_⟩
        · rw [hrun]
          exact fun c hc => absurd hc List.not_mem_nil
        · rw [hrun]
          exact hlength
        · rw [hrun]
          intro hreturned
          cases hreturned

/-- A minimum-size frame with room behind it, in either build: the assertions
fail behind the append, or the loop reads past the frame and leaves the ticks. -/
theorem shortFrame_not_inside :
    ¬StaysInside .little false ⟨fun _ => 0#64, fun _ => 0#64⟩ ⟨fun _ => 0#8, 60, 1988⟩
      ∧ ¬StaysInside .little true ⟨fun _ => 0#64, fun _ => 0#64⟩ ⟨fun _ => 0#8, 60, 1988⟩ := by
  constructor
  · intro hinside
    exact absurd hinside.lengthKept (by decide)
  · intro hinside
    exact absurd (hinside.inside ⟨.nbSync ⟨2, by decide⟩, 58⟩ (by decide) 65
      ⟨by decide, by decide⟩) (by decide)

end Timestamps

end P2pInspection
