import P2pInspection.ProducerLoops
import P2pInspection.WrappingCounter

/-!
# The intervals the producers report

Whatever else a producer does, its calls are `Timed`: the interval of every
message lies between the reading of its round and the reading before, the
first one between 0 and the first reading. `get_tsc_delta_ns` multiplies by
`10 ^ 9` in 64 bits before it divides, which is exact as long as the product
fits, and for no longer distance (`getTscDeltaNs_exact_iff`).
-/

namespace P2pInspection

open CallTrace WrappingCounter

namespace StatsLog

/-! ## The clock in the calls -/

def Message.deltaNs? : Message → Option (BitVec 64)
  | .stats _ _ _ _ _ deltaNs => some deltaNs
  | .cmac _ _ _ _ _ deltaNs => some deltaNs
  | .latency _ => none

def Effect.reading? : Effect → Option (BitVec 64)
  | .tscCycles reading => some reading
  | _ => none

def Effect.deltaNs? : Effect → Option (BitVec 64)
  | .produced msg => msg.deltaNs?
  | _ => none

def readings (calls : List Effect) : List (BitVec 64) := calls.filterMap Effect.reading?
def intervals (calls : List Effect) : List (BitVec 64) := calls.filterMap Effect.deltaNs?

@[simp] theorem readings_append (l l' : List Effect) :
    readings (l ++ l') = readings l ++ readings l' := List.filterMap_append

@[simp] theorem intervals_append (l l' : List Effect) :
    intervals (l ++ l') = intervals l ++ intervals l' := List.filterMap_append

/-- Every interval is taken between a reading and the one before it, `oldTime`
standing before the first and holding the last in the end. -/
structure Timed (l : StatsLog) (calls : List Effect) (l' : StatsLog) : Prop where
  hz : l'.hz = l.hz
  oldTime : l'.oldTime = (readings calls).getLastD l.oldTime
  intervals : intervals calls = List.zipWith (fun old cur => getTscDeltaNs old cur l.hz)
    (l.oldTime :: readings calls) (readings calls)

theorem getLastD_append {α : Type} (l l' : List α) (a : α) :
    (l ++ l').getLastD a = l'.getLastD (l.getLastD a) := by
  induction l generalizing a with
  | nil => rfl
  | cons b l ih => rw [List.cons_append, List.getLastD_cons, List.getLastD_cons, ih]

theorem composes_timed : Composes Timed := by
  refine ⟨fun l => ⟨rfl, rfl, rfl⟩, fun {l l' l'' calls calls'} h h' => ⟨?_, ?_, ?_⟩⟩
  · exact h'.hz.trans h.hz
  · rw [h'.oldTime, h.oldTime, readings_append, getLastD_append]
  · rw [readings_append, intervals_append, zipWith_append, h.intervals, h'.intervals, h'.hz.symm,
      h.oldTime, h'.hz, h.hz]

/-- A call that neither reads the clock nor reports an interval. -/
def Untimed (c : Effect) : Prop := c.reading? = none ∧ c.deltaNs? = none

theorem timed_of_untimed {calls : List Effect} (h : ∀ c ∈ calls, Untimed c) (l : StatsLog) :
    Timed l calls l := by
  have hread : readings calls = [] := List.filterMap_eq_nil_iff.mpr fun c hc => (h c hc).1
  have hint : intervals calls = [] := List.filterMap_eq_nil_iff.mpr fun c hc => (h c hc).2
  exact ⟨rfl, by rw [hread]; rfl, by rw [hread, hint]; rfl⟩

theorem timed_call {c : Effect} (h : Untimed c) : Obeys Timed (call c : Produce Unit) :=
  .call fun l => timed_of_untimed (fun _ hc => List.mem_singleton.mp hc ▸ h) l

theorem timed_report (tsc : BitVec 64) {msg : BitVec 64 → Message}
    (hmsg : ∀ d, (msg d).deltaNs? = some d) : Obeys Timed (report tsc msg) := by
  intro s
  refine ⟨[.tscCycles tsc, .produced (msg (getTscDeltaNs s.state.oldTime tsc s.state.hz))], ?_, ?_⟩
  · rw [report_run]
    rfl
  · have hint : intervals [.tscCycles tsc,
        .produced (msg (getTscDeltaNs s.state.oldTime tsc s.state.hz))]
          = [getTscDeltaNs s.state.oldTime tsc s.state.hz] := by
      rw [intervals, List.filterMap_cons_none rfl,
        List.filterMap_cons_some (show Effect.deltaNs? (.produced (msg _)) = some _ from hmsg _)]
      rfl
    exact ⟨rfl, rfl, hint⟩

theorem timed_produceLatencyPackets (r : StatsRound) :
    Obeys Timed (produceLatencyPackets r) := by
  refine .bind composes_timed (.forM composes_timed _ fun latencies _ => timed_call ⟨rfl, rfl⟩) ?_
  exact fun _ => .ite (.throw composes_timed _) (.pure composes_timed _)

theorem timed_statsProducerLoop (lcore : BitVec 32) (rxPort txPort : OnicPort)
    (rounds : List StatsRound) : Obeys Timed (statsProducerLoop lcore rxPort txPort rounds) := by
  induction rounds with
  | nil => exact .pure composes_timed _
  | cons r rounds ih =>
      refine .bind composes_timed (timed_call ⟨rfl, rfl⟩) fun _ => ?_
      refine .ite (.pure composes_timed _) ?_
      refine .bind composes_timed (timed_call ⟨rfl, rfl⟩) fun _ => ?_
      refine .ite (.pure composes_timed _) ?_
      refine .bind composes_timed (timed_report _ fun _ => rfl) fun _ => ?_
      exact .bind composes_timed (timed_produceLatencyPackets r) fun _ => ih

section Cmac

variable {Card : Type} (answer : List Effect → Int → Int → BitVec 32 → BitVec 32)
variable (onic : Card → Onic) (coreId : BitVec 32) (ctx : ForwardingContext Card)

theorem timed_getCmacStats (o : Onic) (cmacId : Int) :
    Obeys Timed (o.getCmacStats (cardBus answer) cmacId : Produce CmacStats) := by
  intro s
  obtain ⟨stats, hrun⟩ := o.getCmacStats_run (cardBus answer) cmacId s
  refine ⟨(o.cmacAccesses cmacId stats).map .reg, ?_, ?_⟩
  · rw [hrun]
    rfl
  · rw [hrun]
    refine timed_of_untimed (fun c hc => ?_) s.state
    obtain ⟨r, -, rfl⟩ := List.mem_map.mp hc
    exact ⟨rfl, rfl⟩

theorem timed_cmacProducerLoop (rounds : List (BitVec 64)) :
    Obeys Timed (cmacProducerLoop (cardBus answer) onic coreId ctx rounds) := by
  refine .bind composes_timed (.forM composes_timed _ fun tsc _ => ?_)
    fun _ => .pure composes_timed _
  refine .bind composes_timed (timed_getCmacStats answer _ _) fun rxStats => ?_
  refine .bind composes_timed (timed_getCmacStats answer _ _) fun txStats => ?_
  exact timed_report tsc fun _ => rfl

end Cmac

/-! ## Exact intervals -/

/-- A run of one of the two producers. -/
inductive Producer (Card : Type) where
  | stats (lcore : BitVec 32) (rxPort txPort : OnicPort) (rounds : List StatsRound)
  | cmac (answer : List Effect → Int → Int → BitVec 32 → BitVec 32) (onic : Card → Onic)
      (coreId : BitVec 32) (ctx : ForwardingContext Card) (rounds : List (BitVec 64))

variable {Card : Type}

def Producer.perform : Producer Card → Produce Int
  | .stats lcore rxPort txPort rounds => statsProducerLoop lcore rxPort txPort rounds
  | .cmac answer onic coreId ctx rounds =>
      cmacProducerLoop (cardBus answer) onic coreId ctx rounds

theorem timed_perform (p : Producer Card) : Obeys Timed p.perform := by
  cases p with
  | stats lcore rxPort txPort rounds => exact timed_statsProducerLoop lcore rxPort txPort rounds
  | cmac answer onic coreId ctx rounds =>
      exact timed_cmacProducerLoop answer onic coreId ctx rounds

/-- The calls of the run, from the initial state of the object on. -/
def Producer.calls (p : Producer Card) (hz : BitVec 64) : List Effect :=
  (after (p.perform ⟨{ hz }, []⟩)).calls

def cycles (calls : List Effect) : List Nat := (readings calls).map BitVec.toNat

/-- The `DELTA_NS` of every round is the time since the reading before, the
first since 0, rounded down. -/
def ExactIntervals (hz : BitVec 64) (calls : List Effect) : Prop :=
  (intervals calls).map BitVec.toNat
    = List.zipWith (fun old cur => (cur - old) * 1000000000 / hz.toNat)
      (0 :: cycles calls) (cycles calls)

/-- No two readings in a row are `2 ^ 64 / 10 ^ 9` cycles apart, 0 standing
before the first. -/
def NoStall (calls : List Effect) : Prop :=
  (0 :: cycles calls).IsChain fun old cur => (cur - old) * 1000000000 < 2 ^ 64

theorem getTscDeltaNs_toNat {old cur hz : BitVec 64} (hle : old.toNat ≤ cur.toNat) :
    (getTscDeltaNs old cur hz).toNat
      = (cur.toNat - old.toNat) * 1000000000 % 2 ^ 64 / hz.toNat := by
  rw [getTscDeltaNs, BitVec.toNat_udiv, BitVec.toNat_mul,
    BitVec.toNat_sub_of_le (BitVec.le_def.mpr hle)]
  rfl

theorem getTscDeltaNs_exact_iff {old cur hz : BitVec 64} (hhz : 0 < hz.toNat)
    (hle : old.toNat ≤ cur.toNat) :
    (getTscDeltaNs old cur hz).toNat = (cur.toNat - old.toNat) * 1000000000 / hz.toNat
      ↔ (cur.toNat - old.toNat) * 1000000000 < 2 ^ 64 := by
  rw [getTscDeltaNs_toNat hle]
  exact mod_div_eq_div_iff hhz (Nat.le_of_lt hz.isLt)

/-- In a run with a frequency and a clock that does not go back, the intervals
are exact as long as no two readings in a row are too far apart, the first from
0 included. -/
theorem exactIntervals_iff (p : Producer Card) {hz : BitVec 64} (hhz : 0 < hz.toNat)
    (hclock : (cycles (p.calls hz)).IsChain (· ≤ ·)) :
    ExactIntervals hz (p.calls hz) ↔ NoStall (p.calls hz) := by
  obtain ⟨new, hnew, htimed⟩ := timed_perform p ⟨{ hz }, []⟩
  have hcalls : p.calls hz = new := hnew
  rw [hcalls] at hclock ⊢
  have hclock' : (0#64 :: readings new).IsChain fun old cur => old.toNat ≤ cur.toNat := by
    rw [cycles, List.isChain_map] at hclock
    exact hclock.cons fun _ _ => Nat.zero_le _
  have hzero : 0 :: cycles new = (0#64 :: readings new).map BitVec.toNat := rfl
  rw [ExactIntervals, NoStall, hzero, cycles, htimed.intervals, List.map_zipWith,
    List.zipWith_map, zipWith_eq_iff, List.isChain_map]
  exact isChain_iff_of hclock' fun old cur hle => getTscDeltaNs_exact_iff hhz hle

/-- A round that finds nothing to report but the time. -/
def quietRound (tsc : BitVec 64) : StatsRound :=
  ⟨(0, ⟨0#64, 0#64, 0#64, 0#64, 0#64, 0#64⟩), (0, ⟨0#64, 0#64, 0#64, 0#64, 0#64, 0#64⟩), tsc,
    [], false⟩

/-- One round of `run_stats_producer`, on a port that is not set up. -/
def singleRound (tsc : BitVec 64) : Producer Unit :=
  .stats 0#32 ⟨{ socketId := 0#32, portUpdateLock := 0#32, memPool := "" }, 0, 0#32, 0#32, 0#32⟩
    ⟨{ socketId := 0#32, portUpdateLock := 0#32, memPool := "" }, 1, 0#32, 0#32, 0#32⟩
    [quietRound tsc]

/-- At 3 GHz, the first round of a host that has been up for twenty seconds. -/
theorem firstRound_not_exact :
    0 < (3000000000#64).toNat
      ∧ (cycles ((singleRound 60000000000#64).calls 3000000000#64)).IsChain (· ≤ ·)
      ∧ ¬ExactIntervals 3000000000#64 ((singleRound 60000000000#64).calls 3000000000#64) := by
  have hcycles : cycles ((singleRound 60000000000#64).calls 3000000000#64) = [60000000000] := rfl
  refine ⟨by decide, by rw [hcycles]; exact List.isChain_singleton _, ?_⟩
  rw [ExactIntervals, hcycles]
  decide +kernel

/-- A second after the clock started. -/
theorem exactIntervals_iff_second :
    ExactIntervals 3000000000#64 ((singleRound 3000000000#64).calls 3000000000#64) := by
  have hcycles : cycles ((singleRound 3000000000#64).calls 3000000000#64) = [3000000000] := rfl
  refine (exactIntervals_iff _ (by decide) ?_).mpr ?_
  · rw [hcycles]
    exact List.isChain_singleton _
  · rw [NoStall, hcycles]
    simp

end StatsLog

end P2pInspection
