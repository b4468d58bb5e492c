import P2pInspection.ForwardContext
import P2pInspection.OnicRegs
import P2pInspection.StatsMessages
import P2pInspection.TimestampAccess

/-!
# The loops of the statistics producers

`run_stats_producer` and `run_cmac_producer`, round by round, with what they do
to the outside: register accesses, calls of `rte_eth_stats_get`, readings of the
clock and messages produced. A list of rounds is what a loop finds until
`stop_flag` is set, or what it has found so far. Both loops go through the same
lines from the reading of the clock to the message (`report`).
-/

namespace P2pInspection

open CallTrace

/-- The members of `StatsLog` that measure time, in cycles. -/
structure StatsLog where
  hz : BitVec 64
  oldTime : BitVec 64 := 0#64
  currTime : BitVec 64 := 0#64
deriving Repr, DecidableEq

namespace StatsLog

def getTscDeltaNs (oldTime currTime hz : BitVec 64) : BitVec 64 :=
  (currTime - oldTime) * 1000000000#64 / hz

inductive Effect where
  | reg (c : RegCall)
  | statsGet (port : BitVec 16) (ret : Int)
  | tscCycles (reading : BitVec 64)
  | produced (msg : Message)

/-- The registers of the cards, with these answers to reads. -/
def cardBus (answer : List Effect → Int → Int → BitVec 32 → BitVec 32) : Bus Effect :=
  ⟨.reg, answer⟩

abbrev Produce (α : Type) := Prog Timestamps.Abort StatsLog Effect α

/-- From `curr_time = rte_get_tsc_cycles()` to `produce_kafka_message`. -/
def report (tsc : BitVec 64) (msg : BitVec 64 → Message) : Produce Unit := do
  call (.tscCycles tsc)
  update fun l => { l with currTime := tsc }
  let l := (← get).state
  let deltaNs := getTscDeltaNs l.oldTime l.currTime l.hz
  update fun l => { l with oldTime := l.currTime }
  call (.produced (msg deltaNs))

theorem report_run (tsc : BitVec 64) (msg : BitVec 64 → Message) (s : Logged StatsLog Effect) :
    report tsc msg s = .ok () ⟨⟨s.state.hz, tsc, tsc⟩, s.calls
      ++ [.tscCycles tsc, .produced (msg (getTscDeltaNs s.state.oldTime tsc s.state.hz))]⟩ := by
  simp [report, run_bind]

/-- What a round of `run_stats_producer` finds; a latency frame either gives a
message or, at a failed assertion, ends the process. -/
structure StatsRound where
  rxStatsGet : Int × RteEthStats
  txStatsGet : Int × RteEthStats
  tsc : BitVec 64
  latencies : List (Fin (nbHops - 1) → BitVec 64)
  aborts : Bool

def produceLatencyPackets (r : StatsRound) : Produce Unit := do
  r.latencies.forM fun latencies => call (.produced (.latency latencies))
  if r.aborts then throw .assertFailed else pure ()

def statsProducerLoop (lcore : BitVec 32) (rxPort txPort : OnicPort) :
    List StatsRound → Produce Int
  | [] => return 0
  | r :: rounds => do
      call (.statsGet rxPort.getPortId r.rxStatsGet.1)
      if r.rxStatsGet.1 < 0 then return -1
      else
        call (.statsGet txPort.getPortId r.txStatsGet.1)
        if r.txStatsGet.1 < 0 then return -1
        else
          report r.tsc (.stats lcore rxPort txPort r.rxStatsGet.2 r.txStatsGet.2)
          produceLatencyPackets r
          statsProducerLoop lcore rxPort txPort rounds

/-- A round, given as the reading of the clock in it. Both calls of
`get_cmac_stats` are made on `rx_onic`, with the ids of the ports. -/
def cmacRound {Card : Type} (bus : Bus Effect) (onic : Card → Onic) (coreId : BitVec 32)
    (ctx : ForwardingContext Card) (tsc : BitVec 64) : Produce Unit := do
  let rxPort := (onic ctx.rxOnic).ports ctx.rxPort
  let txPort := (onic ctx.txOnic).ports ctx.txPort
  let rxStats ← (onic ctx.rxOnic).getCmacStats bus rxPort.getPortId.toNat
  let txStats ← (onic ctx.rxOnic).getCmacStats bus txPort.getPortId.toNat
  report tsc (.cmac coreId rxPort txPort rxStats txStats)

def cmacProducerLoop {Card : Type} (bus : Bus Effect) (onic : Card → Onic) (coreId : BitVec 32)
    (ctx : ForwardingContext Card) (rounds : List (BitVec 64)) : Produce Int := do
  rounds.forM (cmacRound bus onic coreId ctx)
  return 0

end StatsLog

end P2pInspection
