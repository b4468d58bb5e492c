import Mathlib.Data.List.Destutter
import P2pInspection.CardBringUp

/-!
# What `main` prints while the forwarders run

Every second `main` takes the totals of one CMAC of each card and compares the
two counts of received packets with those it printed last. A CMAC hands out its
counts at a tick, and the loop gives it one before each reading.

`monitor_reports` says what a run of the loop prints, for any devices: the
readings without those where nothing was received, and without those whose
counts are the ones printed before. The line `rx_pkts_err` of a report shows the
number of received packets; the register of the errors is read, and its value
is printed nowhere.
-/

namespace P2pInspection

open CallTrace

def cmacAdptOffset (i : Int) : BitVec 32 := cmacSubsystemOffset i + 0x3000#32
def cmacAdptOffsetTxPktRecv (i : Int) : BitVec 32 := cmacAdptOffset i + 0x0#32
def cmacAdptOffsetTxPktDrop (i : Int) : BitVec 32 := cmacAdptOffset i + 0x10#32
def cmacAdptOffsetRxPktRecv (i : Int) : BitVec 32 := cmacAdptOffset i + 0x20#32
def cmacAdptOffsetRxPktDrop (i : Int) : BitVec 32 := cmacAdptOffset i + 0x30#32
def cmacAdptOffsetRxPktError (i : Int) : BitVec 32 := cmacAdptOffset i + 0x40#32

/-- `%-<w>s`. -/
def formatLeft (w : Nat) (s : String) : String := s ++ "".pushn ' ' (w - s.length)

/-- `%<w>u`. -/
def formatRight (w : Nat) (s : String) : String := "".pushn ' ' (w - s.length) ++ s

namespace CmacStats

/-- The fields of `print`, each with its name. -/
def printedFields (s : CmacStats) (debug : Bool) : List (String × BitVec 32) :=
  [("tx_total_pkts", s.txTotalPkts), ("tx_total_good_pkts", s.txTotalGoodPkts),
    ("tx_total_bytes", s.txTotalBytes), ("tx_total_good_bytes", s.txTotalGoodBytes),
    ("rx_total_pkts", s.rxTotalPkts), ("rx_total_good_pkts", s.rxTotalGoodPkts),
    ("rx_total_bytes", s.rxTotalBytes), ("rx_total_good_bytes", s.rxTotalGoodBytes)]
  ++ if debug then
    [("rx_pkt_65_127", s.rxPkt65To127), ("rx_pkt_large", s.rxPktLarge),
      ("rx_pkt_small", s.rxPktSmall), ("rx_undersize", s.rxUndersize), ("rx_frag", s.rxFrag),
      ("rx_oversize", s.rxOversize), ("rx_toolong", s.rxToolong), ("rx_jabber", s.rxJabber),
      ("rx_bad_fcs", s.rxBadFcs), ("rx_pkt_bad_fcs", s.rxPktBadFcs),
      ("rx_stomped_fcs", s.rxStompedFcs), ("rx_unicast", s.rxUnicast),
      ("rx_multicast", s.rxMulticast), ("rx_broadcast", s.rxBroadcast), ("rx_vlan", s.rxVlan),
      ("rx_pause", s.rxPause), ("rx_user_pause", s.rxUserPause),
      ("rx_in_range_err", s.rxInRangeErr), ("rx_truncated", s.rxTruncated)]
    else []

/-- `printf("(CMAC) %-25s %10u\n", #field, field)`. -/
def printField (field : String × BitVec 32) : String :=
  "(CMAC) " ++ formatLeft 25 field.1 ++ " " ++ formatRight 10 (dec field.2) ++ "\n"

/-- `print`, as one text. -/
def print (s : CmacStats) (debug : Bool := false) : String :=
  String.join ((s.printedFields debug).map printField) ++ "\n"

end CmacStats

/-- What `print_packet_adaptor_stats` reads. -/
structure AdaptorStats where
  txPkts : BitVec 32
  txPktsDrop : BitVec 32
  rxPkts : BitVec 32
  rxPktsDrop : BitVec 32
  rxPktsErr : BitVec 32
deriving Repr, DecidableEq

namespace AdaptorStats

/-- What it prints: `rx_pkts` twice. -/
def text (a : AdaptorStats) (cmacId : Int) : String :=
  s!"Packet adaptor stats for port {cmacId}\n"
    ++ "tx_pkts: " ++ dec a.txPkts ++ "\n"
    ++ "tx_pkts_drop: " ++ dec a.txPktsDrop ++ "\n"
    ++ "rx_pkts: " ++ dec a.rxPkts ++ "\n"
    ++ "rx_pkts_drop: " ++ dec a.rxPktsDrop ++ "\n"
    ++ "rx_pkts_err: " ++ dec a.rxPkts ++ "\n\n"

/-- Its accesses, with these values. -/
def accesses (a : AdaptorStats) (o : Onic) (cmacId : Int) : List CardCall :=
  [(cmacAdptOffsetTxPktRecv cmacId, a.txPkts), (cmacAdptOffsetTxPktDrop cmacId, a.txPktsDrop),
    (cmacAdptOffsetRxPktRecv cmacId, a.rxPkts), (cmacAdptOffsetRxPktDrop cmacId, a.rxPktsDrop),
    (cmacAdptOffsetRxPktError cmacId, a.rxPktsErr)].map fun r =>
      .reg (.read o.configPortId o.axilBarId r.1 r.2)

end AdaptorStats

namespace MonitorLoop

open CardBringUp

/-- `oldStats_0` and `oldStats_1`. -/
structure Monitor where
  oldStats0 : CmacStats := {}
  oldStats1 : CmacStats := {}
deriving Repr, DecidableEq

abbrev Watch (α : Type) := Prog Empty Monitor CardCall α

section Programs

variable {ε σ : Type} (dev : Device) (onic0 onic1 : Onic)

def readPacketAdaptorStats (o : Onic) (cmacId : Int) : Prog ε σ CardCall AdaptorStats := do
  let txPkts ← o.readReg dev.bus (cmacAdptOffsetTxPktRecv cmacId)
  let txPktsDrop ← o.readReg dev.bus (cmacAdptOffsetTxPktDrop cmacId)
  let rxPkts ← o.readReg dev.bus (cmacAdptOffsetRxPktRecv cmacId)
  let rxPktsDrop ← o.readReg dev.bus (cmacAdptOffsetRxPktDrop cmacId)
  let rxPktsErr ← o.readReg dev.bus (cmacAdptOffsetRxPktError cmacId)
  return ⟨txPkts, txPktsDrop, rxPkts, rxPktsDrop, rxPktsErr⟩

def printPacketAdaptorStats (o : Onic) (cmacId : Int) : Prog ε σ CardCall Unit := do
  let a ← readPacketAdaptorStats dev o cmacId
  printf (a.text cmacId)

def stars : String := "********************************************************** "

/-- The body of the two tests. -/
def report (stats0 stats1 : CmacStats) : Watch Unit := do
  update fun _ => ⟨stats0, stats1⟩
  printPacketAdaptorStats dev onic0 0
  printf stats0.print
  printPacketAdaptorStats dev onic1 1
  printf stats1.print
  printf stars

def reportIfNew (stats0 stats1 : CmacStats) : Watch Unit := do
  let old := (← get).state
  if stats0.rxTotalPkts ≠ old.oldStats0.rxTotalPkts
      ∨ stats1.rxTotalPkts ≠ old.oldStats1.rxTotalPkts then
    if stats0.rxTotalPkts ≠ 0#32 ∨ stats1.rxTotalPkts ≠ 0#32 then
      report dev onic0 onic1 stats0 stats1
    else return ()
  else return ()

def monitorRound : Watch Unit := do
  let stats0 ← onic0.getCmacStats dev.bus 0
  let stats1 ← onic1.getCmacStats dev.bus 1
  reportIfNew dev onic0 onic1 stats0 stats1
  call (.sleep 1)

/-- `sigkill` was set in the `n`-th round. -/
def monitorLoop (n : Nat) : Watch Unit :=
  (List.range n).forM fun _ => monitorRound dev onic0 onic1

end Programs

/-! ## Rounds -/

/-- What was read in a round; the adaptors only where it is reported. -/
structure Round where
  stats0 : CmacStats
  stats1 : CmacStats
  adaptor0 : AdaptorStats
  adaptor1 : AdaptorStats

/-- What the tests look at. -/
abbrev Counts := BitVec 32 × BitVec 32

def Round.counts (r : Round) : Counts := (r.stats0.rxTotalPkts, r.stats1.rxTotalPkts)

def Monitor.counts (m : Monitor) : Counts := (m.oldStats0.rxTotalPkts, m.oldStats1.rxTotalPkts)

/-- The four texts of a report, and the line behind them. -/
def Round.texts (r : Round) : List String :=
  [r.adaptor0.text 0, r.stats0.print, r.adaptor1.text 1, r.stats1.print, stars]

/-- Something was received, and not what was received in the round printed last. -/
def Shown (last : Counts) (r : Round) : Prop := r.counts ≠ last ∧ r.counts ≠ (0#32, 0#32)

instance (last : Counts) (r : Round) : Decidable (Shown last r) :=
  inferInstanceAs (Decidable (_ ∧ _))

/-- The rounds that are reported, from the counts printed last on. -/
def reported : Counts → List Round → List Round
  | _, [] => []
  | last, r :: rest =>
      if Shown last r then r :: reported r.counts rest else reported last rest

def printed : CardCall → Option String
  | .print text => some text
  | _ => none

section Runs

variable (ε : Type) {σ : Type} (dev : Device) (onic0 onic1 : Onic)

def reportCalls (r : Round) : List CardCall :=
  r.adaptor0.accesses onic0 0 ++ [.print (r.adaptor0.text 0), .print r.stats0.print]
    ++ r.adaptor1.accesses onic1 1 ++ [.print (r.adaptor1.text 1), .print r.stats1.print]
    ++ [.print stars]

/-- The calls of a round. -/
def roundCalls (last : Counts) (r : Round) : List CardCall :=
  (onic0.cmacAccesses 0 r.stats0).map .reg ++ (onic1.cmacAccesses 1 r.stats1).map .reg
    ++ (if Shown last r then reportCalls onic0 onic1 r else []) ++ [.sleep 1]

/-- The calls of a run of the loop. -/
def watchCalls : Counts → List Round → List CardCall
  | _, [] => []
  | last, r :: rest =>
      roundCalls onic0 onic1 last r
        ++ watchCalls (if Shown last r then r.counts else last) rest

theorem readPacketAdaptorStats_run (o : Onic) (cmacId : Int) (s : Logged σ CardCall) :
    ∃ a : AdaptorStats, (readPacketAdaptorStats dev o cmacId : Prog ε σ CardCall AdaptorStats) s
      = .ok a ⟨s.state, s.calls ++ a.accesses o cmacId⟩ := by
  refine ⟨?a, ?run⟩
  case run =>
    simp only [readPacketAdaptorStats, run_bind, Onic.readReg_run, run_pure, List.append_assoc]
    rfl

theorem printPacketAdaptorStats_run (o : Onic) (cmacId : Int) (s : Logged σ CardCall) :
    ∃ a : AdaptorStats, (printPacketAdaptorStats dev o cmacId : Prog ε σ CardCall Unit) s
      = .ok () ⟨s.state, s.calls ++ a.accesses o cmacId ++ [.print (a.text cmacId)]⟩ := by
  obtain ⟨a, hrun⟩ := readPacketAdaptorStats_run ε dev o cmacId s
  exact ⟨a, bind_ok hrun⟩

theorem report_run (stats0 stats1 : CmacStats) (s : Logged Monitor CardCall) :
    ∃ r : Round, r.stats0 = stats0 ∧ r.stats1 = stats1
      ∧ report dev onic0 onic1 stats0 stats1 s
        = .ok () ⟨⟨stats0, stats1⟩, s.calls ++ reportCalls onic0 onic1 r⟩ := by
  obtain ⟨a₀, hrun₀⟩ := printPacketAdaptorStats_run Empty dev onic0 0
    ⟨Monitor.mk stats0 stats1, s.calls⟩
  obtain ⟨a₁, hrun₁⟩ := printPacketAdaptorStats_run Empty dev onic1 1 ⟨Monitor.mk stats0 stats1,
    s.calls ++ a₀.accesses onic0 0 ++ [.print (a₀.text 0)] ++ [.print stats0.print]⟩
  refine ⟨⟨stats0, stats1, a₀, a₁⟩, rfl, rfl, ?_⟩
  simp only [report, bind_ok (run_update s _), bind_ok hrun₀, printf, bind_ok (run_call _ _),
    bind_ok hrun₁, run_call]
  simp [reportCalls]

theorem ne_counts_iff {a b c d : BitVec 32} : (a, b) ≠ (c, d) ↔ a ≠ c ∨ b ≠ d := by
  rw [ne_eq, Prod.mk.injEq, not_and_or]

/-- The two tests of the source are those of `Shown`. -/
theorem reportIfNew_run (stats0 stats1 : CmacStats) (s : Logged Monitor CardCall) :
    ∃ r : Round, r.stats0 = stats0 ∧ r.stats1 = stats1
      ∧ reportIfNew dev onic0 onic1 stats0 stats1 s
        = .ok () ⟨if Shown s.state.counts r then ⟨stats0, stats1⟩ else s.state,
          s.calls ++ if Shown s.state.counts r then reportCalls onic0 onic1 r else []⟩ := by
  obtain ⟨r, h0, h1, hreport⟩ := report_run dev onic0 onic1 stats0 stats1 s
  refine ⟨r, h0, h1, ?_⟩
  subst h0 h1
  rw [reportIfNew, bind_ok (run_get s)]
  by_cases hnew : r.counts ≠ s.state.counts
  · rw [if_pos (ne_counts_iff.mp hnew)]
    by_cases hsome : r.counts ≠ (0#32, 0#32)
    · rw [if_pos (ne_counts_iff.mp hsome), hreport, if_pos ⟨hnew, hsome⟩, if_pos ⟨hnew, hsome⟩]
    · rw [if_neg fun h => hsome (ne_counts_iff.mpr h), if_neg fun h => hsome h.2,
        if_neg fun h => hsome h.2, List.append_nil]
      rfl
  · rw [if_neg fun h => hnew (ne_counts_iff.mpr h), if_neg fun h => hnew h.1,
      if_neg fun h => hnew h.1, List.append_nil]
    rfl

/-- The counts printed last decide what the round does. -/
theorem monitorRound_run (s : Logged Monitor CardCall) : ∃ r s',
    monitorRound dev onic0 onic1 s = .ok () s'
      ∧ s'.calls = s.calls ++ roundCalls onic0 onic1 s.state.counts r
      ∧ s'.state.counts = if Shown s.state.counts r then r.counts else s.state.counts := by
  obtain ⟨stats0, hrun0⟩ := onic0.getCmacStats_run dev.bus 0 s
  obtain ⟨stats1, hrun1⟩ := onic1.getCmacStats_run dev.bus 1
    ⟨s.state, s.calls ++ (onic0.cmacAccesses 0 stats0).map dev.bus.record⟩
  obtain ⟨r, rfl, rfl, hrun⟩ := reportIfNew_run dev onic0 onic1 stats0 stats1 ⟨s.state, s.calls
    ++ (onic0.cmacAccesses 0 stats0).map dev.bus.record
    ++ (onic1.cmacAccesses 1 stats1).map dev.bus.record⟩
  refine ⟨r, ?_, ?run, ?calls, ?counts⟩
  case run =>
    rw [monitorRound, bind_ok hrun0, bind_ok hrun1, bind_ok hrun]
    rfl
  case calls =>
    simp only [roundCalls, List.append_assoc]
    rfl
  case counts => exact apply_ite Monitor.counts _ _ _

theorem monitorRounds_run (l : List Nat) (s : Logged Monitor CardCall) :
    ∃ rounds s', rounds.length = l.length
      ∧ l.forM (fun _ => monitorRound dev onic0 onic1) s = .ok () s'
      ∧ s'.calls = s.calls ++ watchCalls onic0 onic1 s.state.counts rounds := by
  induction l generalizing s with
  | nil => exact ⟨[], s, rfl, rfl, (List.append_nil _).symm⟩
  | cons k l ih =>
      obtain ⟨r, s₁, hrun, hcalls, hcounts⟩ := monitorRound_run dev onic0 onic1 s
      obtain ⟨rounds, s₂, hlen, hrest, hcalls'⟩ := ih s₁
      refine ⟨r :: rounds, s₂, congrArg (· + 1) hlen, (forM_cons_ok (b := k) hrun).trans hrest, ?_⟩
      rw [hcalls', hcalls, hcounts, watchCalls, List.append_assoc]

end Runs

/-! ## The printed texts -/

theorem filterMap_printed_reg (l : List RegCall) :
    (l.map CardCall.reg).filterMap printed = [] := by
  rw [List.filterMap_map, List.filterMap_eq_nil_iff]
  exact fun _ _ => rfl

theorem printed_roundCalls (onic0 onic1 : Onic) (last : Counts) (r : Round) :
    (roundCalls onic0 onic1 last r).filterMap printed = if Shown last r then r.texts else [] := by
  simp only [roundCalls, List.filterMap_append, filterMap_printed_reg, List.nil_append]
  split
  · rfl
  · rfl

theorem printed_watchCalls (onic0 onic1 : Onic) (last : Counts) (rounds : List Round) :
    (watchCalls onic0 onic1 last rounds).filterMap printed
      = (reported last rounds).flatMap Round.texts := by
  induction rounds generalizing last with
  | nil => rfl
  | cons r rest ih =>
      rw [watchCalls, List.filterMap_append, printed_roundCalls, ih, reported]
      by_cases h : Shown last r
      · simp only [if_pos h, List.flatMap_cons]
      · simp only [if_neg h, List.nil_append]

/-- Behind counts that are not zero, the reported ones are those that differ
from the ones before them, once the readings of zero are left out. -/
theorem reported_counts (last : Counts) (rounds : List Round) :
    last :: (reported last rounds).map Round.counts
      = ((rounds.map Round.counts).filter (· ≠ (0#32, 0#32))).destutter' (· ≠ ·) last := by
  induction rounds generalizing last with
  | nil => rfl
  | cons r rest ih =>
      rw [reported, List.map_cons]
      by_cases hsome : r.counts ≠ (0#32, 0#32)
      · have hkept : (r.counts :: rest.map Round.counts).filter (· ≠ (0#32, 0#32))
            = r.counts :: (rest.map Round.counts).filter (· ≠ (0#32, 0#32)) :=
          List.filter_cons_of_pos (by simpa using hsome)
        rw [hkept]
        by_cases hnew : last ≠ r.counts
        · rw [if_pos ⟨hnew.symm, hsome⟩, List.destutter'_cons_pos _ hnew, ← ih, List.map_cons]
        · rw [if_neg fun h => hnew h.1.symm, List.destutter'_cons_neg _ hnew, ← ih]
      · have hleft : (r.counts :: rest.map Round.counts).filter (· ≠ (0#32, 0#32))
            = (rest.map Round.counts).filter (· ≠ (0#32, 0#32)) :=
          List.filter_cons_of_neg (by simpa using hsome)
        rw [if_neg fun h => hsome h.2, hleft, ih]

/-- A run of `n` rounds from the start, for any devices. The reported rounds are
those whose counts are not zero and not the ones reported before; a report has
the texts of its round, and nothing else is printed. -/
theorem monitor_reports (dev : Device) (onic0 onic1 : Onic) (n : Nat) (calls : List CardCall) :
    ∃ rounds s', rounds.length = n ∧ monitorLoop dev onic0 onic1 n ⟨{}, calls⟩ = .ok () s'
      ∧ s'.calls = calls ++ watchCalls onic0 onic1 (0#32, 0#32) rounds
      ∧ (watchCalls onic0 onic1 (0#32, 0#32) rounds).filterMap printed
        = (reported (0#32, 0#32) rounds).flatMap Round.texts
      ∧ (reported (0#32, 0#32) rounds).map Round.counts
        = ((rounds.map Round.counts).filter (· ≠ (0#32, 0#32))).destutter (· ≠ ·) := by
  obtain ⟨rounds, s', hlen, hrun, hcalls⟩ :=
    monitorRounds_run dev onic0 onic1 (List.range n) ⟨{}, calls⟩
  refine ⟨rounds, s', ?_, hrun, hcalls, printed_watchCalls _ _ _ _, ?_⟩
  · rw [hlen, List.length_range]
  · have hcounts := reported_counts (0#32, 0#32) rounds
    cases hsome : (rounds.map Round.counts).filter (· ≠ (0#32, 0#32)) with
    | nil =>
        rw [hsome] at hcounts
        exact (List.cons.inj hcounts).2
    | cons first rest =>
        have hne : (0#32, 0#32) ≠ first := by
          have hmem : first ∈ (rounds.map Round.counts).filter (· ≠ (0#32, 0#32)) := by
            rw [hsome]
            exact List.mem_cons_self
          exact (of_decide_eq_true (List.mem_filter.mp hmem).2).symm
        rw [hsome, List.destutter'_cons_pos _ hne] at hcounts
        exact (List.cons.inj hcounts).2

end MonitorLoop

end P2pInspection
