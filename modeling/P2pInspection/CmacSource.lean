import P2pInspection.MainContexts
import P2pInspection.ProducerLoops

/-!
# Where the CMAC statistics come from

Three numberings meet in `run_cmac_producer`: the index of a port on its card,
which is also the number of its CMAC, the id DPDK gives the port, and the index
in the register map. `attributed_iff` says when the registers read for a message
are those of the two interfaces the context names.
-/

namespace P2pInspection

open CallTrace StatsLog

/-- The cards of a process, each set up as `main` does, with the configuration
port and the register BAR left to the constructor. No two ports have one id. -/
structure Cards (Card : Type) where
  ports : Card → Nat → OnicPort
  distinct : ∀ {o o' : Card} {i i' : Nat}, i < nbPorts → i' < nbPorts →
    (ports o i).portId = (ports o' i').portId → o = o' ∧ i = i'

namespace CmacSource

variable {Card : Type}

def onic (C : Cards Card) (o : Card) : Onic := Onic.setup (C.ports o) (-1) (-1)

/-- The ids stand for the cards: each is reached through a port of its own. -/
theorem configPortId_inj (C : Cards Card) {o o' : Card}
    (h : (onic C o).configPortId = (onic C o').configPortId) : o = o' := by
  have hzero : 0 < nbPorts := by decide
  exact (C.distinct hzero hzero h).1

/-! ## Messages and the register accesses before them -/

def cmacStats? : Message → Option (CmacStats × CmacStats)
  | .cmac _ _ _ rxStats txStats _ => some (rxStats, txStats)
  | _ => none

/-- The totals of one CMAC, then those of the other. -/
def totals (rx tx : Onic) (rxCmac txCmac : Int) (rxStats txStats : CmacStats) : List Effect :=
  (rx.cmacAccesses rxCmac rxStats ++ tx.cmacAccesses txCmac txStats).map .reg

/-- Whenever a message with CMAC statistics is produced, its (R) values were
just read from CMAC `rxCmac` of `rx` and its (T) values from CMAC `txCmac` of `tx`. -/
def ReadFrom (rx tx : Onic) (rxCmac txCmac : Int) (calls : List Effect) : Prop :=
  ∀ pre msg post, calls = pre ++ .produced msg :: post →
    ∀ rxStats txStats, cmacStats? msg = some (rxStats, txStats) → ∃ before tsc,
      pre = before ++ totals rx tx rxCmac txCmac rxStats txStats ++ [.tscCycles tsc]

section Logs

variable (rx tx : Onic) (rxCmac txCmac : Int)

/-- If the call produces a message, its values were just read. -/
def JustRead (pre : List Effect) (c : Effect) : Prop :=
  ∀ msg, c = .produced msg → ∀ rxStats txStats, cmacStats? msg = some (rxStats, txStats) →
    ∃ before tsc,
      pre = before ++ totals rx tx rxCmac txCmac rxStats txStats ++ [.tscCycles tsc]

variable {rx tx rxCmac txCmac} {l l' : List Effect}

theorem readFrom_iff :
    ReadFrom rx tx rxCmac txCmac l ↔ Justified (JustRead rx tx rxCmac txCmac) l := by
  constructor
  · rintro h pre c post heq msg rfl
    exact h pre msg post heq
  · intro h pre msg post heq
    exact h pre (.produced msg) post heq msg rfl

theorem ReadFrom.append (h : ReadFrom rx tx rxCmac txCmac l)
    (h' : ReadFrom rx tx rxCmac txCmac l') : ReadFrom rx tx rxCmac txCmac (l ++ l') := by
  rw [readFrom_iff] at *
  refine justified_append_iff.mpr ⟨h, h'.mono fun pre c hc msg heq rxStats txStats hmsg => ?_⟩
  obtain ⟨before, tsc, rfl⟩ := hc msg heq rxStats txStats hmsg
  exact ⟨l ++ before, tsc, by simp⟩

theorem ReadFrom.of_append (h : ReadFrom rx tx rxCmac txCmac (l ++ l')) :
    ReadFrom rx tx rxCmac txCmac l :=
  readFrom_iff.mpr (justified_append_iff.mp (readFrom_iff.mp h)).1

theorem readFrom_of_silent (h : ∀ msg, .produced msg ∉ l) : ReadFrom rx tx rxCmac txCmac l := by
  rw [readFrom_iff]
  refine justified_of_forall fun pre c hc msg heq => ?_
  exact absurd (heq ▸ hc) (h msg)

theorem composes_readFrom :
    Composes fun (_ : StatsLog) calls _ => ReadFrom rx tx rxCmac txCmac calls :=
  ⟨fun _ => readFrom_of_silent fun _ => List.not_mem_nil, fun h h' => h.append h'⟩

/-- A stretch with one message at its end. -/
theorem readFrom_snoc (hl : ∀ msg, .produced msg ∉ l) {msg : Message}
    {rxStats txStats : CmacStats} (hmsg : cmacStats? msg = some (rxStats, txStats)) :
    ReadFrom rx tx rxCmac txCmac (l ++ [.produced msg]) ↔ ∃ before tsc,
      l = before ++ totals rx tx rxCmac txCmac rxStats txStats ++ [.tscCycles tsc] := by
  rw [readFrom_iff, justified_snoc_iff]
  constructor
  · rintro ⟨-, hlast⟩
    exact hlast msg rfl rxStats txStats hmsg
  · intro hbefore
    refine ⟨readFrom_iff.mp (readFrom_of_silent hl), fun msg' heq rxStats' txStats' hmsg' => ?_⟩
    obtain rfl := Effect.produced.inj heq
    obtain ⟨rfl, rfl⟩ := Prod.mk.inj (Option.some.inj (hmsg.symm.trans hmsg'))
    exact hbefore

theorem totals_silent (rxStats txStats : CmacStats) (tsc : BitVec 64) (msg : Message) :
    .produced msg ∉ totals rx tx rxCmac txCmac rxStats txStats ++ [.tscCycles tsc] := by
  simp [totals]

theorem totals_length (rxStats txStats : CmacStats) :
    (totals rx tx rxCmac txCmac rxStats txStats).length = 18 := by
  simp [totals, Onic.cmacAccesses]

end Logs

/-! ## Equal accesses -/

theorem cmacAccesses_congr {i i' : Int} (h : cmacOffset i = cmacOffset i') (o : Onic)
    (stats : CmacStats) : o.cmacAccesses i stats = o.cmacAccesses i' stats := by
  simp only [Onic.cmacAccesses, cmacOffsetTick, cmacOffsetStatTxTotalPkts,
    cmacOffsetStatTxTotalGoodPkts, cmacOffsetStatTxTotalBytes, cmacOffsetStatTxTotalGoodBytes,
    cmacOffsetStatRxTotalPkts, cmacOffsetStatRxTotalGoodPkts, cmacOffsetStatRxTotalBytes,
    cmacOffsetStatRxTotalGoodBytes, h]

theorem cmacAccesses_inj {o o' : Onic} {i i' : Int} {stats stats' : CmacStats}
    (h : o.cmacAccesses i stats = o'.cmacAccesses i' stats') :
    o.configPortId = o'.configPortId ∧ cmacOffset i = cmacOffset i' := by
  obtain ⟨hport, -, htick, -⟩ := RegCall.write.inj (List.head_eq_of_cons_eq h)
  exact ⟨hport, (BitVec.add_left_inj _).mp htick⟩

/-- The accesses the code makes, on one card, are those of two interfaces. -/
theorem totals_eq_iff (C : Cards Card) {o o' : Card} {id id' i i' : Int}
    {rxStats txStats : CmacStats} :
    totals (onic C o) (onic C o) id id' rxStats txStats
        = totals (onic C o) (onic C o') i i' rxStats txStats
      ↔ (id = 0 ↔ i = 0) ∧ o' = o ∧ (id' = 0 ↔ i' = 0) := by
  rw [← cmacOffset_eq_iff, ← cmacOffset_eq_iff]
  constructor
  · intro h
    have hmap := List.map_injective_iff.mpr (fun _ _ => Effect.reg.inj) h
    obtain ⟨hrx, htx⟩ := List.append_inj hmap (by simp [Onic.cmacAccesses])
    obtain ⟨hport, hoff'⟩ := cmacAccesses_inj htx
    exact ⟨(cmacAccesses_inj hrx).2, (configPortId_inj C hport).symm, hoff'⟩
  · rintro ⟨hoff, rfl, hoff'⟩
    rw [totals, cmacAccesses_congr hoff, cmacAccesses_congr hoff', ← totals]

/-! ## The producer -/

section Producer

variable (C : Cards Card) (answer : List Effect → Int → Int → BitVec 32 → BitVec 32)
variable (coreId : BitVec 32) (ctx : ForwardingContext Card)

def rxPortId : BitVec 16 := (C.ports ctx.rxOnic ctx.rxPort).getPortId
def txPortId : BitVec 16 := (C.ports ctx.txOnic ctx.txPort).getPortId

/-- The registers of the interfaces the context names, read for every message. -/
def Attributed (calls : List Effect) : Prop :=
  ReadFrom (onic C ctx.rxOnic) (onic C ctx.txOnic) ctx.rxPort ctx.txPort calls

/-- Both interfaces are on one card, and an id is 0 where the index of the port is 0. -/
structure SameNumbers : Prop where
  rx : rxPortId C ctx = 0#16 ↔ ctx.rxPort = 0
  card : ctx.txOnic = ctx.rxOnic
  tx : txPortId C ctx = 0#16 ↔ ctx.txPort = 0

/-- A round, and what it leaves in the calls. -/
theorem cmacRound_run (tsc : BitVec 64) (s : Logged StatsLog Effect) :
    ∃ rxStats txStats msg l, cmacStats? msg = some (rxStats, txStats)
      ∧ cmacRound (cardBus answer) (onic C) coreId ctx tsc s = .ok () ⟨l, s.calls
        ++ (totals (onic C ctx.rxOnic) (onic C ctx.rxOnic) (rxPortId C ctx).toNat
          (txPortId C ctx).toNat rxStats txStats ++ [.tscCycles tsc] ++ [.produced msg])⟩ := by
  have hstats : ∀ (cmacId : Int) (s : Logged StatsLog Effect), ∃ stats,
      ((onic C ctx.rxOnic).getCmacStats (cardBus answer) cmacId : Produce CmacStats) s
        = .ok stats ⟨s.state, s.calls ++ ((onic C ctx.rxOnic).cmacAccesses cmacId stats).map
          (cardBus answer).record⟩ := (onic C ctx.rxOnic).getCmacStats_run (cardBus answer)
  obtain ⟨rxStats, hrx⟩ := hstats (rxPortId C ctx).toNat s
  obtain ⟨txStats, htx⟩ := hstats (txPortId C ctx).toNat
    ⟨s.state, s.calls ++ ((onic C ctx.rxOnic).cmacAccesses (rxPortId C ctx).toNat rxStats).map
      (cardBus answer).record⟩
  refine ⟨rxStats, txStats, .cmac coreId (C.ports ctx.rxOnic ctx.rxPort)
    (C.ports ctx.txOnic ctx.txPort) rxStats txStats
    (getTscDeltaNs s.state.oldTime tsc s.state.hz), ⟨s.state.hz, tsc, tsc⟩, rfl, ?_⟩
  refine (bind_ok hrx).trans ((bind_ok htx).trans ((report_run ..).trans ?_))
  simp only [totals, cardBus, List.map_append, List.append_assoc, List.singleton_append]
  rfl

theorem obeys_cmacRound {R : StatsLog → List Effect → StatsLog → Prop} (tsc : BitVec 64)
    (h : ∀ l l' rxStats txStats msg, cmacStats? msg = some (rxStats, txStats) →
      R l (totals (onic C ctx.rxOnic) (onic C ctx.rxOnic) (rxPortId C ctx).toNat
        (txPortId C ctx).toNat rxStats txStats ++ [.tscCycles tsc] ++ [.produced msg]) l') :
    Obeys R (cmacRound (cardBus answer) (onic C) coreId ctx tsc) := by
  intro s
  obtain ⟨rxStats, txStats, msg, l, hmsg, hrun⟩ := cmacRound_run C answer coreId ctx tsc s
  rw [hrun]
  exact ⟨_, rfl, h s.state l rxStats txStats msg hmsg⟩

/-- One round on its own. -/
theorem attributed_round_iff (tsc : BitVec 64) {rxStats txStats : CmacStats} {msg : Message}
    (hmsg : cmacStats? msg = some (rxStats, txStats)) :
    Attributed C ctx (totals (onic C ctx.rxOnic) (onic C ctx.rxOnic) (rxPortId C ctx).toNat
        (txPortId C ctx).toNat rxStats txStats ++ [.tscCycles tsc] ++ [.produced msg])
      ↔ SameNumbers C ctx := by
  have hsame : SameNumbers C ctx ↔ totals (onic C ctx.rxOnic) (onic C ctx.rxOnic)
      (rxPortId C ctx).toNat (txPortId C ctx).toNat rxStats txStats
        = totals (onic C ctx.rxOnic) (onic C ctx.txOnic) ctx.rxPort ctx.txPort rxStats txStats := by
    have hzero : ∀ x : BitVec 16, (x.toNat : Int) = 0 ↔ x = 0#16 := fun x => by
      rw [Int.natCast_eq_zero, ← BitVec.toNat_inj]
      rfl
    rw [totals_eq_iff, hzero, hzero, Int.natCast_eq_zero, Int.natCast_eq_zero]
    exact ⟨fun h => ⟨h.rx, h.card, h.tx⟩, fun h => ⟨h.1, h.2.1, h.2.2⟩⟩
  rw [Attributed, readFrom_snoc (totals_silent _ _ _) hmsg, hsame]
  constructor
  · rintro ⟨before, tsc', heq⟩
    have hbefore := (List.append_inj' heq rfl).1
    have hlen := congrArg List.length hbefore
    rw [List.length_append, totals_length, totals_length] at hlen
    obtain rfl := List.length_eq_zero_iff.mp (show before.length = 0 by omega)
    exact hbefore
  · intro heq
    exact ⟨[], tsc, by rw [heq, List.nil_append]⟩

variable (l : StatsLog)

/-- The calls of a run of `run_cmac_producer`. -/
def calls (rounds : List (BitVec 64)) : List Effect :=
  (after (cmacProducerLoop (cardBus answer) (onic C) coreId ctx rounds ⟨l, []⟩)).calls

/-- A run that produces a message reads the right registers for all of them,
exactly when the three numberings agree on the interfaces of the context. -/
theorem attributed_iff (rounds : List (BitVec 64)) :
    Attributed C ctx (calls C answer coreId ctx l rounds)
      ↔ rounds = [] ∨ SameNumbers C ctx := by
  rw [calls, cmacProducerLoop, after_bind_pure]
  constructor
  · intro hattr
    cases rounds with
    | nil => exact Or.inl rfl
    | cons tsc rounds =>
        obtain ⟨rxStats, txStats, msg, l', hmsg, hrun⟩ :=
          cmacRound_run C answer coreId ctx tsc ⟨l, []⟩
        have hrest : Obeys (fun _ _ _ => True)
            (rounds.forM (cmacRound (cardBus answer) (onic C) coreId ctx)) :=
          .forM ⟨fun _ => trivial, fun _ _ => trivial⟩ _ fun tsc _ =>
            obeys_cmacRound C answer coreId ctx tsc fun _ _ _ _ _ _ => trivial
        obtain ⟨new, hnew, -⟩ := hrest ⟨l', _⟩
        rw [forM_cons_ok hrun, hnew] at hattr
        exact Or.inr ((attributed_round_iff C ctx tsc hmsg).mp hattr.of_append)
  · intro hsame
    rcases hsame with rfl | hsame
    · exact readFrom_of_silent fun _ => List.not_mem_nil
    · have hobeys : Obeys (fun _ new _ => Attributed C ctx new)
          (rounds.forM (cmacRound (cardBus answer) (onic C) coreId ctx)) :=
        .forM composes_readFrom _ fun tsc _ => obeys_cmacRound C answer coreId ctx tsc
          fun _ _ rxStats txStats msg hmsg => (attributed_round_iff C ctx tsc hmsg).mpr hsame
      obtain ⟨new, hnew, hattr⟩ := hobeys ⟨l, []⟩
      rw [hnew]
      exact hattr

end Producer

/-! ## The cards of `main` -/

/-- Port `i` of a card, with the id `main` gives it. -/
def mainPorts (o : MainContexts.Card) (i : Nat) : OnicPort :=
  ⟨{ socketId := 0#32, portUpdateLock := 0#32, memPool := "" },
    match o with
    | .onic0 => i
    | .onic1 => 2 + i, 0#32, 0#32, 0#32⟩

def mainCards : Cards MainContexts.Card where
  ports := mainPorts
  distinct {o o' i i'} hi hi' heq := by
    have hi2 : i < 2 := hi
    have hi2' : i' < 2 := hi'
    cases o <;> cases o' <;> simp only [mainPorts] at heq
    · exact ⟨rfl, by omega⟩
    · omega
    · omega
    · exact ⟨rfl, by omega⟩

/-- The context `main` launches forwards from port 1 of `onic1` to its port 0,
whose id is 2: its (T) values are those of the other CMAC. -/
theorem launched_not_attributed : ¬Attributed mainCards (MainContexts.ctx 3)
    (calls mainCards (fun _ _ _ _ => 0#32) 0#32 (MainContexts.ctx 3) ⟨0#64, 0#64, 0#64⟩
      [0#64]) := by
  intro hattr
  obtain ⟨rxStats, txStats, msg, l', hmsg, hrun⟩ := cmacRound_run mainCards
    (fun _ _ _ _ => 0#32) 0#32 (MainContexts.ctx 3) 0#64 ⟨⟨0#64, 0#64, 0#64⟩, []⟩
  rw [calls, cmacProducerLoop, after_bind_pure, forM_cons_ok hrun] at hattr
  have hsame := (attributed_round_iff mainCards (MainContexts.ctx 3) 0#64 hmsg).mp hattr
  exact absurd (hsame.tx.mpr rfl) (by decide)

end CmacSource

end P2pInspection
