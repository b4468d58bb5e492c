import P2pInspection.CmacFields

/-!
# What `get_cmac_stats` returns

While the registers keep their contents, every read finds them, and what the
function returns is the record of the registers it reads. With debugging it
reads every field's register but one, and puts the offset of that register in
its field (`faithful_iff`).
-/

namespace P2pInspection

open CallTrace

namespace Onic

section Contents

variable {ε σ κ : Type} (bus : Bus κ) (o : Onic)

/-- Behind these calls, and as long as only reads follow, the registers of the
card hold `regs`. -/
def Holds (regs : BitVec 32 → BitVec 32) (calls : List κ) : Prop :=
  ∀ (reads : List (BitVec 32 × BitVec 32)) (offset : BitVec 32),
    bus.answer (calls ++ reads.map fun r =>
      bus.record (.read o.configPortId o.axilBarId r.1 r.2)) o.configPortId o.axilBarId offset
        = regs offset

/-- The write that makes a CMAC move its counters to the registers. -/
def tick (cmacId : Int) : κ :=
  bus.record (.write o.configPortId o.axilBarId (cmacOffsetTick cmacId) 0b1#32)

variable {bus o} {regs : BitVec 32 → BitVec 32}

theorem returns_tick (cmacId : Int) :
    Returns (fun calls => o.Holds bus regs (calls ++ [o.tick bus cmacId]))
      (writeReg bus o (cmacOffsetTick cmacId) 0b1#32 : Prog ε σ κ Unit) ()
      (o.Holds bus regs) :=
  .call fun _ hholds => hholds

theorem returns_readReg (offset : BitVec 32) :
    Returns (o.Holds bus regs) (readReg bus o offset : Prog ε σ κ (BitVec 32)) (regs offset)
      (o.Holds bus regs) := by
  intro s hholds
  have hanswer : bus.answer s.calls o.configPortId o.axilBarId offset = regs offset := by
    simpa using hholds [] offset
  refine ⟨_, (readReg_run bus o offset s).trans (by rw [hanswer]), fun reads offset' => ?_⟩
  simpa using hholds ((offset, regs offset) :: reads) offset'

/-- What is read for a field, or what stands there instead. -/
def fieldValue (regs : BitVec 32 → BitVec 32) (cmacId : Int) (debug : Bool) (f : CmacField) :
    BitVec 32 :=
  if f.isTotal then regs (f.register cmacId)
  else if debug then
    if f = .rxPkt65To127 then f.register cmacId else regs (f.register cmacId)
  else 0#32

/-- The totals of the sent packets are kept, everything else is set again. -/
theorem returns_getCmacDebugStats (cmacId : Int) {stats : CmacStats}
    (hstats : ∀ f, f.isTotal = true → stats.get f = regs (f.register cmacId)) :
    ∃ stats', Returns (o.Holds bus regs)
        (getCmacDebugStats bus o cmacId stats : Prog ε σ κ CmacStats) stats' (o.Holds bus regs)
      ∧ ∀ f, stats'.get f = fieldValue regs cmacId true f := by
  refine ⟨?stats, ?run, ?fields⟩
  case run =>
    unfold getCmacDebugStats
    iterate 4 refine (returns_readReg _).bind ?_
    dsimp only
    iterate 18 refine (returns_readReg _).bind ?_
    exact .pure _
  case fields =>
    intro f
    cases f
    case txTotalPkts => exact hstats .txTotalPkts rfl
    case txTotalGoodPkts => exact hstats .txTotalGoodPkts rfl
    case txTotalBytes => exact hstats .txTotalBytes rfl
    case txTotalGoodBytes => exact hstats .txTotalGoodBytes rfl
    all_goals rfl

/-- The record as it is before debugging. -/
def totals (regs : BitVec 32 → BitVec 32) (cmacId : Int) : CmacStats where
  txTotalPkts := regs (cmacOffsetStatTxTotalPkts cmacId)
  txTotalGoodPkts := regs (cmacOffsetStatTxTotalGoodPkts cmacId)
  txTotalBytes := regs (cmacOffsetStatTxTotalBytes cmacId)
  txTotalGoodBytes := regs (cmacOffsetStatTxTotalGoodBytes cmacId)
  rxTotalPkts := regs (cmacOffsetStatRxTotalPkts cmacId)
  rxTotalGoodPkts := regs (cmacOffsetStatRxTotalGoodPkts cmacId)
  rxTotalBytes := regs (cmacOffsetStatRxTotalBytes cmacId)
  rxTotalGoodBytes := regs (cmacOffsetStatRxTotalGoodBytes cmacId)

theorem totals_get (cmacId : Int) (f : CmacField) :
    (totals regs cmacId).get f = fieldValue regs cmacId false f := by
  cases f <;> rfl

theorem returns_getCmacStats (cmacId : Int) (debug : Bool) : ∃ stats,
    Returns (fun calls => o.Holds bus regs (calls ++ [o.tick bus cmacId]))
        (getCmacStats bus o cmacId debug : Prog ε σ κ CmacStats) stats (o.Holds bus regs)
      ∧ ∀ f, stats.get f = fieldValue regs cmacId debug f := by
  have hrun : ∀ stats, Returns (o.Holds bus regs)
      (if debug then getCmacDebugStats bus o cmacId (totals regs cmacId)
        else pure (totals regs cmacId) : Prog ε σ κ CmacStats) stats (o.Holds bus regs) →
      Returns (fun calls => o.Holds bus regs (calls ++ [o.tick bus cmacId]))
        (getCmacStats bus o cmacId debug : Prog ε σ κ CmacStats) stats (o.Holds bus regs) := by
    intro stats hrest
    unfold getCmacStats
    refine (returns_tick cmacId).bind ?_
    iterate 8 refine (returns_readReg _).bind ?_
    exact hrest
  cases debug with
  | false => exact ⟨_, hrun _ (.pure _), totals_get cmacId⟩
  | true =>
      have htotals : ∀ f, f.isTotal = true →
          (totals regs cmacId).get f = regs (f.register cmacId) :=
        fun f hf => (totals_get cmacId f).trans (if_pos hf)
      exact (returns_getCmacDebugStats cmacId htotals).imp
        fun stats hstats => ⟨hrun stats hstats.1, hstats.2⟩

/-! ## Snapshots -/

/-- Each snapshot shows its contents of the registers of the CMAC, and the two
differ in the fields whose registers do. -/
structure Faithful (cmacId : Int) (regs regs' : BitVec 32 → BitVec 32)
    (stats stats' : CmacStats) : Prop where
  first : ∀ f, stats.get f = regs (f.register cmacId)
  second : ∀ f, stats'.get f = regs' (f.register cmacId)
  differ : ∀ f, stats.get f ≠ stats'.get f
    ↔ regs (f.register cmacId) ≠ regs' (f.register cmacId)

/-- The register of a field holds its own offset. -/
def HoldsOwnOffset (f : CmacField) (regs : BitVec 32 → BitVec 32) (cmacId : Int) : Prop :=
  regs (f.register cmacId) = f.register cmacId

theorem fieldValue_eq_iff (cmacId : Int) (f : CmacField) :
    fieldValue regs cmacId true f = regs (f.register cmacId)
      ↔ f = .rxPkt65To127 → HoldsOwnOffset f regs cmacId := by
  unfold fieldValue HoldsOwnOffset
  cases f <;> simp [CmacField.isTotal, eq_comm]

theorem fieldValues_eq_iff (cmacId : Int) :
    (∀ f, fieldValue regs cmacId true f = regs (f.register cmacId))
      ↔ HoldsOwnOffset .rxPkt65To127 regs cmacId := by
  simp [fieldValue_eq_iff]

theorem get_of_getCmacStats {cmacId : Int} {debug : Bool} {stats : CmacStats} {s t : Logged σ κ}
    (hregs : o.Holds bus regs (s.calls ++ [o.tick bus cmacId]))
    (hrun : (getCmacStats bus o cmacId debug : Prog ε σ κ CmacStats) s = .ok stats t) :
    ∀ f, stats.get f = fieldValue regs cmacId debug f := by
  obtain ⟨stats', hreturns, hfields⟩ := returns_getCmacStats cmacId debug
  obtain ⟨t', hrun', -⟩ := hreturns s hregs
  obtain ⟨rfl, -⟩ := EStateM.Result.ok.inj (hrun'.symm.trans hrun)
  exact hfields

/-- Two snapshots of a CMAC are faithful exactly when its `RX_PKT_65_127_BYTES`
register holds its own offset both times. -/
theorem faithful_iff {regs regs' : BitVec 32 → BitVec 32} {cmacId : Int} {s s' : Logged σ κ}
    (hregs : o.Holds bus regs (s.calls ++ [o.tick bus cmacId]))
    (hregs' : o.Holds bus regs' (s'.calls ++ [o.tick bus cmacId])) :
    (∃ stats stats' t t',
        (getCmacStats bus o cmacId true : Prog ε σ κ CmacStats) s = .ok stats t
          ∧ (getCmacStats bus o cmacId true : Prog ε σ κ CmacStats) s' = .ok stats' t'
          ∧ Faithful cmacId regs regs' stats stats')
      ↔ HoldsOwnOffset .rxPkt65To127 regs cmacId ∧ HoldsOwnOffset .rxPkt65To127 regs' cmacId := by
  constructor
  · rintro ⟨stats, stats', t, t', ht, ht', hfaithful⟩
    have hfields := get_of_getCmacStats hregs ht
    have hfields' := get_of_getCmacStats hregs' ht'
    exact ⟨(fieldValues_eq_iff cmacId).mp fun f => (hfields f).symm.trans (hfaithful.first f),
      (fieldValues_eq_iff cmacId).mp fun f => (hfields' f).symm.trans (hfaithful.second f)⟩
  · rintro ⟨hown, hown'⟩
    obtain ⟨stats, hrun, hfields⟩ := returns_getCmacStats cmacId true
    obtain ⟨stats', hrun', hfields'⟩ := returns_getCmacStats cmacId true
    obtain ⟨t, ht, -⟩ := hrun s hregs
    obtain ⟨t', ht', -⟩ := hrun' s' hregs'
    have hfirst : ∀ f, stats.get f = regs (f.register cmacId) :=
      fun f => (hfields f).trans ((fieldValues_eq_iff cmacId).mpr hown f)
    have hsecond : ∀ f, stats'.get f = regs' (f.register cmacId) :=
      fun f => (hfields' f).trans ((fieldValues_eq_iff cmacId).mpr hown' f)
    exact ⟨stats, stats', t, t', ht, ht', hfirst, hsecond, fun f => by rw [hfirst, hsecond]⟩

end Contents

/-! ## Registers that never change -/

def constantBus (regs : BitVec 32 → BitVec 32) : Bus RegCall :=
  ⟨id, fun _ _ _ offset => regs offset⟩

theorem holds_constantBus (o : Onic) (regs : BitVec 32 → BitVec 32) (calls : List RegCall) :
    o.Holds (constantBus regs) regs calls :=
  fun _ _ => rfl

def oneCard : Onic :=
  ⟨fun _ => ⟨{ socketId := 0#32, portUpdateLock := 0#32, memPool := "" }, 0, 0#32, 0#32, 0#32⟩,
    0, 2⟩

/-- A snapshot of registers that hold what `regs` says. -/
def snapshot (regs : BitVec 32 → BitVec 32) (cmacId : Int) : Prog Empty Unit RegCall CmacStats :=
  getCmacStats (constantBus regs) oneCard cmacId true

theorem snapshot_run (regs : BitVec 32 → BitVec 32) (cmacId : Int) :
    ∃ stats t, snapshot regs cmacId ⟨(), []⟩ = .ok stats t
      ∧ ∀ f, stats.get f = fieldValue regs cmacId true f := by
  obtain ⟨stats, hreturns, hfields⟩ := returns_getCmacStats cmacId true
  obtain ⟨t, hrun, -⟩ := hreturns ⟨(), []⟩ (holds_constantBus oneCard regs _)
  exact ⟨stats, t, hrun, hfields⟩

/-- A CMAC that has counted nothing is said to have received 34352 packets of 65
to 127 bytes. -/
theorem idleCmac_not_faithful :
    (∃ stats t, snapshot (fun _ => 0#32) 0 ⟨(), []⟩ = .ok stats t
        ∧ stats.rxPkt65To127 = 34352#32)
      ∧ ¬∃ stats stats' t t', snapshot (fun _ => 0#32) 0 ⟨(), []⟩ = .ok stats t
        ∧ snapshot (fun _ => 0#32) 0 ⟨(), []⟩ = .ok stats' t'
        ∧ Faithful 0 (fun _ => 0#32) (fun _ => 0#32) stats stats' := by
  constructor
  · obtain ⟨stats, t, hrun, hfields⟩ := snapshot_run (fun _ => 0#32) 0
    exact ⟨stats, t, hrun, hfields .rxPkt65To127⟩
  · rintro ⟨stats, stats', t, t', ht, -, hfaithful⟩
    have hregs := holds_constantBus oneCard (fun _ => 0#32)
    have hfield := get_of_getCmacStats (hregs _) ht .rxPkt65To127
    exact absurd (hfield.symm.trans (hfaithful.first .rxPkt65To127)) (by decide)

theorem faithful_iff_ownOffsets : ∃ stats stats' t t',
    snapshot id 1 ⟨(), []⟩ = .ok stats t ∧ snapshot id 1 ⟨(), []⟩ = .ok stats' t'
      ∧ Faithful 1 id id stats stats' :=
  (faithful_iff (holds_constantBus oneCard id _) (holds_constantBus oneCard id _)).mpr ⟨rfl, rfl⟩

end Onic

end P2pInspection
