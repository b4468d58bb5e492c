import P2pInspection.StatsText

/-!
# The registers of a card

A card is reached through the PCI device of one of its ports: `read_reg` and
`write_reg` of `Onic` name that port and the BAR of the register space, so what
tells the registers of two cards apart is the port. What a read returns is up
to the device, which may take everything called before into account (`Bus`).

`getCmacStats_run` says which registers of which CMAC the eight totals are
read from. The register map has a place for two CMACs, and puts every index
but 0 at the second.
-/

namespace P2pInspection

open CallTrace

def nbFunc : Nat := 2
def nbPorts : Nat := nbFunc

/-- The ports by index, and the port and the BAR the registers are reached through. -/
structure Onic where
  ports : Nat → OnicPort
  configPortId : Int
  axilBarId : Int

namespace Onic

/-- What the constructor sets up behind its ports: -1 asks for the first port,
and for the user BAR of the first port. -/
def setup (ports : Nat → OnicPort) (configPortId axilBarId : Int) : Onic where
  ports := ports
  configPortId := if configPortId = -1 then (ports 0).portId else configPortId
  axilBarId := if axilBarId = -1 then (ports 0).pinfo.userBarIdx else axilBarId

end Onic

/-! ## The register map of the CMACs -/

def cmacSubsystem0Offset : BitVec 32 := 0x8000#32
def cmacSubsystem1Offset : BitVec 32 := 0xC000#32

def cmacSubsystemOffset (i : Int) : BitVec 32 :=
  if i = 0 then cmacSubsystem0Offset else cmacSubsystem1Offset

def cmacOffset (i : Int) : BitVec 32 := cmacSubsystemOffset i + 0x0#32

def cmacOffsetTick (i : Int) : BitVec 32 := cmacOffset i + 0x02B0#32
def cmacOffsetStatTxTotalPkts (i : Int) : BitVec 32 := cmacOffset i + 0x0500#32
def cmacOffsetStatTxTotalGoodPkts (i : Int) : BitVec 32 := cmacOffset i + 0x0508#32
def cmacOffsetStatTxTotalBytes (i : Int) : BitVec 32 := cmacOffset i + 0x0510#32
def cmacOffsetStatTxTotalGoodBytes (i : Int) : BitVec 32 := cmacOffset i + 0x0518#32
def cmacOffsetStatRxTotalPkts (i : Int) : BitVec 32 := cmacOffset i + 0x0608#32
def cmacOffsetStatRxTotalGoodPkts (i : Int) : BitVec 32 := cmacOffset i + 0x0610#32
def cmacOffsetStatRxTotalBytes (i : Int) : BitVec 32 := cmacOffset i + 0x0618#32
def cmacOffsetStatRxTotalGoodBytes (i : Int) : BitVec 32 := cmacOffset i + 0x0620#32
def cmacOffsetStatRxPkt65To127Bytes (i : Int) : BitVec 32 := cmacOffset i + 0x0630#32
def cmacOffsetStatRxPktLarge (i : Int) : BitVec 32 := cmacOffset i + 0x0688#32
def cmacOffsetStatRxPktSmall (i : Int) : BitVec 32 := cmacOffset i + 0x0690#32
def cmacOffsetStatRxUndersize (i : Int) : BitVec 32 := cmacOffset i + 0x0698#32
def cmacOffsetStatRxFragment (i : Int) : BitVec 32 := cmacOffset i + 0x06A0#32
def cmacOffsetStatRxOversize (i : Int) : BitVec 32 := cmacOffset i + 0x06A8#32
def cmacOffsetStatRxToolong (i : Int) : BitVec 32 := cmacOffset i + 0x06B0#32
def cmacOffsetStatRxJabber (i : Int) : BitVec 32 := cmacOffset i + 0x06B8#32
def cmacOffsetStatRxBadFcs (i : Int) : BitVec 32 := cmacOffset i + 0x06C0#32
def cmacOffsetStatRxPktBadFcs (i : Int) : BitVec 32 := cmacOffset i + 0x06C8#32
def cmacOffsetStatRxStompedFcs (i : Int) : BitVec 32 := cmacOffset i + 0x06D0#32
def cmacOffsetStatRxUnicast (i : Int) : BitVec 32 := cmacOffset i + 0x06D8#32
def cmacOffsetStatRxMulticast (i : Int) : BitVec 32 := cmacOffset i + 0x06E0#32
def cmacOffsetStatRxBroadcast (i : Int) : BitVec 32 := cmacOffset i + 0x06E8#32
def cmacOffsetStatRxVlan (i : Int) : BitVec 32 := cmacOffset i + 0x06F0#32
def cmacOffsetStatRxPause (i : Int) : BitVec 32 := cmacOffset i + 0x06F8#32
def cmacOffsetStatRxUserPause (i : Int) : BitVec 32 := cmacOffset i + 0x0700#32
def cmacOffsetStatRxInrangeerr (i : Int) : BitVec 32 := cmacOffset i + 0x0708#32
def cmacOffsetStatRxTruncated (i : Int) : BitVec 32 := cmacOffset i + 0x0710#32

/-- The map tells CMAC 0 from all others. -/
theorem cmacOffset_eq_iff (i i' : Int) : cmacOffset i = cmacOffset i' ↔ (i = 0 ↔ i' = 0) := by
  have hne : cmacSubsystem0Offset ≠ cmacSubsystem1Offset := by decide
  unfold cmacOffset cmacSubsystemOffset
  by_cases h : i = 0 <;> by_cases h' : i' = 0 <;> simp [h, h', hne, hne.symm]

/-! ## Register accesses -/

inductive RegCall where
  | read (port bar : Int) (offset val : BitVec 32)
  | write (port bar : Int) (offset val : BitVec 32)
deriving Repr, DecidableEq

/-- Register accesses among calls of a type `κ`, and what a read returns behind
the calls made so far. -/
structure Bus (κ : Type) where
  record : RegCall → κ
  answer : List κ → Int → Int → BitVec 32 → BitVec 32

namespace Onic

section Accesses

variable {ε σ κ : Type} (bus : Bus κ) (o : Onic)

def readReg (offset : BitVec 32) : Prog ε σ κ (BitVec 32) := do
  let s ← get
  let val := bus.answer s.calls o.configPortId o.axilBarId offset
  call (bus.record (.read o.configPortId o.axilBarId offset val))
  return val

def writeReg (offset val : BitVec 32) : Prog ε σ κ Unit :=
  call (bus.record (.write o.configPortId o.axilBarId offset val))

/-- `rx_pkt_65_127` is given the offset of its register. -/
def getCmacDebugStats (cmacId : Int) (stats : CmacStats) : Prog ε σ κ CmacStats := do
  let rxTotalPkts ← readReg bus o (cmacOffsetStatRxTotalPkts cmacId)
  let rxTotalGoodPkts ← readReg bus o (cmacOffsetStatRxTotalGoodPkts cmacId)
  let rxTotalBytes ← readReg bus o (cmacOffsetStatRxTotalBytes cmacId)
  let rxTotalGoodBytes ← readReg bus o (cmacOffsetStatRxTotalGoodBytes cmacId)
  let stats := { stats with rxPkt65To127 := cmacOffsetStatRxPkt65To127Bytes cmacId }
  let rxPktLarge ← readReg bus o (cmacOffsetStatRxPktLarge cmacId)
  let rxPktSmall ← readReg bus o (cmacOffsetStatRxPktSmall cmacId)
  let rxUndersize ← readReg bus o (cmacOffsetStatRxUndersize cmacId)
  let rxFrag ← readReg bus o (cmacOffsetStatRxFragment cmacId)
  let rxOversize ← readReg bus o (cmacOffsetStatRxOversize cmacId)
  let rxToolong ← readReg bus o (cmacOffsetStatRxToolong cmacId)
  let rxJabber ← readReg bus o (cmacOffsetStatRxJabber cmacId)
  let rxBadFcs ← readReg bus o (cmacOffsetStatRxBadFcs cmacId)
  let rxPktBadFcs ← readReg bus o (cmacOffsetStatRxPktBadFcs cmacId)
  let rxStompedFcs ← readReg bus o (cmacOffsetStatRxStompedFcs cmacId)
  let rxUnicast ← readReg bus o (cmacOffsetStatRxUnicast cmacId)
  let rxMulticast ← readReg bus o (cmacOffsetStatRxMulticast cmacId)
  let rxBroadcast ← readReg bus o (cmacOffsetStatRxBroadcast cmacId)
  let rxVlan ← readReg bus o (cmacOffsetStatRxVlan cmacId)
  let rxPause ← readReg bus o (cmacOffsetStatRxPause cmacId)
  let rxUserPause ← readReg bus o (cmacOffsetStatRxUserPause cmacId)
  let rxInRangeErr ← readReg bus o (cmacOffsetStatRxInrangeerr cmacId)
  let rxTruncated ← readReg bus o (cmacOffsetStatRxTruncated cmacId)
  return { stats with
    rxTotalPkts, rxTotalGoodPkts, rxTotalBytes, rxTotalGoodBytes, rxPktLarge, rxPktSmall,
    rxUndersize, rxFrag, rxOversize, rxToolong, rxJabber, rxBadFcs, rxPktBadFcs,
    rxStompedFcs, rxUnicast, rxMulticast, rxBroadcast, rxVlan, rxPause, rxUserPause,
    rxInRangeErr, rxTruncated }

def getCmacStats (cmacId : Int) (debug : Bool := false) : Prog ε σ κ CmacStats := do
  writeReg bus o (cmacOffsetTick cmacId) 0b1#32
  let txTotalPkts ← readReg bus o (cmacOffsetStatTxTotalPkts cmacId)
  let txTotalGoodPkts ← readReg bus o (cmacOffsetStatTxTotalGoodPkts cmacId)
  let txTotalBytes ← readReg bus o (cmacOffsetStatTxTotalBytes cmacId)
  let txTotalGoodBytes ← readReg bus o (cmacOffsetStatTxTotalGoodBytes cmacId)
  let rxTotalPkts ← readReg bus o (cmacOffsetStatRxTotalPkts cmacId)
  let rxTotalGoodPkts ← readReg bus o (cmacOffsetStatRxTotalGoodPkts cmacId)
  let rxTotalBytes ← readReg bus o (cmacOffsetStatRxTotalBytes cmacId)
  let rxTotalGoodBytes ← readReg bus o (cmacOffsetStatRxTotalGoodBytes cmacId)
  let stats : CmacStats := {
    txTotalPkts, txTotalGoodPkts, txTotalBytes, txTotalGoodBytes,
    rxTotalPkts, rxTotalGoodPkts, rxTotalBytes, rxTotalGoodBytes }
  if debug then getCmacDebugStats bus o cmacId stats else return stats

/-- The tick of a CMAC and the reads of its totals, with these values. -/
def cmacAccesses (cmacId : Int) (stats : CmacStats) : List RegCall :=
  .write o.configPortId o.axilBarId (cmacOffsetTick cmacId) 0b1#32 ::
    [(cmacOffsetStatTxTotalPkts cmacId, stats.txTotalPkts),
      (cmacOffsetStatTxTotalGoodPkts cmacId, stats.txTotalGoodPkts),
      (cmacOffsetStatTxTotalBytes cmacId, stats.txTotalBytes),
      (cmacOffsetStatTxTotalGoodBytes cmacId, stats.txTotalGoodBytes),
      (cmacOffsetStatRxTotalPkts cmacId, stats.rxTotalPkts),
      (cmacOffsetStatRxTotalGoodPkts cmacId, stats.rxTotalGoodPkts),
      (cmacOffsetStatRxTotalBytes cmacId, stats.rxTotalBytes),
      (cmacOffsetStatRxTotalGoodBytes cmacId, stats.rxTotalGoodBytes)].map fun r =>
        .read o.configPortId o.axilBarId r.1 r.2

theorem readReg_run (offset : BitVec 32) (s : Logged σ κ) :
    (readReg bus o offset : Prog ε σ κ (BitVec 32)) s
      = .ok (bus.answer s.calls o.configPortId o.axilBarId offset) ⟨s.state, s.calls
        ++ [bus.record (.read o.configPortId o.axilBarId offset
          (bus.answer s.calls o.configPortId o.axilBarId offset))]⟩ := rfl

theorem getCmacStats_run (cmacId : Int) (s : Logged σ κ) : ∃ stats,
    (getCmacStats bus o cmacId : Prog ε σ κ CmacStats) s
      = .ok stats ⟨s.state, s.calls ++ (o.cmacAccesses cmacId stats).map bus.record⟩ := by
  refine ⟨?stats, ?run⟩
  case run =>
    simp only [getCmacStats, writeReg, run_bind, run_call, readReg_run, Bool.false_eq_true,
      if_false, run_pure, List.append_assoc]
    rfl

end Accesses

end Onic

end P2pInspection
