import P2pInspection.OnicRegs

/-!
# The fields of `CmacStats` and their registers

A record of statistics, as a function of its fields. `register` says where each
of them is kept: one register in each CMAC for every field, and no register for
two (`register_inj`).
-/

namespace P2pInspection

inductive CmacField where
  | txTotalPkts | txTotalGoodPkts | txTotalBytes | txTotalGoodBytes
  | rxTotalPkts | rxTotalGoodPkts | rxTotalBytes | rxTotalGoodBytes
  | rxPkt65To127 | rxPktLarge | rxPktSmall | rxUndersize | rxFrag | rxOversize | rxToolong
  | rxJabber | rxBadFcs | rxPktBadFcs | rxStompedFcs | rxUnicast | rxMulticast | rxBroadcast
  | rxVlan | rxPause | rxUserPause | rxInRangeErr | rxTruncated
deriving Repr, DecidableEq

namespace CmacField

/-- The eight fields that are there without debugging, and are printed. -/
def isTotal : CmacField → Bool
  | txTotalPkts | txTotalGoodPkts | txTotalBytes | txTotalGoodBytes
  | rxTotalPkts | rxTotalGoodPkts | rxTotalBytes | rxTotalGoodBytes => true
  | _ => false

/-- The `CMAC_OFFSET_STAT_` register of the field. -/
def register (i : Int) : CmacField → BitVec 32
  | txTotalPkts => cmacOffsetStatTxTotalPkts i
  | txTotalGoodPkts => cmacOffsetStatTxTotalGoodPkts i
  | txTotalBytes => cmacOffsetStatTxTotalBytes i
  | txTotalGoodBytes => cmacOffsetStatTxTotalGoodBytes i
  | rxTotalPkts => cmacOffsetStatRxTotalPkts i
  | rxTotalGoodPkts => cmacOffsetStatRxTotalGoodPkts i
  | rxTotalBytes => cmacOffsetStatRxTotalBytes i
  | rxTotalGoodBytes => cmacOffsetStatRxTotalGoodBytes i
  | rxPkt65To127 => cmacOffsetStatRxPkt65To127Bytes i
  | rxPktLarge => cmacOffsetStatRxPktLarge i
  | rxPktSmall => cmacOffsetStatRxPktSmall i
  | rxUndersize => cmacOffsetStatRxUndersize i
  | rxFrag => cmacOffsetStatRxFragment i
  | rxOversize => cmacOffsetStatRxOversize i
  | rxToolong => cmacOffsetStatRxToolong i
  | rxJabber => cmacOffsetStatRxJabber i
  | rxBadFcs => cmacOffsetStatRxBadFcs i
  | rxPktBadFcs => cmacOffsetStatRxPktBadFcs i
  | rxStompedFcs => cmacOffsetStatRxStompedFcs i
  | rxUnicast => cmacOffsetStatRxUnicast i
  | rxMulticast => cmacOffsetStatRxMulticast i
  | rxBroadcast => cmacOffsetStatRxBroadcast i
  | rxVlan => cmacOffsetStatRxVlan i
  | rxPause => cmacOffsetStatRxPause i
  | rxUserPause => cmacOffsetStatRxUserPause i
  | rxInRangeErr => cmacOffsetStatRxInrangeerr i
  | rxTruncated => cmacOffsetStatRxTruncated i

end CmacField

namespace CmacStats

def get (s : CmacStats) : CmacField → BitVec 32
  | .txTotalPkts => s.txTotalPkts
  | .txTotalGoodPkts => s.txTotalGoodPkts
  | .txTotalBytes => s.txTotalBytes
  | .txTotalGoodBytes => s.txTotalGoodBytes
  | .rxTotalPkts => s.rxTotalPkts
  | .rxTotalGoodPkts => s.rxTotalGoodPkts
  | .rxTotalBytes => s.rxTotalBytes
  | .rxTotalGoodBytes => s.rxTotalGoodBytes
  | .rxPkt65To127 => s.rxPkt65To127
  | .rxPktLarge => s.rxPktLarge
  | .rxPktSmall => s.rxPktSmall
  | .rxUndersize => s.rxUndersize
  | .rxFrag => s.rxFrag
  | .rxOversize => s.rxOversize
  | .rxToolong => s.rxToolong
  | .rxJabber => s.rxJabber
  | .rxBadFcs => s.rxBadFcs
  | .rxPktBadFcs => s.rxPktBadFcs
  | .rxStompedFcs => s.rxStompedFcs
  | .rxUnicast => s.rxUnicast
  | .rxMulticast => s.rxMulticast
  | .rxBroadcast => s.rxBroadcast
  | .rxVlan => s.rxVlan
  | .rxPause => s.rxPause
  | .rxUserPause => s.rxUserPause
  | .rxInRangeErr => s.rxInRangeErr
  | .rxTruncated => s.rxTruncated

@[simp] theorem get_default (f : CmacField) : ({} : CmacStats).get f = 0#32 := by
  cases f <;> rfl

end CmacStats

/-! ## Registers of their own -/

namespace CmacField

def all : List CmacField :=
  [txTotalPkts, txTotalGoodPkts, txTotalBytes, txTotalGoodBytes, rxTotalPkts, rxTotalGoodPkts,
    rxTotalBytes, rxTotalGoodBytes, rxPkt65To127, rxPktLarge, rxPktSmall, rxUndersize, rxFrag,
    rxOversize, rxToolong, rxJabber, rxBadFcs, rxPktBadFcs, rxStompedFcs, rxUnicast,
    rxMulticast, rxBroadcast, rxVlan, rxPause, rxUserPause, rxInRangeErr, rxTruncated]

theorem mem_all (f : CmacField) : f ∈ all := by
  cases f <;> decide

theorem register_congr {i i' : Int} (h : i = 0 ↔ i' = 0) (f : CmacField) :
    f.register i = f.register i' := by
  have hoffset : cmacOffset i = cmacOffset i' := (cmacOffset_eq_iff i i').mpr h
  cases f <;> exact congrArg (· + _) hoffset

/-- No register is the one of two fields, or of one field in both CMACs. -/
theorem register_inj {i i' : Int} {f f' : CmacField} (h : f.register i = f'.register i') :
    f = f' ∧ (i = 0 ↔ i' = 0) := by
  have hpick : ∀ i : Int, ∃ k ∈ [(0 : Int), 1], (i = 0 ↔ k = 0) := by
    intro i
    by_cases hi : i = 0
    · exact ⟨0, by decide, by simp [hi]⟩
    · exact ⟨1, by decide, by simp [hi]⟩
  have hnodup : ((all.product [(0 : Int), 1]).map fun x => x.1.register x.2).Nodup := by
    decide +kernel
  obtain ⟨k, hk, hik⟩ := hpick i
  obtain ⟨k', hk', hik'⟩ := hpick i'
  rw [register_congr hik, register_congr hik'] at h
  obtain ⟨rfl, rfl⟩ := Prod.mk.inj (List.inj_on_of_nodup_map hnodup
    (List.pair_mem_product.mpr ⟨f.mem_all, hk⟩) (List.pair_mem_product.mpr ⟨f'.mem_all, hk'⟩) h)
  exact ⟨rfl, hik.trans hik'.symm⟩

end CmacField

end P2pInspection
