import P2pInspection.Clocked
import P2pInspection.P2p322
import P2pInspection.ReadyValid

/-!
# The stream between the slices of a TX path

`timestamp_inject_tx_inst` has no register in its data path: what it presents
to `tx_slice_1_inst` is computed from the beat on its input, the tick of the
cycle and, through `first_beat`, the ready of the very slice it presents it to.
A waiting beat is passed on as it is, and only in the cycle of the transfer may
it be stamped.

`TxStream.presented_stable_iff` is what this means for the stability the
AXI-Stream handshake asks for. The stream is that of a `Path` when the first
slice does not take its offers back (`Path.txStream`).
-/

namespace P2pInspection

open ReadyValid StreamFifo TimestampInject

namespace P2p322

/-- A run of the TX stream of one port: the channel out of `tx_slice_0_inst`,
which holds its beat while stalled, with the ready of `tx_slice_1_inst`; what
`in_packet` is at the start; and the counters in each cycle. -/
structure TxStream where
  axis : Channel Beat
  holds : axis.Holds
  inPacket : Bool
  nbSync : Nat → BitVec 32
  currTick : Nat → BitVec 32

namespace TxStream

variable (t : TxStream)

def cycle (n : Nat) : Cycle := ⟨t.axis.tvalid n, t.axis.tready n, t.axis.tdata n⟩

def inPacketAt (n : Nat) : Bool :=
  Clocked.stateAt (PacketDetect.inPacketNext axilAresetn) t.inPacket t.cycle n

def oSyncDetected (n : Nat) : Bool :=
  PacketDetect.syncDetectedO (PacketDetect.inPacketQ axilAresetn (t.inPacketAt n)) (t.cycle n)

/-- The slave channel of `tx_slice_1_inst`. -/
def presented : Channel (BitVec 512) where
  tvalid := t.axis.tvalid
  tready := t.axis.tready
  tdata n := oAxisTdata (t.oSyncDetected n) (t.axis.tdata n).tdata (t.nbSync n) (t.currTick n)

def crossing (n : Nat) : Crossing := ⟨t.axis.tdata n, t.nbSync n, t.currTick n⟩

end TxStream

/-! ## The stream of a path -/

namespace Path

variable {slice : Slice Beat}

/-- A path after `n` edges of its clock. -/
def after (p : Path slice) (nbSync currTick : Nat → BitVec 32) (w : Nat → Wires) (n : Nat) :
    Path slice :=
  Clocked.stateAt (fun p n => p.edge .tx (nbSync n) (currTick n) (w n)) p (fun n => n) n

def txStream (hkeep : slice.KeepsValid) (p : Path slice) (nbSync currTick : Nat → BitVec 32)
    (w : Nat → Wires) : TxStream where
  axis :=
    ⟨fun n => ((p.after nbSync currTick w n).mid .tx).tvalid,
      fun n => ((p.after nbSync currTick w n).mid .tx).tready,
      fun n => ((p.after nbSync currTick w n).mid .tx).beat⟩
  holds := by
    intro n h
    simp only [Channel.stalled, Bool.and_eq_true, Bool.not_eq_true'] at h
    obtain ⟨hvalid, hready⟩ := h
    have hagain := hkeep.offers_again hvalid (w n).tvalid (w n).beat
    have hnext : (p.after nbSync currTick w (n + 1)).slice0
        = slice.step (p.after nbSync currTick w n).slice0 (w n).tvalid (w n).beat
            ((p.after nbSync currTick w n).midReady .tx) := rfl
    simp only [mid] at hready
    simp only [mid, hnext, hready]
    exact hagain
  inPacket := p.inPacket
  nbSync := nbSync
  currTick := currTick

variable (hkeep : slice.KeepsValid) (p : Path slice) (nbSync currTick : Nat → BitVec 32)
  (w : Nat → Wires)

theorem txStream_inPacketAt (n : Nat) :
    (p.txStream hkeep nbSync currTick w).inPacketAt n
      = (p.after nbSync currTick w n).inPacket := by
  induction n with
  | zero => rfl
  | succ n ih =>
      have hnext : (p.txStream hkeep nbSync currTick w).inPacketAt (n + 1)
          = PacketDetect.inPacketNext axilAresetn
              ((p.txStream hkeep nbSync currTick w).inPacketAt n)
              ((p.txStream hkeep nbSync currTick w).cycle n) := rfl
      rw [hnext, ih]
      rfl

/-- What the stream presents in a cycle is what the path hands to its second slice. -/
theorem txStream_presented (n : Nat) :
    (p.txStream hkeep nbSync currTick w).presented.tdata n
      = ((p.after nbSync currTick w n).injectedBeat .tx (nbSync n) (currTick n)).tdata := by
  simp only [TxStream.presented, TxStream.oSyncDetected, txStream_inPacketAt]
  rfl

end Path

/-! ## The data depends on the ready -/

namespace TxStream

variable (t : TxStream)

theorem oSyncDetected_eq (n : Nat) :
    t.oSyncDetected n
      = (t.axis.accepted n && PacketDetect.headerMatches (t.axis.tdata n).tdata) :=
  syncDetectedO_unconnected (t.inPacketAt n) (t.cycle n)

/-- What the injector does with a beat that crosses in cycle `n`. -/
def stampedAt (n : Nat) (b : Beat) : BitVec 512 :=
  (Crossing.stamped ⟨b, t.nbSync n, t.currTick n⟩).tdata

theorem presented_eq_rewritten :
    t.presented = t.axis.rewritten Beat.tdata t.stampedAt := by
  refine Channel.ext rfl rfl (funext fun n => ?_)
  simp only [presented, Channel.rewritten, t.oSyncDetected_eq n]
  cases t.axis.accepted n with
  | true => rfl
  | false => rfl

/-- The presented data is stable on the whole run exactly when every beat with
the sync header that is accepted after a stall already holds, in the window the
injector writes, the record of the accepting cycle. -/
theorem presented_stable_iff :
    t.presented.Stable
      ↔ ∀ n, t.axis.stalled n = true → t.axis.tready (n + 1) = true →
          PacketDetect.headerMatches (t.axis.tdata (n + 1)).tdata = true →
            (t.crossing (n + 1)).HoldsRecord := by
  rw [presented_eq_rewritten, t.holds.stable_rewritten_iff]
  refine forall_congr' fun n => ?_
  exact imp_congr_right fun _ => imp_congr_right fun _ =>
    (t.crossing (n + 1)).stamped_tdata_eq_iff

end TxStream

/-- A path that is offered a sync beat in every cycle, and whose CMAC is ready
from cycle 4 on. The third beat waits between the slices in cycles 3 and 4. -/
def stalledSync : TxStream :=
  (Path.released (skid (oneBeat 0#512 false)) false).txStream (skid_keepsValid _)
    (fun _ => 0#32) (fun _ => 9#32) fun n => ⟨true, unstampedBeat, 4 ≤ n⟩

/-- In cycle 5 it is accepted, and the record appears in its first bytes. -/
theorem stalledSync_not_stable : ¬stalledSync.presented.Stable := by
  have hwaits : ∀ j < 2, stalledSync.presented.stalled (3 + j) = true := by
    decide +kernel
  have hchanged : stalledSync.presented.tdata (3 + 2) ≠ stalledSync.presented.tdata 3 := by
    decide +kernel
  intro h
  exact hchanged (h 3 2 hwaits)

end P2p322

end P2pInspection
