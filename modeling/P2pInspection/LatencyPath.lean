import P2pInspection.Pipeline

/-!
# Which frames the latency path accepts

A frame of the final receiver is tested by `is_vlan_packet`, and what passes is
given to the constructor of `Timestamps`, whose assertions are the rest of the
test (`latencyPath`). The assertions compare constants, so their outcome is the
same for every frame: on a little-endian host with assertions compiled in, the
path drops what is not tagged and ends the process at everything else
(`latencyPath_little`).
-/

namespace P2pInspection

open Bytes Pipeline

namespace LatencyPath

inductive Outcome where
  | dropped
  | aborted
  | extracted
deriving Repr, DecidableEq

/-- Both tests of the path on a received frame; `obj` is the memory the
`Timestamps` object is built in. -/
def latencyPath (e : Endian) (ndebug : Bool) (obj : Timestamps) (m : RteMbuf) : Outcome :=
  if isVlanPacket e m.bytes then
    match Timestamps.construct e ndebug obj m with
    | none => .aborted
    | some _ => .extracted
  else .dropped

def Tagged (b : Nat → BitVec 8) : Prop := b 12 = 0x81#8 ∧ b 13 = 0x00#8

/-- Tagged, and the low 12 bits of the TCI in network order are `CUSTOM_VLAN_ID`. -/
def LatencyFrame (b : Nat → BitVec 8) : Prop :=
  Tagged b ∧ (be16 b 14).extractLsb' 0 12 = ClkSyncApp.customVlanId.extractLsb' 0 12

/-- The frames the injector stamps. -/
theorem latencyFrame_iff_syncHeader (b : Nat → BitVec 8) :
    LatencyFrame b ↔ PacketDetect.SyncHeader b := by
  have hid : ClkSyncApp.customVlanId.extractLsb' 0 12 = PacketDetect.vlanId := by decide
  rw [LatencyFrame, Tagged, hid, and_assoc]
  rfl

/-! ## The two threads -/

section Threads

variable {Ctx Onic Mbuf : Type} [DecidableEq Ctx] [DecidableEq Onic] [DecidableEq Mbuf]
variable {K : Setup Ctx Onic Mbuf} {c : Ctx} {s : Sys Ctx Onic Mbuf} {m : Mbuf}

/-- The final receiver frees, without passing it on, what the path drops. -/
theorem fpgaRxFinalThread_drops (burst : List (Mbuf × RteMbuf)) (obj : Timestamps)
    {rest : List Mbuf} (hpc : (s.final c).pc = .scan (m :: rest))
    (hdrop : latencyPath K.endian K.ndebug obj (s.buf m) = .dropped) :
    fpgaRxFinalThread K c burst s
      = some ((s.free (.final c) m).setFinal c ⟨.scan rest, (s.final c).currQ⟩) := by
  have hplain : isVlanPacket K.endian (s.buf m).bytes = false := by
    cases hvlan : isVlanPacket K.endian (s.buf m).bytes with
    | false => rfl
    | true =>
        rw [latencyPath, if_pos hvlan] at hdrop
        split at hdrop
        · cases hdrop
        · cases hdrop
  simp only [fpgaRxFinalThread, hpc, hplain]
  rfl

/-- The statistics thread ends the process at what the path aborts on. -/
theorem stats_aborts (obj : Timestamps) {done rest : List Mbuf}
    (hpc : s.stats c = .reading done (m :: rest))
    (habort : latencyPath K.endian K.ndebug obj (s.buf m) = .aborted) :
    extractThenProduceLatencyPackets K c obj s = some { s with aborted := true } := by
  have hnone : Timestamps.construct K.endian K.ndebug obj (s.buf m) = none := by
    rw [latencyPath] at habort
    split at habort
    · split at habort
      · assumption
      · cases habort
    · cases habort
  simp only [extractThenProduceLatencyPackets, hpc, hnone]

end Threads

/-! ## Acceptance -/

theorem latencyPath_little (obj : Timestamps) (m : RteMbuf) :
    (Tagged m.bytes → latencyPath .little false obj m = .aborted)
      ∧ (¬Tagged m.bytes → latencyPath .little false obj m = .dropped) := by
  constructor
  · intro htagged
    rw [latencyPath, if_pos ((isVlanPacket_iff _ _).mpr htagged), Timestamps.construct_little]
    rfl
  · intro hplain
    rw [latencyPath, if_neg (fun hvlan => hplain ((isVlanPacket_iff _ _).mp hvlan))]

/-- The path extracts from this frame if it is a latency frame, and drops it
without aborting if it is any other. -/
def AcceptsExactly (obj : Timestamps) (m : RteMbuf) : Prop :=
  (latencyPath .little false obj m = .extracted ↔ LatencyFrame m.bytes)
    ∧ (¬LatencyFrame m.bytes → latencyPath .little false obj m = .dropped)

/-- A tagged frame ends the process: a latency frame is not extracted from, and
one with another id is not dropped. -/
theorem acceptsExactly_iff (obj : Timestamps) (m : RteMbuf) :
    AcceptsExactly obj m ↔ ¬Tagged m.bytes := by
  constructor
  · rintro ⟨hextract, hdrop⟩ htagged
    have habort := (latencyPath_little obj m).1 htagged
    by_cases hframe : LatencyFrame m.bytes
    · cases habort.symm.trans (hextract.mpr hframe)
    · cases habort.symm.trans (hdrop hframe)
  · intro hplain
    have hdropped := (latencyPath_little obj m).2 hplain
    have hother : ¬LatencyFrame m.bytes := fun hframe => hplain hframe.1
    refine ⟨⟨fun hextracted => ?_, fun hframe => absurd hframe hother⟩, fun _ => hdropped⟩
    cases hdropped.symm.trans hextracted

/-- A stamped sync frame, and one of another VLAN. -/
theorem tagged_not_accepted :
    ¬AcceptsExactly ⟨fun _ => 0#64, fun _ => 0#64⟩ Timestamps.stampedFrame
      ∧ ¬AcceptsExactly ⟨fun _ => 0#64, fun _ => 0#64⟩
        ⟨fun k => if k = 12 then 0x81#8 else 0x00#8, 60, 1988⟩ := by
  constructor
  · rintro ⟨hextract, -⟩
    have htagged : Tagged Timestamps.stampedFrame.bytes := by unfold Tagged; decide +kernel
    have hframe : LatencyFrame Timestamps.stampedFrame.bytes := ⟨htagged, by decide +kernel⟩
    have habort := (latencyPath_little ⟨fun _ => 0#64, fun _ => 0#64⟩ _).1 htagged
    cases habort.symm.trans (hextract.mpr hframe)
  · rintro ⟨-, hdrop⟩
    have hother : ¬LatencyFrame (fun k => if k = 12 then 0x81#8 else 0x00#8) := by
      rintro ⟨-, hid⟩
      exact absurd hid (by decide)
    have habort := (latencyPath_little ⟨fun _ => 0#64, fun _ => 0#64⟩
      ⟨fun k => if k = 12 then 0x81#8 else 0x00#8, 60, 1988⟩).1 ⟨rfl, rfl⟩
    cases habort.symm.trans (hdrop hother)

end LatencyPath

end P2pInspection
