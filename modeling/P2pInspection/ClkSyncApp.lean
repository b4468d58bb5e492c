import P2pInspection.Dpdk
import P2pInspection.PacketDetect

/-!
# `clk_sync_app`: the frame it sends, and the detector that waits for it

`buildFrame` is the header construction of the application's `main`, byte by
byte and for either host order. Every frame it builds has the network-order
sync header (`buildFrame_syncHeader`); the detector's slices want the
byte-swapped one. `recognised_iff` states for every frame when the two agree.
-/

namespace P2pInspection

open Bytes PacketDetect

namespace ClkSyncApp

def customVlanId : BitVec 16 := 0x0ABC#16
def defaultFiller : BitVec 8 := 0xFF#8
def rteEtherTypeVlan : BitVec 16 := 0x8100#16
def rteEtherTypeIpv4 : BitVec 16 := 0x0800#16

def dstMac : List (BitVec 8) := [0x52, 0x54, 0x00, 0x12, 0x34, 0x56]
def srcMac : List (BitVec 8) := [0x52, 0x54, 0x00, 0x65, 0x43, 0x21]

def memset (b : Nat → BitVec 8) (off : Nat) (x : BitVec 8) (len : Nat) : Nat → BitVec 8 :=
  fun k => if off ≤ k ∧ k < off + len then x else b k

def copyMac (b : Nat → BitVec 8) (off : Nat) (mac : List (BitVec 8)) : Nat → BitVec 8 :=
  fun k => if off ≤ k ∧ k < off + 6 then mac.getD (k - off) 0 else b k

/-- The template frame `main` builds in a freshly allocated buffer: filler,
addresses, then the three 16-bit header fields in network order. `none` when
the buffer has no room for `pkt_size` bytes. -/
def buildFrame (e : Endian) (pktSize : Nat) (m : RteMbuf) : Option RteMbuf :=
  match rtePktmbufAppend m pktSize with
  | (none, _) => none
  | (some off, m) =>
      let b := memset m.bytes off defaultFiller pktSize
      let b := copyMac b off dstMac
      let b := copyMac b (off + 6) srcMac
      let b := store16 e b (off + 12) (toBe16 e rteEtherTypeVlan)
      let b := store16 e b (off + 14) (toBe16 e customVlanId)
      let b := store16 e b (off + 16) (toBe16 e rteEtherTypeIpv4)
      some { m with bytes := b }

/-- What `rte_pktmbuf_alloc` returns: no data yet, any buffer contents. -/
def FreshMbuf (m : RteMbuf) : Prop := m.dataLen = 0

/-- The frames of `clk_sync_app`, for every `pkt_size` that holds the header. -/
def Builds (f : RteMbuf) : Prop :=
  ∃ e pktSize m, 18 ≤ pktSize ∧ FreshMbuf m ∧ buildFrame e pktSize m = some f

theorem buildFrame_syncHeader {e : Endian} {pktSize : Nat} {m f : RteMbuf}
    (hm : FreshMbuf m) (hf : buildFrame e pktSize m = some f) : SyncHeader f.bytes := by
  have h0 : m.dataLen = 0 := hm
  unfold buildFrame rtePktmbufAppend at hf
  by_cases hroom : pktSize ≤ m.tailroom
  · rw [if_pos hroom] at hf
    obtain rfl := Option.some.inj hf
    simp only [h0, Nat.zero_add]
    apply syncHeader_of_be16
    · rw [be16_store16_disjoint e _ _ (Or.inl (by decide)),
        be16_store16_disjoint e _ _ (Or.inl (by decide)), be16_store16]
      rfl
    · rw [be16_store16_disjoint e _ _ (Or.inl (by decide)), be16_store16]
      rfl
  · rw [if_neg hroom] at hf
    cases hf

/-! ## Sender and detector as a pair -/

/-- The detector's verdict on cycle `c`, reset released, after history `hist`. -/
def detected (hist : List Cycle) (c : Cycle) : Bool :=
  syncDetectedO (inPacketQ true (inPacketAfter hist)) c

/-- The verdict is the network-order reading of the frame's header, and in
particular no frame of `clk_sync_app` is missed. -/
def Recognised (hist : List Cycle) (c : Cycle) (f : RteMbuf) : Prop :=
  (detected hist c = true ↔ SyncHeader f.bytes) ∧ (Builds f → detected hist c = true)

structure AcceptsFirstBeat (hist : List Cycle) (c : Cycle) (f : RteMbuf) : Prop where
  frameStart : atFrameStart hist = true
  accepted : c.accepted = true
  carries : Carries c.beat.tdata f.bytes (min f.dataLen 64)

theorem detected_iff_swapped {hist : List Cycle} {c : Cycle} {f : RteMbuf}
    (hlen : 16 ≤ f.dataLen) (hc : AcceptsFirstBeat hist c f) :
    detected hist c = true ↔ SwappedHeader f.bytes := by
  rw [detected, syncDetected_at_frame_start hc.frameStart hc.accepted]
  exact headerMatches_iff_swapped hc.carries (by omega)

/-- The detector agrees with the network-order header on exactly the frames
that carry neither that header nor the byte-swapped one. -/
theorem recognised_iff {hist : List Cycle} {c : Cycle} {f : RteMbuf}
    (hlen : 16 ≤ f.dataLen) (hc : AcceptsFirstBeat hist c f) :
    Recognised hist c f ↔ ¬SyncHeader f.bytes ∧ ¬SwappedHeader f.bytes := by
  have hdisj : ¬(SyncHeader f.bytes ∧ SwappedHeader f.bytes) := not_sync_and_swapped
  rw [Recognised, detected_iff_swapped hlen hc]
  constructor
  · rintro ⟨hiff, -⟩
    exact ⟨fun hs => hdisj ⟨hs, hiff.mpr hs⟩, fun hw => hdisj ⟨hiff.mp hw, hw⟩⟩
  · rintro ⟨hs, hw⟩
    refine ⟨⟨fun h => absurd h hw, fun h => absurd h hs⟩, ?_⟩
    rintro ⟨e, pktSize, m, -, hm, hf⟩
    exact absurd (buildFrame_syncHeader hm hf) hs

/-! ## Two frames -/

def freshMbuf : RteMbuf := ⟨fun _ => 0#8, 0, 2048⟩

/-- The first beat of the frame `clk_sync_app` builds with `pkt_size` 60. -/
def appBeat : Beat where
  tdata := 0xFFFFFFFFFFFFFFFFFFFFFFFFFFFFFFFFFFFFFFFFFFFFFFFFFFFFFFFFFFFFFFFFFFFFFFFFFFFFFFFFFFFFFFFFFFFF0008BC0A0081214365005452563412005452#512
  tkeep := 0x0FFFFFFFFFFFFFFF#64
  tlast := true
  tuser := false

theorem app_frame_not_recognised :
    ∃ f, buildFrame .little 60 freshMbuf = some f ∧ 16 ≤ f.dataLen
      ∧ AcceptsFirstBeat [] ⟨true, true, appBeat⟩ f
      ∧ ¬Recognised [] ⟨true, true, appBeat⟩ f := by
  refine ⟨_, rfl, by decide, ⟨rfl, rfl, by unfold Carries; decide +kernel⟩, ?_⟩
  rintro ⟨-, hfires⟩
  have hbuilt : detected [] ⟨true, true, appBeat⟩ = true :=
    hfires ⟨.little, 60, freshMbuf, by decide, rfl, rfl⟩
  exact absurd hbuilt (by decide +kernel)

/-- The first beat of a 60-byte IPv4 frame in VLAN 1, between the same addresses. -/
def otherVlanBeat : Beat where
  tdata := 0x2E000045000801000081214365005452563412005452#512
  tkeep := 0x0FFFFFFFFFFFFFFF#64
  tlast := true
  tuser := false

def otherVlanFrame : RteMbuf := ⟨lane otherVlanBeat.tdata, 60, 1988⟩

theorem recognised_iff_otherVlan :
    be16 otherVlanFrame.bytes 12 = 0x8100#16 ∧ be16 otherVlanFrame.bytes 14 = 1#16
      ∧ Recognised [] ⟨true, true, otherVlanBeat⟩ otherVlanFrame :=
  ⟨by decide +kernel, by decide +kernel,
    (recognised_iff (by decide) ⟨rfl, rfl, fun _ _ => rfl⟩).mpr
      ⟨fun h => absurd h.2.2 (by decide +kernel), fun h => absurd h.1 (by decide +kernel)⟩⟩

end ClkSyncApp

end P2pInspection
