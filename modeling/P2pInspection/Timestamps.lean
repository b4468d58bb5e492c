import Mathlib.Data.Fin.VecNotation
import Mathlib.Logic.Function.Basic
import P2pInspection.ClkSyncApp
import P2pInspection.TimestampInject

/-!
# `Timestamps`: what the server reads out of a sync frame

`construct` is the constructor of `Timestamps` on a received buffer: the
append, the two assertions and the extraction loop with its moving `payload`
pointer, run on the uninitialised object `obj`. The process aborts (`none`)
when an assertion fails, unless the build defines `NDEBUG`.

`decodes_iff` compares the result with the records the injector left in the
first `NB_HOPS` slots.
-/

namespace P2pInspection

open Bytes TimestampInject

abbrev nbHops : Nat := 3
def timestampOffset : Nat := 6 + 6 + 2 + 2 + 2
def nbSyncLen : Nat := 8
def currTickLen : Nat := 8
def timestampPktSize : Nat := 60
def lenNbSyncNs : Nat := 1000
def lenTimeTickNs : Nat := 4

structure Timestamps where
  timestampNbSync : Fin nbHops → BitVec 64
  timestampCurrTick : Fin nbHops → BitVec 64

namespace Timestamps

/-- `assert(0x8100 == …)` and `assert(CUSTOM_VLAN_ID == …)`: both compare a
constant with its own big-endian conversion. -/
def assertsHold (e : Endian) : Bool :=
  0x8100#16 == toBe16 e ClkSyncApp.rteEtherTypeVlan
    && ClkSyncApp.customVlanId == toBe16 e ClkSyncApp.customVlanId

/-- One iteration of the extraction loop on the object and the `payload`
offset. Both `memcpy`s have `timestamp_nb_sync[i]` as their destination. -/
def extractHop (e : Endian) (b : Nat → BitVec 8) (acc : Timestamps × Nat) (i : Fin nbHops) :
    Timestamps × Nat :=
  let ts := acc.1
  let payload := acc.2
  let ts := { ts with
    timestampNbSync := Function.update ts.timestampNbSync i (load64 e b payload) }
  let payload := payload + nbSyncLen
  let ts := { ts with
    timestampNbSync := Function.update ts.timestampNbSync i (load64 e b payload) }
  let payload := payload + currTickLen
  (ts, payload)

def extract (e : Endian) (b : Nat → BitVec 8) (obj : Timestamps) : Timestamps :=
  ((List.finRange nbHops).foldl (extractHop e b) (obj, timestampOffset)).1

/-- `Timestamps(rte_mbuf *mbuf)`, with the buffer as the constructor leaves it. -/
def construct (e : Endian) (ndebug : Bool) (obj : Timestamps) (m : RteMbuf) :
    Option (Timestamps × RteMbuf) :=
  let m := (rtePktmbufAppend m timestampPktSize).2
  if ndebug || assertsHold e then some (extract e m.bytes obj, m) else none

/-! ## What the loop leaves in the object -/

theorem extract_nbSync (e : Endian) (b : Nat → BitVec 8) (obj : Timestamps) (i : Fin nbHops) :
    (extract e b obj).timestampNbSync i = load64 e b (26 + 16 * i.val) := by
  match i with
  | 0 => rfl
  | 1 => rfl
  | 2 => rfl

/-- The second array keeps whatever the memory of the object held before. -/
theorem extract_currTick (e : Endian) (b : Nat → BitVec 8) (obj : Timestamps) :
    (extract e b obj).timestampCurrTick = obj.timestampCurrTick := by
  have hlist : List.finRange nbHops = [0, 1, 2] := rfl
  simp [extract, hlist, extractHop]

theorem assertsHold_little : assertsHold .little = false := by decide

theorem construct_little (ndebug : Bool) (obj : Timestamps) (m : RteMbuf) :
    construct .little ndebug obj m
      = if ndebug then
          some (extract .little m.bytes obj, (rtePktmbufAppend m timestampPktSize).2)
        else none := by
  simp only [construct, assertsHold_little, Bool.or_false, rtePktmbufAppend_bytes]

/-! ## Encoder against decoder -/

def Holds (ts : Timestamps) (nb tick : Fin nbHops → BitVec 32) : Prop :=
  ∀ i, ts.timestampNbSync i = (nb i).setWidth 64 ∧ ts.timestampCurrTick i = (tick i).setWidth 64

/-- The constructor returns an object with these counter pairs. -/
def Decodes (ndebug : Bool) (obj : Timestamps) (m : RteMbuf)
    (nb tick : Fin nbHops → BitVec 32) : Prop :=
  ∃ ts m', construct .little ndebug obj m = some (ts, m') ∧ Holds ts nb tick

/-- The record the injector leaves for each hop, in the first beat of the frame. -/
structure CarriesRecords (m : RteMbuf) (tdata : BitVec 512) (nb tick : Fin nbHops → BitVec 32) :
    Prop where
  carries : Carries tdata m.bytes (min m.dataLen 64)
  records : ∀ i, slot tdata i.val = nb i ++ tick i

theorem CarriesRecords.le64 {m : RteMbuf} {tdata : BitVec 512} {nb tick : Fin nbHops → BitVec 32}
    (h : CarriesRecords m tdata nb tick) (hlen : timestampPktSize ≤ m.dataLen) (i : Fin nbHops) :
    Bytes.le64 m.bytes (18 + 8 * i.val) = nb i ++ tick i := by
  have hlen' : 60 ≤ m.dataLen := hlen
  have hi : i.val < 3 := i.isLt
  rw [← h.records i, ← h.carries.le64 (by omega), slot]
  congr 1
  simp only [payloadOffset, byte, timestampSize]
  omega

theorem append_eq_setWidth_iff (x y z : BitVec 32) :
    x ++ y = z.setWidth 64 ↔ x = 0#32 ∧ y = z := by
  have hz : z.setWidth 64 = 0#32 ++ z := by
    apply BitVec.eq_of_getLsbD_eq
    intro k hk
    rw [BitVec.getLsbD_setWidth, BitVec.getLsbD_append]
    by_cases hk32 : k < 32
    · simp [hk, hk32]
    · simp [hk32, BitVec.getLsbD_of_ge z k (Nat.le_of_not_lt hk32)]
  rw [hz, append_eq_append_iff]

/-- The decoder steps 16 bytes a hop over 8-byte records and never fills the
second array. It returns the injected pairs only in an `NDEBUG` build, when
slot 1 happens to spell `nb_0`, the words at bytes 42 and 58 happen to spell
`nb_1` and `nb_2`, and the object's memory already held the ticks. -/
structure MisreadAgrees (ndebug : Bool) (obj : Timestamps) (m : RteMbuf)
    (nb tick : Fin nbHops → BitVec 32) : Prop where
  noAssert : ndebug = true
  slot1 : nb 1 = 0#32 ∧ tick 1 = nb 0
  word42 : Bytes.le64 m.bytes 42 = (nb 1).setWidth 64
  word58 : Bytes.le64 m.bytes 58 = (nb 2).setWidth 64
  stale : ∀ i, obj.timestampCurrTick i = (tick i).setWidth 64

theorem decodes_iff {ndebug : Bool} {obj : Timestamps} {m : RteMbuf} {tdata : BitVec 512}
    {nb tick : Fin nbHops → BitVec 32} (hlen : timestampPktSize ≤ m.dataLen)
    (hrec : CarriesRecords m tdata nb tick) :
    Decodes ndebug obj m nb tick ↔ MisreadAgrees ndebug obj m nb tick := by
  have hslot1 : Bytes.le64 m.bytes 26 = nb 1 ++ tick 1 := hrec.le64 hlen 1
  constructor
  · rintro ⟨ts, m', hts, hholds⟩
    rw [construct_little] at hts
    cases ndebug with
    | false => cases hts
    | true =>
        obtain ⟨rfl, -⟩ := Prod.mk.injEq .. |>.mp (Option.some.inj hts)
        have hnb : ∀ i : Fin nbHops, Bytes.le64 m.bytes (26 + 16 * i.val) = (nb i).setWidth 64 :=
          fun i => (extract_nbSync .little m.bytes obj i).symm.trans (hholds i).1
        refine ⟨rfl, ?_, hnb 1, hnb 2, fun i => ?_⟩
        · exact (append_eq_setWidth_iff ..).mp (hslot1.symm.trans (hnb 0))
        · rw [← (hholds i).2, extract_currTick]
  · rintro ⟨rfl, hs1, h42, h58, hstale⟩
    refine ⟨_, _, construct_little true obj m, fun i => ⟨?_, ?_⟩⟩
    · rw [extract_nbSync]
      match i with
      | 0 => exact hslot1.trans ((append_eq_setWidth_iff ..).mpr hs1)
      | 1 => exact h42
      | 2 => exact h58
    · rw [extract_currTick]
      exact hstale i

/-- First beat of a sync frame stamped `(1, 10)`, `(2, 20)`, `(3, 30)`. -/
def stampedTdata : BitVec 512 :=
  0x00000000000000000000DEADBEEF00000000DEADBEEF000000030000001E0000000200000014000000010000000A0008BC0A0081000000000000000000000000#512

def stampedFrame : RteMbuf := ⟨lane stampedTdata, 64, 1984⟩

def sampleNb : Fin nbHops → BitVec 32 := fun i => BitVec.ofNat 32 (i.val + 1)
def sampleTick : Fin nbHops → BitVec 32 := fun i => BitVec.ofNat 32 (10 * (i.val + 1))

/-- The stamped frame is not decoded, in either build and whatever the memory
of the object held. -/
theorem stampedFrame_not_decoded :
    PacketDetect.SyncHeader stampedFrame.bytes ∧ timestampPktSize ≤ stampedFrame.dataLen
      ∧ CarriesRecords stampedFrame stampedTdata sampleNb sampleTick
      ∧ ∀ ndebug obj, ¬Decodes ndebug obj stampedFrame sampleNb sampleTick := by
  refine ⟨⟨by decide +kernel, by decide +kernel, by decide +kernel⟩, by decide,
    ⟨fun _ _ => rfl, by decide +kernel⟩, ?_⟩
  rintro ndebug obj ⟨ts, m', hts, hholds⟩
  rw [construct_little] at hts
  cases ndebug with
  | false => cases hts
  | true =>
      obtain ⟨rfl, -⟩ := Prod.mk.injEq .. |>.mp (Option.some.inj hts)
      have h0 := (extract_nbSync .little stampedFrame.bytes obj 0).symm.trans (hholds 0).1
      exact absurd h0 (by decide +kernel)

/-- First beat of a sync frame stamped `(5, 1)`, `(0, 5)`, `(6, 8)`, in which what
the decoder reads in place of the records happens to spell them. -/
def spellingTdata : BitVec 512 :=
  0x00000000000600000000DEADBEEF00000000000000000000000600000008000000000000000500000005000000010008BC0A0081000000000000000000000000#512

def spellingFrame : RteMbuf := ⟨fun k => if k < 64 then lane spellingTdata k else 0#8, 64, 1984⟩

/-- Into memory that holds the ticks already, assertions compiled out. -/
theorem decodes_iff_spelling :
    PacketDetect.SyncHeader spellingFrame.bytes
      ∧ Decodes true ⟨fun _ => 0#64, ![1#64, 5#64, 8#64]⟩ spellingFrame
        ![5#32, 0#32, 6#32] ![1#32, 5#32, 8#32] := by
  have hrec : CarriesRecords spellingFrame spellingTdata ![5#32, 0#32, 6#32] ![1#32, 5#32, 8#32] :=
    ⟨fun _ hk => (if_pos (Nat.lt_of_lt_of_le hk (Nat.min_le_right _ _))).symm, by decide +kernel⟩
  exact ⟨⟨by decide +kernel, by decide +kernel, by decide +kernel⟩,
    (decodes_iff (by decide) hrec).mpr
      ⟨rfl, ⟨rfl, rfl⟩, by decide +kernel, by decide +kernel, by decide⟩⟩

end Timestamps

end P2pInspection
