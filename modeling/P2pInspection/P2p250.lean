import P2pInspection.Clocked
import P2pInspection.P2p322
import P2pInspection.ReadyValid

/-!
# `p2p_250mhz`: the box on the host's side

The box with one QDMA, for which each interface has one register slice a
direction, between the streams of the QDMA and those of the packet adapter (with
more of them there are switches in their place). The three `tuser` fields go
through the slice as one vector; behind it the destination is not the one that
came in but a constant of the interface. `box_forwards` is what the box does to
its streams in every run, with nothing used of a slice but that it is a FIFO, and
up to how many interfaces the destination tells them apart.
-/

namespace P2pInspection

open StreamFifo P2p322

namespace P2p250

/-- A beat on the ports of the box. -/
structure PortBeat where
  tdata : BitVec 512
  tkeep : BitVec 64
  tlast : Bool
  tuserSize : BitVec 16
  tuserSrc : BitVec 16
  tuserDst : BitVec 16
deriving Repr, DecidableEq

/-- A beat in `axi_stream_pipeline`. -/
structure PplBeat where
  tdata : BitVec 512
  tkeep : BitVec 64
  tlast : Bool
  tuser : BitVec 48
deriving Repr, DecidableEq

/-- Size, source and destination at bits 0, 16 and 32. -/
def PortBeat.toPpl (b : PortBeat) : PplBeat :=
  ⟨b.tdata, b.tkeep, b.tlast, b.tuserDst ++ (b.tuserSrc ++ b.tuserSize)⟩

/-- `16'h1 << (6 + i)` towards the adapter, `16'h1 << i` towards the QDMA. -/
def tuserDst : Direction → Nat → BitVec 16
  | .tx, i => 0x1#16 <<< (6 + i)
  | .rx, i => 0x1#16 <<< i

/-- The wires of a master port: the slice, and the destination of the port. -/
def PplBeat.toPort (dir : Direction) (i : Nat) (b : PplBeat) : PortBeat where
  tdata := b.tdata
  tkeep := b.tkeep
  tlast := b.tlast
  tuserSize := b.tuser.extractLsb' 0 16
  tuserSrc := b.tuser.extractLsb' 16 16
  tuserDst := tuserDst dir i

/-- What comes in on one interface at an edge. -/
structure Wires where
  tvalid : Bool
  beat : PortBeat
  tready : Bool
deriving Repr, DecidableEq

/-- A slice, and the history of its two channels. -/
structure Ppl (slice : Slice PplBeat) where
  state : slice.State
  accepted : List PortBeat
  out : List PortBeat

namespace Ppl

variable {slice : Slice PplBeat}

def edge (dir : Direction) (i : Nat) (p : Ppl slice) (w : Wires) : Ppl slice where
  state := slice.step p.state w.tvalid w.beat.toPpl w.tready
  accepted := p.accepted ++ moved w.tvalid (slice.tready p.state) w.beat
  out := p.out ++ moved (slice.tvalid p.state) w.tready ((slice.tdata p.state).toPort dir i)

def released (slice : Slice PplBeat) : Ppl slice := ⟨slice.init, [], []⟩

end Ppl

/-- The box with `NUM_QDMA = 1` and `NUM_INTF = n`. -/
structure Box (slice : Slice PplBeat) (n : Nat) where
  ppl : Fin n → Direction → Ppl slice

namespace Box

variable {slice : Slice PplBeat} {n : Nat}

/-- An edge of `axis_aclk` with the reset released. -/
def edge (b : Box slice n) (w : Fin n → Direction → Wires) : Box slice n where
  ppl i dir := (b.ppl i dir).edge dir i (w i dir)

def released (slice : Slice PplBeat) (n : Nat) : Box slice n :=
  ⟨fun _ _ => Ppl.released slice⟩

/-- The box after `k` edges. -/
def stateAt (slice : Slice PplBeat) (ins : Nat → Fin n → Direction → Wires) (k : Nat) :
    Box slice n :=
  Clocked.stateAt edge (released slice n) ins k

/-- The wires of a master port over time. -/
def master (slice : Slice PplBeat) (ins : Nat → Fin n → Direction → Wires) (i : Fin n)
    (dir : Direction) : ReadyValid.Channel PortBeat where
  tvalid k := slice.tvalid ((stateAt slice ins k).ppl i dir).state
  tready k := (ins k i dir).tready
  tdata k := (slice.tdata ((stateAt slice ins k).ppl i dir).state).toPort dir i

end Box

/-! ## Destinations -/

/-- The one bit that is set in the destination of an interface. -/
def dstBit : Direction → Nat → Nat
  | .tx, i => 6 + i
  | .rx, i => i

theorem getLsbD_tuserDst (dir : Direction) (i : Nat) {k : Nat} (hk : k < 16) :
    (tuserDst dir i).getLsbD k = decide (k = dstBit dir i) := by
  have hshift : ∀ j, (0x1#16 <<< j).getLsbD k = decide (k = j) := by
    intro j
    rw [BitVec.getLsbD_shiftLeft, BitVec.getLsbD_one, Bool.eq_iff_iff]
    simp only [Bool.and_eq_true, decide_eq_true_eq, Bool.not_eq_true', decide_eq_false_iff_not]
    omega
  cases dir with
  | tx => exact hshift (6 + i)
  | rx => exact hshift i

/-- The destinations of `n` interfaces are different, and none of them is zero. -/
def TellsApart (n : Nat) (dir : Direction) : Prop :=
  ∀ i < n, tuserDst dir i ≠ 0#16 ∧ ∀ j < n, tuserDst dir i = tuserDst dir j → i = j

/-- Beyond the sixteen bits nothing is left of the shifted one. -/
theorem tellsApart_iff (n : Nat) (dir : Direction) : TellsApart n dir ↔ dstBit dir n ≤ 16 := by
  have hlast : ∀ i, dstBit dir (i + 1) = dstBit dir i + 1 := fun i => by cases dir <;> rfl
  have hinj : ∀ i j, dstBit dir i = dstBit dir j → i = j := by
    intro i j h
    cases dir with
    | tx => exact Nat.add_left_cancel h
    | rx => exact h
  constructor
  · intro h
    cases n with
    | zero => cases dir <;> decide
    | succ i =>
        rw [hlast]
        by_contra hbeyond
        refine (h i (Nat.lt_succ_self i)).1 (BitVec.eq_of_getLsbD_eq fun k hk => ?_)
        rw [getLsbD_tuserDst dir i hk, BitVec.getLsbD_zero, decide_eq_false_iff_not]
        omega
  · intro hn i hi
    have hset : dstBit dir i < 16 ∧ (tuserDst dir i).getLsbD (dstBit dir i) = true := by
      have hbit : dstBit dir i < 16 := by
        cases dir <;> simp only [dstBit] at hn ⊢ <;> omega
      exact ⟨hbit, by rw [getLsbD_tuserDst dir i hbit, decide_eq_true rfl]⟩
    refine ⟨fun hzero => ?_, fun j _ heq => ?_⟩
    · rw [hzero, BitVec.getLsbD_zero] at hset
      cases hset.2
    · rw [heq, getLsbD_tuserDst dir j hset.1, decide_eq_true_eq] at hset
      exact hinj i j hset.2

/-! ## What a slice does to its stream -/

/-- The beat with the destination of the port it leaves by. -/
def addressed (dir : Direction) (i : Nat) (b : PortBeat) : PortBeat :=
  { b with tuserDst := tuserDst dir i }

theorem extractLsb'_append_low {u v w : Nat} (x : BitVec u) (y : BitVec v) (z : BitVec w) :
    (x ++ (y ++ z)).extractLsb' 0 w = z := by
  apply BitVec.eq_of_getLsbD_eq
  intro k hk
  have hlow : k < v + w := by omega
  simp [BitVec.getLsbD_append, BitVec.getElem_append, hk, hlow]

theorem extractLsb'_append_mid {u v w : Nat} (x : BitVec u) (y : BitVec v) (z : BitVec w) :
    (x ++ (y ++ z)).extractLsb' w v = y := by
  apply BitVec.eq_of_getLsbD_eq
  intro k hk
  have hlow : w + k < v + w := by omega
  have hhigh : ¬w + k < w := by omega
  simp [BitVec.getLsbD_append, BitVec.getElem_append, hk, hlow, hhigh]

/-- Size and source come through the vector as they were. -/
theorem toPort_toPpl (dir : Direction) (i : Nat) (b : PortBeat) :
    b.toPpl.toPort dir i = addressed dir i b := by
  have hsize : b.toPpl.tuser.extractLsb' 0 16 = b.tuserSize :=
    extractLsb'_append_low b.tuserDst b.tuserSrc b.tuserSize
  have hsrc : b.toPpl.tuser.extractLsb' 16 16 = b.tuserSrc :=
    extractLsb'_append_mid b.tuserDst b.tuserSrc b.tuserSize
  rw [PplBeat.toPort, hsize, hsrc]
  rfl

/-- All that was accepted came out or is in the slice, in order. -/
def InOrder {slice : Slice PplBeat} (dir : Direction) (i : Nat) (p : Ppl slice) : Prop :=
  p.accepted.map (addressed dir i) = p.out ++ (slice.queue p.state).map (PplBeat.toPort dir i)

theorem InOrder.edge {slice : Slice PplBeat} {dir : Direction} {i : Nat} {p : Ppl slice}
    (h : InOrder dir i p) (w : Wires) : InOrder dir i (p.edge dir i w) := by
  have hslice := congrArg (List.map (PplBeat.toPort dir i))
    (slice.conserves p.state w.tvalid w.beat.toPpl w.tready)
  simp only [List.map_append, map_moved, toPort_toPpl] at hslice
  rw [InOrder] at h ⊢
  simp only [Ppl.edge, List.map_append, map_moved]
  rw [h, List.append_assoc, hslice, List.append_assoc]

/-! ## The box -/

/-- `b'` is `b` with the one bit of interface `i` for its destination. -/
structure Addressed (dir : Direction) (i : Nat) (b b' : PortBeat) : Prop where
  tdata : b'.tdata = b.tdata
  tkeep : b'.tkeep = b.tkeep
  tlast : b'.tlast = b.tlast
  tuserSize : b'.tuserSize = b.tuserSize
  tuserSrc : b'.tuserSrc = b.tuserSrc
  tuserDst : ∀ k < 16, b'.tuserDst.getLsbD k = decide (k = dstBit dir i)

theorem addressed_spec (dir : Direction) (i : Nat) (b : PortBeat) :
    Addressed dir i b (addressed dir i b) :=
  ⟨rfl, rfl, rfl, rfl, rfl, fun _ hk => getLsbD_tuserDst dir i hk⟩

/-- What came out is the first part of what was accepted; the rest is in the slice. -/
structure Forwarded {slice : Slice PplBeat} (dir : Direction) (i : Nat) (p : Ppl slice) :
    Prop where
  length : p.accepted.length = p.out.length + (slice.queue p.state).length
  beats : ∀ (k : Nat) (b b' : PortBeat), p.accepted[k]? = some b → p.out[k]? = some b' →
    Addressed dir i b b'

theorem InOrder.forwarded {slice : Slice PplBeat} {dir : Direction} {i : Nat} {p : Ppl slice}
    (h : InOrder dir i p) : Forwarded dir i p := by
  refine ⟨by simpa using congrArg List.length h, fun k b b' hb hb' => ?_⟩
  have hlt : k < p.out.length := (List.getElem?_eq_some_iff.mp hb').1
  have hsame : (p.accepted.map (addressed dir i))[k]? = some b' := by
    rw [h, List.getElem?_append_left hlt, hb']
  rw [List.getElem?_map, hb] at hsame
  obtain rfl := Option.some.inj hsame
  exact addressed_spec dir i b

/-- Every stream is forwarded in order with the destination of its port; what an
interface does in a direction depends on its own wires alone; and what is offered
stays on offer if the slice does not take offers back. -/
structure Forwards {n : Nat} (slice : Slice PplBeat) (ins : Nat → Fin n → Direction → Wires)
    (dir : Direction) : Prop where
  forwarded : ∀ i k, Forwarded dir i.val ((Box.stateAt slice ins k).ppl i dir)
  apart : ∀ (i : Fin n) (ins' : Nat → Fin n → Direction → Wires),
    (∀ k, ins' k i dir = ins k i dir) →
    ∀ k, (Box.stateAt slice ins' k).ppl i dir = (Box.stateAt slice ins k).ppl i dir
  holds : ∀ i, slice.KeepsValid → (Box.master slice ins i dir).Holds

theorem box_forwards {n : Nat} (slice : Slice PplBeat) (ins : Nat → Fin n → Direction → Wires)
    (dir : Direction) :
    Forwards slice ins dir ∧ (TellsApart n dir ↔ dstBit dir n ≤ 16) := by
  refine ⟨⟨fun i => ?forwarded, fun i ins' hsame k => ?apart, fun i hkeep k hstalled => ?holds⟩,
    tellsApart_iff n dir⟩
  case forwarded =>
    have hrun : ∀ k, InOrder dir i ((Box.stateAt slice ins k).ppl i dir) := by
      refine Clocked.stateAt_induct (P := fun _ (b : Box slice n) => InOrder dir i (b.ppl i dir))
        ?_ fun k b hb => hb.edge (ins k i dir)
      exact (congrArg (List.map _) slice.queue_init).symm
    exact fun k => (hrun k).forwarded
  case apart =>
    induction k with
    | zero => rfl
    | succ k ih => exact congrArg₂ (Ppl.edge dir i) ih (hsame k)
  case holds =>
    obtain ⟨hvalid, hready⟩ := Bool.and_eq_true_iff.mp hstalled
    obtain ⟨hvalid', hdata⟩ := hkeep.offers_again hvalid (ins k i dir).tvalid
      (ins k i dir).beat.toPpl
    have hstate : ((Box.stateAt slice ins (k + 1)).ppl i dir).state
        = slice.step ((Box.stateAt slice ins k).ppl i dir).state (ins k i dir).tvalid
          (ins k i dir).beat.toPpl false := by
      rw [← (Bool.not_eq_true' _).mp hready]
      rfl
    refine ⟨?_, ?_⟩
    · exact (congrArg slice.tvalid hstate).trans hvalid'
    · exact congrArg (PplBeat.toPort dir i) ((congrArg slice.tdata hstate).trans hdata)

/-- Two interfaces; a beat for destination 9 is offered to the second one, and
taken from it at the third edge. -/
def secondPort (k : Nat) (i : Fin 2) (dir : Direction) : Wires where
  tvalid := decide (k = 0 ∧ i.val = 1 ∧ dir = .tx)
  beat := ⟨0xAB#512, 0x1#64, true, 64#16, 3#16, 9#16⟩
  tready := decide (k = 2)

theorem box_forwards_secondPort :
    ((Box.stateAt (skid (PortBeat.toPpl ⟨0#512, 0#64, false, 0#16, 0#16, 0#16⟩)) secondPort 3).ppl
        (Fin.last 1) .tx).out = [⟨0xAB#512, 0x1#64, true, 64#16, 3#16, 0x80#16⟩]
      ∧ Forwards (skid (PortBeat.toPpl ⟨0#512, 0#64, false, 0#16, 0#16, 0#16⟩)) secondPort .tx
      ∧ TellsApart 2 .tx :=
  have hbox := box_forwards (skid (PortBeat.toPpl ⟨0#512, 0#64, false, 0#16, 0#16, 0#16⟩))
    secondPort .tx
  ⟨by decide +kernel, hbox.1, hbox.2.mpr (by decide)⟩

end P2p250

end P2pInspection
