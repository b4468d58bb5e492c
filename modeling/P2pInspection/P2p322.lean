import P2pInspection.ClkSyncPulse
import P2pInspection.StreamFifo
import P2pInspection.TimestampInject

/-!
# `p2p_322mhz`: slices, injectors and the shared clock

Each port has two paths, and each path is a register slice, the injector and a
second slice; all injectors stamp with the counters of one `clk_sync_pulse`,
whose pulse is the OR of all detections behind two flip-flops. An event is one
instant at which some of the port clocks rise.

`timestamp_inject.axil_aresetn` is connected in no instance and reads 0, so the
framing register of every detector is held in reset and every beat counts as
the first of its frame (`oSyncDetected_unconnected`). `box_transparent_iff` says
what this costs.
-/

namespace P2pInspection

open StreamFifo TimestampInject

namespace P2p322

inductive Direction where
  | tx
  | rx
deriving Repr, DecidableEq

/-- The wires of a path that come from outside at one event: the slave channel,
and the ready of the master channel (on RX there is no such port). -/
structure Wires where
  tvalid : Bool
  beat : Beat
  tready : Bool
deriving Repr, DecidableEq

structure Crossing where
  beat : Beat
  nbSync : BitVec 32
  currTick : BitVec 32
deriving Repr, DecidableEq

/-- The registers of a path, and the history of its three channels: what the
port accepted, what went through the injector, what came out. -/
structure Path (slice : Slice Beat) where
  slice0 : slice.State
  inPacket : Bool
  slice1 : slice.State
  accepted : List Beat
  crossed : List Crossing
  out : List Beat

/-- `timestamp_inject.axil_aresetn` has no connection. -/
def axilAresetn : Bool := false

namespace Path

variable {slice : Slice Beat}

/-- `s_axis_adap_tx_322mhz_tready`; the CMAC RX stream has no ready at all. -/
def inReady (p : Path slice) : Direction → Bool
  | .tx => slice.tready p.slice0
  | .rx => true

/-- `axis_adap_tx_322mhz_tready` from the second slice, `1'b1` on RX. -/
def midReady (p : Path slice) : Direction → Bool
  | .tx => slice.tready p.slice1
  | .rx => true

def outReady (w : Wires) : Direction → Bool
  | .tx => w.tready
  | .rx => true

def mid (p : Path slice) (dir : Direction) : Cycle :=
  ⟨slice.tvalid p.slice0, p.midReady dir, slice.tdata p.slice0⟩

def oSyncDetected (p : Path slice) (dir : Direction) : Bool :=
  PacketDetect.syncDetectedO (PacketDetect.inPacketQ axilAresetn p.inPacket) (p.mid dir)

def injectedBeat (p : Path slice) (dir : Direction) (nbSync currTick : BitVec 32) : Beat :=
  { (p.mid dir).beat with
    tdata := oAxisTdata (p.oSyncDetected dir) (p.mid dir).beat.tdata nbSync currTick }

def edge (p : Path slice) (dir : Direction) (nbSync currTick : BitVec 32) (w : Wires) :
    Path slice where
  slice0 := slice.step p.slice0 w.tvalid w.beat (p.midReady dir)
  inPacket := PacketDetect.inPacketNext axilAresetn p.inPacket (p.mid dir)
  slice1 := slice.step p.slice1 (p.mid dir).tvalid (p.injectedBeat dir nbSync currTick)
    (outReady w dir)
  accepted := p.accepted ++ moved w.tvalid (p.inReady dir) w.beat
  crossed := p.crossed
    ++ moved (p.mid dir).tvalid (p.mid dir).tready ⟨(p.mid dir).beat, nbSync, currTick⟩
  out := p.out ++ moved (slice.tvalid p.slice1) (outReady w dir) (slice.tdata p.slice1)

/-- A path whose slices have just been reset; nothing resets `in_packet`. -/
def released (slice : Slice Beat) (inPacket : Bool) : Path slice :=
  ⟨slice.init, inPacket, slice.init, [], [], []⟩

end Path

/-! ## The box -/

/-- The state of the box with `NUM_CMAC_PORT = n + 1`. -/
structure Box (slice : Slice Beat) (n : Nat) where
  path : Fin (n + 1) → Direction → Path slice
  syncDetectedCombinedMeta : Bool
  syncDetectedCombinedR : Bool
  clkSyncPulse : ClkSyncPulse.Regs

structure Event (n : Nat) where
  cmacClk : Fin (n + 1) → Bool
  wires : Fin (n + 1) → Direction → Wires

namespace Box

variable {slice : Slice Beat} {n : Nat}

def anySyncDetected (b : Box slice n) : Bool :=
  (List.finRange (n + 1)).any fun i =>
    (b.path i .tx).oSyncDetected .tx || (b.path i .rx).oSyncDetected .rx

/-- The two flip-flops and `clk_sync_pulse` are on `cmac_clk[0]`; the latter is
instantiated with its defaults, as a slave. -/
def step (b : Box slice n) (e : Event n) : Box slice n where
  path i dir :=
    if e.cmacClk i then
      (b.path i dir).edge dir b.clkSyncPulse.regNbSync b.clkSyncPulse.regCurrTick (e.wires i dir)
    else b.path i dir
  syncDetectedCombinedMeta :=
    if e.cmacClk 0 then b.anySyncDetected else b.syncDetectedCombinedMeta
  syncDetectedCombinedR :=
    if e.cmacClk 0 then b.syncDetectedCombinedMeta else b.syncDetectedCombinedR
  clkSyncPulse :=
    if e.cmacClk 0 then
      ClkSyncPulse.edge .slave ClkSyncPulse.defaultPeriod true b.clkSyncPulse
        b.syncDetectedCombinedR
    else b.clkSyncPulse

/-- The box after the release of its resets: empty slices, and any contents in
the other registers. -/
def released (slice : Slice Beat) (inPacket : Fin (n + 1) → Direction → Bool)
    (combinedMeta combinedR : Bool) (clk : ClkSyncPulse.Regs) : Box slice n :=
  ⟨fun i dir => Path.released slice (inPacket i dir), combinedMeta, combinedR, clk⟩

def run (b : Box slice n) (es : List (Event n)) : Box slice n := es.foldl step b

end Box

/-! ## What a path conserves -/

/-- The beat as the injector passes it on. -/
def Crossing.stamped (x : Crossing) : Beat :=
  { x.beat with
    tdata := oAxisTdata (PacketDetect.headerMatches x.beat.tdata) x.beat.tdata x.nbSync
      x.currTick }

/-- With the reset held, detection is a matter of the handshake and the header. -/
theorem syncDetectedO_unconnected (inPacket : Bool) (c : Cycle) :
    PacketDetect.syncDetectedO (PacketDetect.inPacketQ axilAresetn inPacket) c
      = (c.accepted && PacketDetect.headerMatches c.beat.tdata) := by
  rw [PacketDetect.syncDetectedO_eq, axilAresetn, PacketDetect.inPacketQ_held]
  simp [PacketDetect.firstBeat, Cycle.accepted]

namespace Path

variable {slice : Slice Beat}

/-- With the reset held, a transfer is always a first beat. -/
theorem oSyncDetected_unconnected {p : Path slice} {dir : Direction}
    (hvalid : (p.mid dir).tvalid = true) (hready : (p.mid dir).tready = true) :
    p.oSyncDetected dir = PacketDetect.headerMatches (p.mid dir).beat.tdata := by
  rw [oSyncDetected, syncDetectedO_unconnected]
  simp [Cycle.accepted, hvalid, hready]

/-- Both slices are FIFOs between the three histories, and on RX, where nothing
can stall, they are ready at every edge. -/
structure Conserved (p : Path slice) (dir : Direction) : Prop where
  fifo0 : p.accepted = p.crossed.map Crossing.beat ++ slice.queue p.slice0
  fifo1 : p.crossed.map Crossing.stamped = p.out ++ slice.queue p.slice1
  drained : dir = .rx → slice.Drained p.slice0 ∧ slice.Drained p.slice1

theorem conserved_released (inPacket : Bool) (dir : Direction) :
    (released slice inPacket).Conserved dir :=
  ⟨slice.queue_init.symm, slice.queue_init.symm, fun _ => ⟨.init, .init⟩⟩

theorem Conserved.ready {p : Path slice} {dir : Direction} (h : p.Conserved dir) :
    p.inReady dir = slice.tready p.slice0 ∧ p.midReady dir = slice.tready p.slice1 := by
  cases dir with
  | tx => exact ⟨rfl, rfl⟩
  | rx =>
      obtain ⟨h0, h1⟩ := h.drained rfl
      exact ⟨h0.tready.symm, h1.tready.symm⟩

theorem Conserved.edge {p : Path slice} {dir : Direction} (h : p.Conserved dir)
    (nbSync currTick : BitVec 32) (w : Wires) : (p.edge dir nbSync currTick w).Conserved dir := by
  obtain ⟨hin, hmid⟩ := h.ready
  refine ⟨?_, ?_, ?_⟩
  · have hslice := slice.conserves p.slice0 w.tvalid w.beat (p.midReady dir)
    simp only [Path.edge, List.map_append, map_moved]
    rw [h.fifo0, hin, List.append_assoc, hslice, ← List.append_assoc]
    rfl
  · have hstamp : moved (p.mid dir).tvalid (p.mid dir).tready
          (Crossing.stamped ⟨(p.mid dir).beat, nbSync, currTick⟩)
        = moved (p.mid dir).tvalid (slice.tready p.slice1)
          (p.injectedBeat dir nbSync currTick) := by
      have hready : (p.mid dir).tready = slice.tready p.slice1 := hmid
      rw [← hready]
      refine moved_congr fun hv hr => ?_
      rw [injectedBeat, oSyncDetected_unconnected hv hr, Crossing.stamped]
    have hslice := slice.conserves p.slice1 (p.mid dir).tvalid
      (p.injectedBeat dir nbSync currTick) (outReady w dir)
    simp only [Path.edge, List.map_append, map_moved]
    rw [h.fifo1, hstamp, List.append_assoc, hslice, ← List.append_assoc]
  · rintro rfl
    obtain ⟨h0, h1⟩ := h.drained rfl
    exact ⟨h0.step w.tvalid w.beat, h1.step _ _⟩

end Path

theorem Box.conserved_run {slice : Slice Beat} {n : Nat} (es : List (Event n)) {b : Box slice n}
    (h : ∀ i dir, (b.path i dir).Conserved dir) :
    ∀ i dir, ((b.run es).path i dir).Conserved dir := by
  induction es generalizing b with
  | nil => exact h
  | cons e rest ih =>
      refine ih fun i dir => ?_
      simp only [Box.step]
      split
      · exact (h i dir).edge _ _ _
      · exact h i dir

/-! ## Transparency -/

def startsFrame (beats : List Beat) : Nat → Bool
  | 0 => true
  | k + 1 => (beats[k]?).any Beat.tlast

/-- A beat may come out as `b'` for `b`: unchanged but for the data of a first
beat with the VLAN header. -/
structure Faithful (first : Bool) (b b' : Beat) : Prop where
  tkeep : b'.tkeep = b.tkeep
  tlast : b'.tlast = b.tlast
  tuser : b'.tuser = b.tuser
  tdata : b'.tdata = b.tdata ∨ first = true ∧ PacketDetect.headerMatches b.tdata = true

/-- The beats that left the path, then those still in its slices. -/
def Path.passed {slice : Slice Beat} (p : Path slice) : List Beat :=
  p.out ++ slice.queue p.slice1 ++ slice.queue p.slice0

/-- Nothing lost, duplicated or reordered, and only first beats with the VLAN
header altered. -/
structure Transparent {slice : Slice Beat} (p : Path slice) : Prop where
  length : p.passed.length = p.accepted.length
  faithful : ∀ k b b', p.accepted[k]? = some b → p.passed[k]? = some b' →
    Faithful (startsFrame p.accepted k) b b'

/-- The window the injector would write already holds the record. -/
def Crossing.HoldsRecord (x : Crossing) : Prop :=
  x.beat.tdata.extractLsb' (getTimestampIdx x.beat.tdata).2 64 = record x.currTick

/-- Crossing `k` is a later beat of its frame and carries the header bits of a
sync frame without already holding the record. -/
def Path.Imitated {slice : Slice Beat} (p : Path slice) (k : Nat) (x : Crossing) : Prop :=
  startsFrame p.accepted k = false ∧ PacketDetect.headerMatches x.beat.tdata = true
    ∧ ¬x.HoldsRecord

theorem Crossing.stamped_tdata_eq_iff (x : Crossing) :
    x.stamped.tdata = x.beat.tdata
      ↔ PacketDetect.headerMatches x.beat.tdata = true → x.HoldsRecord := by
  simp only [Crossing.stamped, oAxisTdata, Crossing.HoldsRecord]
  cases PacketDetect.headerMatches x.beat.tdata with
  | false => simp
  | true => simpa using PartSelect.write_eq_self_iff _ _ (insertIdx_le _)

theorem faithful_stamped_iff (first : Bool) (x : Crossing) :
    Faithful first x.beat x.stamped
      ↔ (first = false → PacketDetect.headerMatches x.beat.tdata = true → x.HoldsRecord) := by
  constructor
  · rintro h hfirst hmatch
    rcases h.tdata with heq | ⟨htrue, -⟩
    · exact x.stamped_tdata_eq_iff.mp heq hmatch
    · rw [hfirst] at htrue
      cases htrue
  · intro h
    refine ⟨rfl, rfl, rfl, ?_⟩
    cases first with
    | false => exact Or.inl (x.stamped_tdata_eq_iff.mpr (h rfl))
    | true =>
        cases hmatch : PacketDetect.headerMatches x.beat.tdata with
        | true => exact Or.inr ⟨rfl, rfl⟩
        | false => exact Or.inl (x.stamped_tdata_eq_iff.mpr (by simp [hmatch]))

theorem Faithful.refl (first : Bool) (b : Beat) : Faithful first b b :=
  ⟨rfl, rfl, rfl, Or.inl rfl⟩

namespace Path

variable {slice : Slice Beat} {p : Path slice} {dir : Direction}

theorem Conserved.passed (h : p.Conserved dir) :
    p.passed = p.crossed.map Crossing.stamped ++ slice.queue p.slice0 := by
  rw [Path.passed, h.fifo1]

theorem Conserved.crossing (h : p.Conserved dir) {k : Nat} {x : Crossing}
    (hx : p.crossed[k]? = some x) :
    p.accepted[k]? = some x.beat ∧ p.passed[k]? = some x.stamped := by
  have hlt : k < p.crossed.length := (List.getElem?_eq_some_iff.mp hx).1
  rw [h.fifo0, h.passed, List.getElem?_append_left (by simpa using hlt),
    List.getElem?_append_left (by simpa using hlt), List.getElem?_map, List.getElem?_map, hx]
  exact ⟨rfl, rfl⟩

/-- Behind the crossings the two streams are the same beats of the first slice. -/
theorem Conserved.waiting (h : p.Conserved dir) {k : Nat} (hk : p.crossed.length ≤ k) :
    p.passed[k]? = p.accepted[k]? := by
  rw [h.fifo0, h.passed, List.getElem?_append_right (by simpa using hk),
    List.getElem?_append_right (by simpa using hk), List.length_map, List.length_map]

theorem Conserved.transparent_iff (h : p.Conserved dir) :
    Transparent p ↔ ∀ k x, p.crossed[k]? = some x → ¬p.Imitated k x := by
  constructor
  · rintro ht k x hx ⟨hlater, hmatch, hfree⟩
    obtain ⟨hacc, hpass⟩ := h.crossing hx
    exact hfree ((faithful_stamped_iff _ x).mp (ht.faithful k _ _ hacc hpass) hlater hmatch)
  · intro hclean
    refine ⟨?_, fun k b b' hacc hpass => ?_⟩
    · rw [h.passed, h.fifo0, List.length_append, List.length_append, List.length_map,
        List.length_map]
    · rcases Nat.lt_or_ge k p.crossed.length with hk | hk
      · have hx : p.crossed[k]? = some p.crossed[k] := List.getElem?_eq_getElem hk
        obtain ⟨haccx, hpassx⟩ := h.crossing hx
        obtain rfl := Option.some.inj (haccx.symm.trans hacc)
        obtain rfl := Option.some.inj (hpassx.symm.trans hpass)
        rw [faithful_stamped_iff]
        intro hlater hmatch
        by_contra hfree
        exact hclean k _ hx ⟨hlater, hmatch, hfree⟩
      · obtain rfl := Option.some.inj (hpass.symm.trans ((h.waiting hk).trans hacc))
        exact Faithful.refl ..

end Path

/-- Every path of the box, after any events, is transparent exactly when no
later beat of a frame came to its injector looking like a sync header. -/
theorem box_transparent_iff (slice : Slice Beat) {n : Nat}
    (inPacket : Fin (n + 1) → Direction → Bool) (combinedMeta combinedR : Bool)
    (clk : ClkSyncPulse.Regs) (es : List (Event n)) (i : Fin (n + 1)) (dir : Direction) :
    Transparent (((Box.released slice inPacket combinedMeta combinedR clk).run es).path i dir)
      ↔ ∀ k x,
        (((Box.released slice inPacket combinedMeta combinedR clk).run es).path i dir).crossed[k]?
            = some x →
          ¬(((Box.released slice inPacket combinedMeta combinedR clk).run es).path i dir).Imitated
            k x :=
  (Box.conserved_run es (fun i dir => Path.conserved_released (inPacket i dir) dir)
    i dir).transparent_iff

/-! ## Two frames through a one-port box -/

def oneBeat (tdata : BitVec 512) (tlast : Bool) : Beat := ⟨tdata, 0xFFFFFFFFFFFFFFFF#64, tlast, false⟩

def feed (beats : List Beat) : List (Event 0) :=
  beats.map (fun b => ⟨fun _ => true, fun _ _ => ⟨true, b, true⟩⟩)
    ++ List.replicate 2 ⟨fun _ => true, fun _ _ => ⟨false, oneBeat 0#512 false, true⟩⟩

def fedPath (beats : List Beat) (dir : Direction) : Path (skid (oneBeat 0#512 false)) :=
  ((Box.released (skid (oneBeat 0#512 false)) (fun _ _ => false) false false
    (ClkSyncPulse.settled .slave ClkSyncPulse.defaultPeriod)).run (feed beats)).path 0 dir

/-- The second beat of this frame has the sync header at its bits 96 to 127. -/
def imitatingFrame : List Beat := [oneBeat 0#512 false, unstampedBeat]

/-- The second beat of the frame comes out with `ABCD` and a tick in its first bytes. -/
theorem imitatingFrame_altered : ¬Transparent (fedPath imitatingFrame .tx) := by
  intro h
  have hacc : (fedPath imitatingFrame .tx).accepted[1]? = some unstampedBeat := by
    decide +kernel
  have hpass : (fedPath imitatingFrame .tx).passed[1]?
      = some { unstampedBeat with tdata := unstampedBeat.tdata ||| 0x0000ABCD00000000#512 } := by
    decide +kernel
  have hlater : startsFrame (fedPath imitatingFrame .tx).accepted 1 = false := by
    decide +kernel
  have hf := h.faithful 1 _ _ hacc hpass
  rw [hlater] at hf
  rcases hf.tdata with heq | ⟨hfirst, -⟩
  · exact absurd heq (by decide +kernel)
  · cases hfirst

def ordinaryTraffic : List Beat := [unstampedBeat, oneBeat 5#512 false, oneBeat 7#512 true]

theorem box_transparent_iff_ordinaryTraffic : Transparent (fedPath ordinaryTraffic .rx) := by
  have hplain : ∀ x ∈ (fedPath ordinaryTraffic .rx).crossed.drop 1,
      PacketDetect.headerMatches x.beat.tdata = false := by
    decide +kernel
  refine (box_transparent_iff _ _ _ _ _ _ 0 .rx).mpr fun k x hx himit => ?_
  obtain ⟨hlater, hmatch, -⟩ := himit
  cases k with
  | zero => cases hlater
  | succ k =>
      have hmem := List.mem_of_getElem? ((List.getElem?_drop (i := 1)).trans
        ((congrArg _ (Nat.add_comm 1 k)).trans hx))
      exact Bool.false_ne_true ((hplain x hmem).symm.trans hmatch)

end P2p322

end P2pInspection
