import P2pInspection.TimestampInject

/-!
# Where an injector writes

The window of an injector is one of the five slots, or, when the search finds
nothing, the first eight bytes of the frame (`window_cases`). Neither reaches
the bytes `packet_detect` compares, so along a chain of hops every detector
gives the same answer (`hops_agree`); but the second one lies in the
destination address, and `headerProtected_iff` says for which beats it is
written.
-/

namespace P2pInspection

open PartSelect

namespace TimestampInject

/-! ## The window -/

/-- The search stops at a slot, or leaves the default index. -/
theorem window_cases (tdata : BitVec 512) :
    ((getTimestampIdx tdata).1 = true
        ∧ ∃ s < 5, (getTimestampIdx tdata).2 = payloadOffset + timestampSize * s)
      ∨ getTimestampIdx tdata = (false, 0) := by
  rw [getTimestampIdx_eq]
  cases hfind : slotOffsets.find? (fun j => lowWord tdata j != emptyTimestamp) with
  | none => exact Or.inr rfl
  | some j => exact Or.inl ⟨rfl, mem_slotOffsets.mp (List.mem_of_find?_eq_some hfind)⟩

/-- No slot is found exactly if all of them are marked empty. -/
theorem notFound_iff (tdata : BitVec 512) :
    (getTimestampIdx tdata).1 = false ↔ ∀ s < 5, MarkedEmpty tdata s := by
  constructor
  · intro hnone s hs
    cases hfind : slotOffsets.find? (fun j => lowWord tdata j != emptyTimestamp) with
    | none =>
        have hmark := List.find?_eq_none.mp hfind _ (mem_slotOffsets.mpr ⟨s, hs, rfl⟩)
        rw [Bool.not_eq_true, bne_eq_false_iff_eq] at hmark
        exact hmark
    | some j =>
        rw [getTimestampIdx_eq, hfind] at hnone
        cases hnone
  · intro hempty
    rw [getTimestampIdx_all_empty hempty]

/-- The bits between 64 and 144, header bits among them, are in no window. -/
theorem window_misses_header (tdata : BitVec 512) :
    (getTimestampIdx tdata).2 + 64 ≤ 64 ∨ 144 ≤ (getTimestampIdx tdata).2 := by
  rcases window_cases tdata with ⟨-, s, -, hidx⟩ | hnone
  · right
    rw [hidx]
    simp only [payloadOffset, byte, timestampSize]
    omega
  · left
    simp [hnone]

theorem getLsbD_oAxisTdata {syncDetected : Bool} {tdata : BitVec 512} {nb tick : BitVec 32}
    {k : Nat} (hk : k < 512)
    (hout : k < (getTimestampIdx tdata).2 ∨ (getTimestampIdx tdata).2 + 64 ≤ k) :
    (oAxisTdata syncDetected tdata nb tick).getLsbD k = tdata.getLsbD k := by
  unfold oAxisTdata
  split
  · rw [getLsbD_write _ _ _ hk, if_neg (by omega)]
  · rfl

/-! ## Header and trailer -/

/-- What is to be protected in `d`: everything in front of the slots, everything
behind them, and the whole beat when the search found no slot. -/
structure HeaderProtected (d d' : BitVec 512) : Prop where
  header : ∀ k < payloadOffset, d'.getLsbD k = d.getLsbD k
  trailer : ∀ k < 512, payloadOffset + 5 * timestampSize ≤ k → d'.getLsbD k = d.getLsbD k
  notFound : (getTimestampIdx d).1 = false → d' = d

/-- A slot that was found keeps the write between header and trailer. -/
theorem headerProtected_of_found {d : BitVec 512} (hfound : (getTimestampIdx d).1 = true)
    (syncDetected : Bool) (nbSync currTick : BitVec 32) :
    HeaderProtected d (oAxisTdata syncDetected d nbSync currTick) := by
  rcases window_cases d with ⟨-, s, hs, hidx⟩ | hnone
  · refine ⟨fun k hk => ?_, fun k hk hge => ?_, fun hnone => ?_⟩
    · refine getLsbD_oAxisTdata ?_ (Or.inl ?_)
      · simp only [payloadOffset, byte] at hk
        omega
      · rw [hidx]
        omega
    · refine getLsbD_oAxisTdata hk (Or.inr ?_)
      rw [hidx]
      simp only [timestampSize] at hge ⊢
      omega
    · rw [hfound] at hnone
      cases hnone
  · rw [hnone] at hfound
    cases hfound

/-- Without a slot the record goes to bit 0 of a detected beat. -/
theorem oAxisTdata_eq_self_iff {d : BitVec 512} (hnone : getTimestampIdx d = (false, 0))
    (syncDetected : Bool) (nbSync currTick : BitVec 32) :
    oAxisTdata syncDetected d nbSync currTick = d
      ↔ ¬(syncDetected = true ∧ d.extractLsb' 0 64 ≠ record currTick) := by
  cases syncDetected with
  | false => simp [oAxisTdata]
  | true =>
      rw [oAxisTdata, if_pos rfl, hnone, write_eq_self_iff _ _ (by omega)]
      simp

/-- The write is guarded by the detection and not by the search: the header is
protected except on a detected beat whose five slots are all marked empty, where
eight bytes of it are replaced. -/
theorem headerProtected_iff (aresetn inPacket : Bool) (c : Cycle) (nbSync currTick : BitVec 32) :
    HeaderProtected c.beat.tdata
        (oAxisTdata (PacketDetect.syncDetectedO (PacketDetect.inPacketQ aresetn inPacket) c)
          c.beat.tdata nbSync currTick)
      ↔ ¬(PacketDetect.syncDetectedO (PacketDetect.inPacketQ aresetn inPacket) c = true
          ∧ (∀ s < 5, MarkedEmpty c.beat.tdata s)
          ∧ c.beat.tdata.extractLsb' 0 64 ≠ record currTick) := by
  rw [← notFound_iff]
  generalize PacketDetect.syncDetectedO (PacketDetect.inPacketQ aresetn inPacket) c = detected
  rcases window_cases c.beat.tdata with ⟨hfound, -⟩ | hnone
  · have hprot := headerProtected_of_found hfound detected nbSync currTick
    simp [hprot, hfound]
  · have hself := oAxisTdata_eq_self_iff hnone detected nbSync currTick
    have hfst : (getTimestampIdx c.beat.tdata).1 = false := by rw [hnone]
    constructor
    · rintro hprot ⟨hdet, -, hfree⟩
      exact hself.mp (hprot.notFound hfst) ⟨hdet, hfree⟩
    · intro hok
      have hsame := hself.mpr fun hboth => hok ⟨hboth.1, hfst, hboth.2⟩
      exact ⟨fun k _ => by rw [hsame], fun k _ _ => by rw [hsame], fun _ => hsame⟩

/-- The destination address of an unstamped sync beat is overwritten. -/
theorem unstampedBeat_header_overwritten :
    ¬HeaderProtected unstampedBeat.tdata
      (oAxisTdata (PacketDetect.syncDetectedO (PacketDetect.inPacketQ true false)
        ⟨true, true, unstampedBeat⟩) unstampedBeat.tdata 7#32 9#32) := by
  intro hprot
  exact absurd (hprot.header 0 (by decide)) (by decide +kernel)

/-! ## A chain of hops -/

/-- The beat as it reaches hop `k` of the chain. -/
def beatAt (b : Beat) (hops : List (BitVec 32 × BitVec 32)) (k : Nat) : Beat :=
  throughHops b (hops.take k)

/-- `sync_detected` of a hop. -/
def hopDetects (b : Beat) : Bool :=
  PacketDetect.syncDetectedO (PacketDetect.inPacketQ true false) ⟨true, true, b⟩

/-- The hop recognises `b` and passes on `b'`, which has its record in the window. -/
def StampsTo (b b' : Beat) (stamp : BitVec 32 × BitVec 32) : Prop :=
  hopDetects b = true
    ∧ b' = { b with tdata := write b.tdata (getTimestampIdx b.tdata).2 (record stamp.2) }

/-- The hop takes `b` for an ordinary beat and passes it on as it is. -/
def PassesTo (b b' : Beat) : Prop := hopDetects b = false ∧ b' = b

/-- The two beats differ at most in the data bits from `i` to `i + 63`. -/
structure ChangedWithin (b b' : Beat) (i : Nat) : Prop where
  fits : i + 64 ≤ 512
  tdata : ∀ k < 512, k < i ∨ i + 64 ≤ k → b'.tdata.getLsbD k = b.tdata.getLsbD k
  tkeep : b'.tkeep = b.tkeep
  tlast : b'.tlast = b.tlast
  tuser : b'.tuser = b.tuser

theorem hopDetects_eq (b : Beat) : hopDetects b = PacketDetect.headerMatches b.tdata := by
  rw [hopDetects, PacketDetect.syncDetectedO_eq]
  rfl

theorem stampsTo_hop {b : Beat} (h : PacketDetect.headerMatches b.tdata = true)
    (stamp : BitVec 32 × BitVec 32) : StampsTo b (hop b stamp) stamp := by
  have hdet : hopDetects b = true := (hopDetects_eq b).trans h
  refine ⟨hdet, ?_⟩
  unfold hopDetects at hdet
  rw [hop, hdet, oAxisTdata, if_pos rfl]

theorem passesTo_hop {b : Beat} (h : PacketDetect.headerMatches b.tdata = false)
    (stamp : BitVec 32 × BitVec 32) : PassesTo b (hop b stamp) := by
  have hdet : hopDetects b = false := (hopDetects_eq b).trans h
  refine ⟨hdet, ?_⟩
  unfold hopDetects at hdet
  rw [hop, hdet, oAxisTdata, if_neg Bool.false_ne_true]

theorem beatAt_succ (b : Beat) (hops : List (BitVec 32 × BitVec 32)) {k : Nat}
    (hk : k < hops.length) : beatAt b hops (k + 1) = hop (beatAt b hops k) hops[k] := by
  rw [beatAt, throughHops, List.take_succ_eq_append_getElem hk, List.foldl_append]
  rfl

theorem hop_changedWithin (b : Beat) (stamp : BitVec 32 × BitVec 32) :
    ChangedWithin b (hop b stamp) (getTimestampIdx b.tdata).2 := by
  refine ⟨insertIdx_le _, fun k hk hout => ?_, rfl, rfl, rfl⟩
  rw [hop, getLsbD_oAxisTdata hk hout]

/-- Both bit slices the detector compares are outside every window. -/
theorem headerMatches_hop (b : Beat) (stamp : BitVec 32 × BitVec 32) :
    PacketDetect.headerMatches (hop b stamp).tdata = PacketDetect.headerMatches b.tdata := by
  have hslice : ∀ j n, 64 ≤ j → j + n ≤ 144 →
      (hop b stamp).tdata.extractLsb' j n = b.tdata.extractLsb' j n := by
    intro j n hj hn
    apply BitVec.eq_of_getLsbD_eq
    intro k hk
    have hout := window_misses_header b.tdata
    rw [BitVec.getLsbD_extractLsb', BitVec.getLsbD_extractLsb', hop,
      getLsbD_oAxisTdata (by omega) (by omega)]
  simp only [PacketDetect.headerMatches, PacketDetect.isVlan, PacketDetect.isCorrectVlan,
    PacketDetect.ethType]
  rw [hslice _ _ (by decide) (by decide), hslice _ _ (by decide) (by decide)]

theorem headerMatches_throughHops (hops : List (BitVec 32 × BitVec 32)) (b : Beat) :
    PacketDetect.headerMatches (throughHops b hops).tdata = PacketDetect.headerMatches b.tdata := by
  induction hops generalizing b with
  | nil => rfl
  | cons stamp rest ih => exact (ih (hop b stamp)).trans (headerMatches_hop b stamp)

/-- Every detector of a chain gives the same answer, every hop writes inside one
64-bit window, and the beat is stamped by all injectors of the chain or by none. -/
theorem hops_agree (b : Beat) (hops : List (BitVec 32 × BitVec 32)) :
    (∀ k ≤ hops.length,
        PacketDetect.headerMatches (beatAt b hops k).tdata = PacketDetect.headerMatches b.tdata)
      ∧ (∀ k < hops.length, ∃ i, ChangedWithin (beatAt b hops k) (beatAt b hops (k + 1)) i)
      ∧ ((∀ k (hk : k < hops.length), StampsTo (beatAt b hops k) (beatAt b hops (k + 1)) hops[k])
        ∨ (∀ k < hops.length, PassesTo (beatAt b hops k) (beatAt b hops (k + 1)))) := by
  have hsame : ∀ k, PacketDetect.headerMatches (beatAt b hops k).tdata
      = PacketDetect.headerMatches b.tdata := fun k => headerMatches_throughHops (hops.take k) b
  refine ⟨fun k _ => hsame k, fun k hk => ?_, ?_⟩
  · rw [beatAt_succ b hops hk]
    exact ⟨_, hop_changedWithin _ _⟩
  · cases hb : PacketDetect.headerMatches b.tdata with
    | true =>
        refine Or.inl fun k hk => ?_
        rw [beatAt_succ b hops hk]
        exact stampsTo_hop ((hsame k).trans hb) _
    | false =>
        refine Or.inr fun k hk => ?_
        rw [beatAt_succ b hops hk]
        exact passesTo_hop ((hsame k).trans hb) _

end TimestampInject

end P2pInspection
