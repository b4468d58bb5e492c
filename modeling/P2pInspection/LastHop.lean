import P2pInspection.InjectionWindow
import P2pInspection.Timestamps

/-!
# What is left of a path of many hops

A hop writes into the first slot that is not marked empty. What it writes there
is not the mark, so the next hop finds the same slot and writes over it:
a path of any length does to a beat what its last hop alone does to it
(`throughHops_last`).

The server reads three words of the frame. `decodes_lastHop` says what it then
has of the path: the record of the last hop in the one word that is that slot,
if there is one, and in all the others what the frame was sent with.
-/

namespace P2pInspection

open PartSelect Bytes TimestampInject

namespace LastHop

/-! ## One window, written twice -/

/-- The later of two writes to a window is the one that lasts. -/
theorem write_write {w n : Nat} (v : BitVec w) (i : Nat) (x y : BitVec n) :
    write (write v i x) i y = write v i y := by
  apply BitVec.eq_of_getLsbD_eq
  intro k hk
  rw [getLsbD_write _ i y hk, getLsbD_write v i y hk]
  split
  · rfl
  · rename_i hout
    rw [getLsbD_write v i x hk, if_neg hout]

/-- The low word of the record is the tick. -/
theorem lowWord_write_record (d : BitVec 512) (tick : BitVec 32) {j : Nat} (hj : j + 64 ≤ 512) :
    lowWord (write d j (record tick)) j = tick := by
  apply BitVec.eq_of_getLsbD_eq
  intro k hk
  have hk64 : k < 64 := by omega
  rw [lowWord, BitVec.getLsbD_extractLsb', getLsbD_write d j _ (by omega), if_pos (by omega),
    Nat.add_sub_cancel_left]
  simp only [record, BitVec.getLsbD_setWidth, BitVec.getLsbD_append, hk, hk64, decide_true,
    Bool.true_and, if_true]

/-! ## Where the next hop writes -/

theorem slot_inside {j : Nat} (hj : j ∈ slotOffsets) : 0 < j ∧ j + 64 ≤ 512 := by
  obtain ⟨s, hs, rfl⟩ := mem_slotOffsets.mp hj
  simp only [payloadOffset, byte, timestampSize]
  omega

/-- Another slot is as it was. -/
theorem lowWord_write_other (d : BitVec 512) (x : BitVec 64) {i j : Nat} (hj : j ∈ slotOffsets)
    (hi : i ∈ slotOffsets ∨ i = 0) (hne : j ≠ i) : lowWord (write d i x) j = lowWord d j := by
  obtain ⟨s, hs, rfl⟩ := mem_slotOffsets.mp hj
  simp only [payloadOffset, byte, timestampSize] at hne ⊢
  refine extract_write_disjoint d x (by omega) ?_
  rcases hi with hi | rfl
  · obtain ⟨s', hs', rfl⟩ := mem_slotOffsets.mp hi
    simp only [payloadOffset, byte, timestampSize] at hne ⊢
    omega
  · omega

/-- What was written is not the mark, so the search ends where it ended before. -/
theorem getTimestampIdx_write (d : BitVec 512) {tick : BitVec 32} (htick : tick ≠ emptyTimestamp) :
    (getTimestampIdx (write d (getTimestampIdx d).2 (record tick))).2 = (getTimestampIdx d).2 := by
  have hidx := getTimestampIdx_eq d
  cases hfind : slotOffsets.find? (fun j => lowWord d j != emptyTimestamp) with
  | none =>
      have hsame : slotOffsets.find? (fun j => lowWord (write d 0 (record tick)) j != emptyTimestamp)
          = none := by
        rw [List.find?_eq_none] at hfind ⊢
        intro j hj
        rw [lowWord_write_other d _ hj (Or.inr rfl) (Nat.ne_of_gt (slot_inside hj).1)]
        exact hfind j hj
      rw [hfind] at hidx
      rw [hidx, getTimestampIdx_eq, hsame]
  | some i =>
      have hi := List.mem_of_find?_eq_some hfind
      have hsame : slotOffsets.find? (fun j => lowWord (write d i (record tick)) j != emptyTimestamp)
          = some i := by
        rw [List.find?_eq_some_iff_append] at hfind ⊢
        obtain ⟨hfree, before, behind, hslots, hmarked⟩ := hfind
        refine ⟨?_, before, behind, hslots, fun j hj => ?_⟩
        · rw [lowWord_write_record d tick (slot_inside hi).2]
          exact bne_iff_ne.mpr htick
        · have hjmem : j ∈ slotOffsets := hslots ▸ List.mem_append_left _ hj
          have hmark := hmarked j hj
          have hne : j ≠ i := by
            rintro rfl
            rw [hfree] at hmark
            cases hmark
          rw [lowWord_write_other d _ hjmem (Or.inl hi) hne]
          exact hmark
      rw [hfind] at hidx
      rw [hidx, getTimestampIdx_eq, hsame]

theorem hop_hop (b : Beat) {stamp : BitVec 32 × BitVec 32} (hstamp : stamp.2 ≠ emptyTimestamp)
    (stamp' : BitVec 32 × BitVec 32) : hop (hop b stamp) stamp' = hop b stamp' := by
  cases hb : PacketDetect.headerMatches b.tdata with
  | false => rw [(passesTo_hop hb stamp).2]
  | true =>
      have hb' := (headerMatches_hop b stamp).trans hb
      rw [(stampsTo_hop hb' stamp').2, (stampsTo_hop hb stamp').2, (stampsTo_hop hb stamp).2]
      simp only [getTimestampIdx_write _ hstamp, write_write]

/-- A path does what its last hop does. -/
theorem throughHops_last (b : Beat) {hops : List (BitVec 32 × BitVec 32)}
    (hticks : ∀ p ∈ hops, p.2 ≠ emptyTimestamp) (stamp : BitVec 32 × BitVec 32) :
    throughHops b (hops ++ [stamp]) = hop b stamp := by
  induction hops generalizing b with
  | nil => rfl
  | cons p rest ih =>
      have hrest : throughHops (hop b p) (rest ++ [stamp]) = hop (hop b p) stamp :=
        ih (hop b p) fun q hq => hticks q (List.mem_cons_of_mem p hq)
      exact hrest.trans (hop_hop b (hticks p List.mem_cons_self) stamp)

/-! ## What the server has of it -/

/-- A frame as it was sent, and as it was received behind a path: its first beat
went through the hops, and what is behind that beat is the same. -/
structure Travels (b : Beat) (hops : List (BitVec 32 × BitVec 32)) (sent received : RteMbuf) :
    Prop where
  sameLen : received.dataLen = sent.dataLen
  firstSent : Carries b.tdata sent.bytes (min sent.dataLen 64)
  firstReceived : Carries (throughHops b hops).tdata received.bytes (min sent.dataLen 64)
  sameRest : ∀ k, 64 ≤ k → k < sent.dataLen → received.bytes k = sent.bytes k

theorem le64_congr {b b' : Nat → BitVec 8} {off : Nat} (h : ∀ k < 8, b (off + k) = b' (off + k)) :
    le64 b off = le64 b' off := by
  have h0 : b off = b' off := h 0 (by omega)
  simp only [le64, h0, h 1 (by omega), h 2 (by omega), h 3 (by omega), h 4 (by omega),
    h 5 (by omega), h 6 (by omega), h 7 (by omega)]

/-- A word that the server reads is the slot that is written, or has no bit of it. -/
theorem window_word (d : BitVec 512) (i : Fin nbHops) :
    (getTimestampIdx d).2 = 8 * (26 + 16 * i.val)
      ∨ (getTimestampIdx d).2 + 64 ≤ 8 * (26 + 16 * i.val)
      ∨ 8 * (26 + 16 * i.val) + 64 ≤ (getTimestampIdx d).2 := by
  rcases window_cases d with ⟨-, s, hs, hidx⟩ | hnone
  · rw [hidx]
    simp only [payloadOffset, byte, timestampSize]
    omega
  · rw [hnone]
    right
    left
    simp only
    omega

/-- What the server decodes of a word that is in the frame. -/
theorem le64_received {b : Beat} (hsync : PacketDetect.headerMatches b.tdata = true)
    {hops : List (BitVec 32 × BitVec 32)} (hticks : ∀ p ∈ hops, p.2 ≠ emptyTimestamp)
    {stamp : BitVec 32 × BitVec 32} {sent received : RteMbuf}
    (h : Travels b (hops ++ [stamp]) sent received) {i : Fin nbHops}
    (hlen : 26 + 16 * i.val + 8 ≤ sent.dataLen) :
    le64 received.bytes (26 + 16 * i.val)
      = if (getTimestampIdx b.tdata).2 = 8 * (26 + 16 * i.val) then record stamp.2
        else le64 sent.bytes (26 + 16 * i.val) := by
  have hcarries := h.firstReceived
  rw [throughHops_last b hticks, (stampsTo_hop hsync stamp).2] at hcarries
  have hinside := insertIdx_le b.tdata
  split
  · rename_i hidx
    rw [hidx] at hinside
    rw [← hcarries.le64 (by omega), hidx]
    exact extract_write_self b.tdata (record stamp.2) hinside
  · rename_i hidx
    have hout := (window_word b.tdata i).resolve_left hidx
    refine le64_congr fun k hk => ?_
    by_cases hfirst : 26 + 16 * i.val + k < 64
    · have hsame : lane (write b.tdata (getTimestampIdx b.tdata).2 (record stamp.2))
          (26 + 16 * i.val + k) = lane b.tdata (26 + 16 * i.val + k) :=
        extract_write_disjoint b.tdata _ (by omega) (by omega)
      rw [← hcarries _ (by omega), ← h.firstSent _ (by omega)]
      exact hsame
    · exact h.sameRest _ (by omega) (by omega)

/-- The path is its last hop. On a build that does not abort the server has the
record of that hop in the one word that is the slot, and what was sent in the
others; the ticks are not read at all. -/
theorem decodes_lastHop {b : Beat} (hsync : PacketDetect.headerMatches b.tdata = true)
    {hops : List (BitVec 32 × BitVec 32)} (hticks : ∀ p ∈ hops, p.2 ≠ emptyTimestamp)
    {stamp : BitVec 32 × BitVec 32} {sent received : RteMbuf}
    (h : Travels b (hops ++ [stamp]) sent received) (obj : Timestamps) :
    throughHops b (hops ++ [stamp]) = hop b stamp
      ∧ ∃ ts m', Timestamps.construct .little true obj received = some (ts, m')
        ∧ ts.timestampCurrTick = obj.timestampCurrTick
        ∧ ∀ i : Fin nbHops, 26 + 16 * i.val + 8 ≤ sent.dataLen →
          ts.timestampNbSync i = if (getTimestampIdx b.tdata).2 = 8 * (26 + 16 * i.val)
            then record stamp.2 else le64 sent.bytes (26 + 16 * i.val) := by
  refine ⟨throughHops_last b hticks stamp, _, _, Timestamps.construct_little true obj received,
    Timestamps.extract_currTick _ _ _, fun i hlen => ?_⟩
  rw [Timestamps.extract_nbSync]
  exact le64_received hsync hticks h hlen

/-- A beat whose first slot is marked and whose second one is not. -/
def halfMarked : Beat where
  tdata := 0xDEADBEEF0008ABC08100000000000000000000000000#512
  tkeep := 0xFFFFFFFFFFFFFFFF#64
  tlast := true
  tuser := false

/-- Of two hops the server has the second one's tick, as the sync count of the first. -/
theorem decodes_lastHop_halfMarked : ∃ ts m',
    Timestamps.construct .little true ⟨fun _ => 0#64, fun _ => 0#64⟩
        ⟨lane (throughHops halfMarked [(1#32, 7#32), (2#32, 8#32)]).tdata, 64, 1984⟩
      = some (ts, m')
      ∧ ts.timestampNbSync 0 = record 8#32 ∧ ts.timestampNbSync 1 = 0#64 := by
  have htravels : Travels halfMarked ([(1#32, 7#32)] ++ [(2#32, 8#32)])
      ⟨lane halfMarked.tdata, 64, 1984⟩
      ⟨lane (throughHops halfMarked [(1#32, 7#32), (2#32, 8#32)]).tdata, 64, 1984⟩ :=
    ⟨rfl, fun _ _ => rfl, fun _ _ => rfl, fun k hk hlt => absurd hlt (Nat.not_lt.mpr hk)⟩
  obtain ⟨-, ts, m', hts, -, hnb⟩ := decodes_lastHop (by decide +kernel)
    (by simp [emptyTimestamp]) htravels ⟨fun _ => 0#64, fun _ => 0#64⟩
  refine ⟨ts, m', hts, ?_, ?_⟩
  · exact (hnb 0 (by decide)).trans (if_pos (by decide +kernel))
  · exact (hnb 1 (by decide)).trans ((if_neg (by decide +kernel)).trans (by decide +kernel))

end LastHop

end P2pInspection
