import P2pInspection.PacketDetect
import P2pInspection.PartSelect

/-!
# `timestamp_inject`: the slot search and the stamp

The block is combinational but for its `packet_detect`. `getTimestampIdx` is
the search loop, with its running `(found, index)` pair; `getTimestampIdx_eq`
says what the loop returns: the first slot whose low word is *not*
`EMPTY_TIMESTAMP`, and index 0 - inside the destination address - when every
slot still carries the mark. `oAxisTdata` writes 64 bits there, whatever the
search found.

`Stamped` is what a chain of hops is for: hop `h` leaves its record in slot
`h`, the later slots stay empty and nothing else changes.
-/

namespace P2pInspection

open PartSelect

namespace TimestampInject

def byte : Nat := 8
def payloadOffset : Nat := (6 + 6 + 2 + 2 + 2) * byte
def timestampSize : Nat := 32 + 32
def emptyTimestamp : BitVec 32 := 0xDEADBEEF#32

/-- The values of the loop variable:
`for (j = PAYLOAD_OFFSET; j < 512 - TIMESTAMP_SIZE; j += TIMESTAMP_SIZE)`. -/
def slotOffsets : List Nat :=
  List.range' payloadOffset
    ((512 - timestampSize - payloadOffset + (timestampSize - 1)) / timestampSize) timestampSize

def lowWord (tdata : BitVec 512) (j : Nat) : BitVec 32 := tdata.extractLsb' j 32

/-- One iteration of the search loop on `(found_timestamp_idx, timestamp_insert_idx)`. -/
def searchStep (tdata : BitVec 512) (acc : Bool × Nat) (j : Nat) : Bool × Nat :=
  if !acc.1 then
    if lowWord tdata j != emptyTimestamp then (true, j)
    else acc
  else acc

def getTimestampIdx (tdata : BitVec 512) : Bool × Nat :=
  slotOffsets.foldl (searchStep tdata) (false, 0)

/-- `{31'hABCD, i_curr_tick}`: 63 bits, zero-extended to the 64-bit window. -/
def record (currTick : BitVec 32) : BitVec 64 := (0xABCD#31 ++ currTick).setWidth 64

/-- The output data. `i_nb_sync` is an input of the block that no assignment reads. -/
def oAxisTdata (syncDetected : Bool) (tdata : BitVec 512) (_iNbSync iCurrTick : BitVec 32) :
    BitVec 512 :=
  if syncDetected then write tdata (getTimestampIdx tdata).2 (record iCurrTick)
  else tdata

/-! ## What the search returns -/

theorem foldl_searchStep_found (tdata : BitVec 512) (l : List Nat) (j : Nat) :
    l.foldl (searchStep tdata) (true, j) = (true, j) := by
  induction l with
  | nil => rfl
  | cons k rest ih => simpa [searchStep] using ih

theorem foldl_searchStep (tdata : BitVec 512) (l : List Nat) :
    l.foldl (searchStep tdata) (false, 0)
      = match l.find? (fun j => lowWord tdata j != emptyTimestamp) with
        | some j => (true, j)
        | none => (false, 0) := by
  induction l with
  | nil => rfl
  | cons j rest ih =>
      rw [List.foldl_cons, List.find?_cons]
      cases hj : lowWord tdata j != emptyTimestamp with
      | true => simpa [searchStep, hj] using foldl_searchStep_found tdata rest j
      | false => simpa [searchStep, hj] using ih

theorem getTimestampIdx_eq (tdata : BitVec 512) :
    getTimestampIdx tdata
      = match slotOffsets.find? (fun j => lowWord tdata j != emptyTimestamp) with
        | some j => (true, j)
        | none => (false, 0) :=
  foldl_searchStep tdata slotOffsets

theorem mem_slotOffsets {j : Nat} :
    j ∈ slotOffsets ↔ ∃ s < 5, j = payloadOffset + timestampSize * s := by
  have hlist : slotOffsets = [144, 208, 272, 336, 400] := by decide
  simp only [hlist, List.mem_cons, List.not_mem_nil, or_false, payloadOffset, byte, timestampSize]
  constructor
  · rintro (rfl | rfl | rfl | rfl | rfl)
    exacts [⟨0, by omega, by omega⟩, ⟨1, by omega, by omega⟩, ⟨2, by omega, by omega⟩,
      ⟨3, by omega, by omega⟩, ⟨4, by omega, by omega⟩]
  · rintro ⟨s, hs, rfl⟩
    omega

theorem insertIdx_le (tdata : BitVec 512) : (getTimestampIdx tdata).2 + 64 ≤ 512 := by
  rw [getTimestampIdx_eq]
  cases hfind : slotOffsets.find? (fun j => lowWord tdata j != emptyTimestamp) with
  | none => simp
  | some j =>
      obtain ⟨s, hs, rfl⟩ := mem_slotOffsets.mp (List.mem_of_find?_eq_some hfind)
      simp only [payloadOffset, byte, timestampSize]
      omega

/-! ## Slots along a chain of hops -/

def slot (tdata : BitVec 512) (s : Nat) : BitVec 64 :=
  tdata.extractLsb' (payloadOffset + timestampSize * s) 64

def MarkedEmpty (tdata : BitVec 512) (s : Nat) : Prop :=
  lowWord tdata (payloadOffset + timestampSize * s) = emptyTimestamp

instance (tdata : BitVec 512) (s : Nat) : Decidable (MarkedEmpty tdata s) :=
  inferInstanceAs (Decidable (_ = _))

theorem getTimestampIdx_all_empty {tdata : BitVec 512} (h : ∀ s < 5, MarkedEmpty tdata s) :
    getTimestampIdx tdata = (false, 0) := by
  have hnone : slotOffsets.find? (fun j => lowWord tdata j != emptyTimestamp) = none := by
    rw [List.find?_eq_none]
    intro j hj
    obtain ⟨s, hs, rfl⟩ := mem_slotOffsets.mp hj
    have hmark : lowWord tdata (payloadOffset + timestampSize * s) = emptyTimestamp := h s hs
    simp [hmark]
  rw [getTimestampIdx_eq, hnone]

/-- One hop: the beat is accepted as a first beat by an instance with these inputs. -/
def hop (b : Beat) (stamp : BitVec 32 × BitVec 32) : Beat :=
  { b with
    tdata := oAxisTdata (PacketDetect.syncDetectedO (PacketDetect.inPacketQ true false)
      ⟨true, true, b⟩) b.tdata stamp.1 stamp.2 }

def throughHops (b : Beat) (hops : List (BitVec 32 × BitVec 32)) : Beat :=
  hops.foldl hop b

/-- Bit `k` belongs to one of the first `n` slots. -/
def InSlots (n k : Nat) : Prop :=
  ∃ s < n, payloadOffset + timestampSize * s ≤ k ∧ k < payloadOffset + timestampSize * (s + 1)

/-- Hop `h` left `{nb, tick}` in slot `h`, the slots behind are still marked
empty, and every bit outside the stamped slots is as it was. -/
structure Stamped (d d' : BitVec 512) (hops : List (BitVec 32 × BitVec 32)) : Prop where
  stamp : ∀ h (hh : h < hops.length), slot d' h = hops[h].1 ++ hops[h].2
  empty : ∀ s, hops.length ≤ s → s < 5 → MarkedEmpty d' s
  frame : ∀ k < 512, ¬InSlots hops.length k → d'.getLsbD k = d.getLsbD k

/-- A hop over an unstamped beat writes below the slots, so it stays unstamped. -/
theorem hop_keeps_empty {b : Beat} (h : ∀ s < 5, MarkedEmpty b.tdata s)
    (stamp : BitVec 32 × BitVec 32) : ∀ s < 5, MarkedEmpty (hop b stamp).tdata s := by
  intro s hs
  simp only [hop, oAxisTdata]
  split
  · rw [getTimestampIdx_all_empty h]
    have hwin : lowWord (write b.tdata 0 (record stamp.2)) (payloadOffset + timestampSize * s)
        = lowWord b.tdata (payloadOffset + timestampSize * s) :=
      extract_write_disjoint _ _ (by simp only [payloadOffset, byte, timestampSize]; omega)
        (Or.inr (by simp only [payloadOffset, byte, timestampSize]; omega))
    exact hwin.trans (h s hs)
  · exact h s hs

theorem throughHops_keeps_empty (hops : List (BitVec 32 × BitVec 32)) {b : Beat}
    (h : ∀ s < 5, MarkedEmpty b.tdata s) : ∀ s < 5, MarkedEmpty (throughHops b hops).tdata s := by
  induction hops generalizing b with
  | nil => exact h
  | cons stamp rest ih => exact ih (hop_keeps_empty h stamp)

theorem lowWord_of_slot {tdata : BitVec 512} {s : Nat} {nb tick : BitVec 32}
    (h : slot tdata s = nb ++ tick) :
    lowWord tdata (payloadOffset + timestampSize * s) = tick := by
  have hlow : (slot tdata s).extractLsb' 0 32 = tick := by
    rw [h]
    exact BitVec.extractLsb'_append_eq_right
  rw [← hlow, slot, lowWord]
  apply BitVec.eq_of_getLsbD_eq
  intro k hk
  simp [BitVec.getLsbD_extractLsb', show k < 64 by omega]

/-- On an unstamped beat the hops record their stamps in order only when there
is no hop at all: the search passes over every empty slot. -/
theorem stamped_iff {b : Beat} {hops : List (BitVec 32 × BitVec 32)}
    (hempty : ∀ s < 5, MarkedEmpty b.tdata s) (hticks : ∀ p ∈ hops, p.2 ≠ emptyTimestamp) :
    Stamped b.tdata (throughHops b hops).tdata hops ↔ hops = [] := by
  constructor
  · intro hst
    cases hops with
    | nil => rfl
    | cons p rest =>
        have hslot : slot (throughHops b (p :: rest)).tdata 0 = p.1 ++ p.2 :=
          hst.stamp 0 (by simp)
        have hmark := throughHops_keeps_empty (p :: rest) hempty 0 (by omega)
        exact absurd ((lowWord_of_slot hslot).symm.trans hmark) (hticks p (List.mem_cons_self ..))
  · rintro rfl
    exact ⟨fun h hh => absurd hh (by simp), fun s _ hs => hempty s hs, fun _ _ _ => rfl⟩

/-- A beat with the header `packet_detect` looks for and five empty slots. -/
def unstampedBeat : Beat where
  tdata := 0x00000000000000000000DEADBEEF00000000DEADBEEF00000000DEADBEEF00000000DEADBEEF00000000DEADBEEF0008ABC08100000000000000000000000000#512
  tkeep := 0xFFFFFFFFFFFFFFFF#64
  tlast := true
  tuser := false

/-- One hop with `nb_sync = 7`, `curr_tick = 9` over the unstamped sync beat. -/
theorem unstampedBeat_not_stamped :
    PacketDetect.headerMatches unstampedBeat.tdata = true
      ∧ (∀ s < 5, MarkedEmpty unstampedBeat.tdata s)
      ∧ ¬Stamped unstampedBeat.tdata (throughHops unstampedBeat [(7#32, 9#32)]).tdata
          [(7#32, 9#32)] := by
  refine ⟨by decide +kernel, by decide +kernel, fun hst => ?_⟩
  exact absurd (hst.stamp 0 (by decide)) (by decide +kernel)

theorem stamped_iff_unstampedBeat :
    ¬Stamped unstampedBeat.tdata (throughHops unstampedBeat [(7#32, 9#32), (8#32, 3#32)]).tdata
        [(7#32, 9#32), (8#32, 3#32)] :=
  fun h => absurd ((stamped_iff (by decide +kernel) (by simp [emptyTimestamp])).mp h) (by decide)

end TimestampInject

end P2pInspection
