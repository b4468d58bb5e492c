import P2pInspection.StatsText
import P2pInspection.WrappingCounter

/-!
# Hop latencies

`timeNs i` is the time of hop `i` that the two counters stand for, over the
natural numbers. In the words of the machine `calc_hop_latencies` returns the
difference of two such times modulo `2 ^ 64` (`calcHopLatencies_eq`), whatever
borrow there is between the sync count and the tick count. The order of the
difference is the reverse of the elapsed one, so `elapsedTimes_iff` allows a
hop no other distance than zero or half the range of the counter.
-/

namespace P2pInspection

open WrappingCounter

namespace Timestamps

def timeNs (ts : Timestamps) (i : Fin nbHops) : Nat :=
  (ts.timestampNbSync i).toNat * lenNbSyncNs + (ts.timestampCurrTick i).toNat * lenTimeTickNs

/-- Stamps given in hop order, each of a time that fits in 64 bits. -/
structure InHopOrder (ts : Timestamps) : Prop where
  fits : ∀ i, ts.timeNs i < 2 ^ 64
  ordered : ∀ i : Fin (nbHops - 1), ts.timeNs i.castSucc ≤ ts.timeNs i.succ

/-- The latency of every hop is the time elapsed on it, and the latencies add
up to the time elapsed over all of them. -/
def ElapsedTimes (ts : Timestamps) : Prop :=
  (∀ i, ((ts.calcHopLatencies i).toNat : Int) = ts.timeNs i.succ - ts.timeNs i.castSucc)
    ∧ ∑ i, ((ts.calcHopLatencies i).toNat : Int) = ts.timeNs (Fin.last (nbHops - 1)) - ts.timeNs 0

theorem calcHopLatencies_eq (ts : Timestamps) (i : Fin (nbHops - 1)) :
    ts.calcHopLatencies i
      = BitVec.ofNat 64 (ts.timeNs i.castSucc) - BitVec.ofNat 64 (ts.timeNs i.succ) := by
  have hword : ∀ j, BitVec.ofNat 64 (ts.timeNs j)
      = ts.timestampNbSync j * BitVec.ofNat 64 lenNbSyncNs
        + ts.timestampCurrTick j * BitVec.ofNat 64 lenTimeTickNs := fun j => by
    rw [timeNs, BitVec.ofNat_add, BitVec.ofNat_mul, BitVec.ofNat_mul, BitVec.ofNat_toNat,
      BitVec.ofNat_toNat, BitVec.setWidth_eq, BitVec.setWidth_eq]
  rw [hword, hword, calcHopLatencies, sub_mul, sub_mul, add_sub_add_comm]

theorem InHopOrder.toNat_timeNs {ts : Timestamps} (h : ts.InHopOrder) (i : Fin nbHops) :
    (BitVec.ofNat 64 (ts.timeNs i)).toNat = ts.timeNs i := by
  rw [BitVec.toNat_ofNat, Nat.mod_eq_of_lt (h.fits i)]

theorem InHopOrder.word_le {ts : Timestamps} (h : ts.InHopOrder) (i : Fin (nbHops - 1)) :
    (BitVec.ofNat 64 (ts.timeNs i.castSucc)).toNat ≤ (BitVec.ofNat 64 (ts.timeNs i.succ)).toNat := by
  rw [h.toNat_timeNs, h.toNat_timeNs]
  exact h.ordered i

/-- The distance of hop `i` is its own negation modulo `2 ^ 64`. -/
def SelfNegating (ts : Timestamps) (i : Fin (nbHops - 1)) : Prop :=
  ts.timeNs i.succ = ts.timeNs i.castSucc ∨ ts.timeNs i.succ = ts.timeNs i.castSucc + 2 ^ 63

theorem calcHopLatencies_exact_iff {ts : Timestamps} (h : ts.InHopOrder) (i : Fin (nbHops - 1)) :
    ((ts.calcHopLatencies i).toNat : Int) = ts.timeNs i.succ - ts.timeNs i.castSucc
      ↔ ts.SelfNegating i := by
  have hord := h.ordered i
  have hiff := toNat_backward_eq_iff (h.word_le i)
  rw [← calcHopLatencies_eq, h.toNat_timeNs, h.toNat_timeNs] at hiff
  rw [SelfNegating]
  omega

/-- The total follows from the hops, each of which is exact for a distance
that is its own negation and for no other. -/
theorem elapsedTimes_iff {ts : Timestamps} (h : ts.InHopOrder) :
    ts.ElapsedTimes ↔ ∀ i, ts.SelfNegating i := by
  constructor
  · rintro ⟨hexact, -⟩ i
    exact (calcHopLatencies_exact_iff h i).mp (hexact i)
  · intro hself
    have hexact := fun i => (calcHopLatencies_exact_iff h i).mpr (hself i)
    refine ⟨hexact, ?_⟩
    calc ∑ i, ((ts.calcHopLatencies i).toNat : Int)
        = ∑ i : Fin (nbHops - 1), ((ts.timeNs i.succ : Int) - ts.timeNs i.castSucc) :=
          Finset.sum_congr rfl fun i _ => hexact i
      _ = ts.timeNs (Fin.last (nbHops - 1)) - ts.timeNs 0 :=
          sum_elapsed fun i => (ts.timeNs i : Int)

/-- Three hops 240 and 200 nanoseconds apart, a sync pulse between the first two. -/
def pulseBetween : Timestamps := ⟨![1#64, 2#64, 2#64], ![200#64, 10#64, 60#64]⟩

theorem pulseBetween_inHopOrder : pulseBetween.InHopOrder := ⟨by decide, by decide⟩

theorem pulseBetween_not_elapsed :
    pulseBetween.InHopOrder ∧ ¬pulseBetween.ElapsedTimes := by
  refine ⟨pulseBetween_inHopOrder, fun helapsed => ?_⟩
  rcases (calcHopLatencies_exact_iff pulseBetween_inHopOrder ⟨0, by decide⟩).mp
    (helapsed.1 ⟨0, by decide⟩) with hsame | hhalf
  · exact absurd hsame (by decide)
  · exact absurd hhalf (by decide)

/-- A first hop of half the range of the counter, a second one of no time. -/
def halfRange : Timestamps :=
  ⟨![7#64, 9223372036854782#64, 9223372036854782#64], ![10#64, 212#64, 212#64]⟩

theorem elapsedTimes_iff_halfRange : halfRange.ElapsedTimes := by
  have hord : halfRange.InHopOrder := ⟨by decide, by decide⟩
  exact (elapsedTimes_iff hord).mpr
    (Fin.forall_fin_two.mpr ⟨Or.inr (by decide +kernel), Or.inl rfl⟩)

end Timestamps

end P2pInspection
