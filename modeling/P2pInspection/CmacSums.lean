import Mathlib.Algebra.GroupWithZero.Nat
import P2pInspection.DebugSnapshot

/-!
# Adding up CMAC statistics

`CmacStats::add` adds the eight totals and leaves the other fields, which only
debugging reads, as they are. `losesNothing_iff` says for which samples that is
enough.
-/

namespace P2pInspection

namespace CmacStats

def add (s other : CmacStats) : CmacStats :=
  { s with
    txTotalPkts := s.txTotalPkts + other.txTotalPkts
    txTotalGoodPkts := s.txTotalGoodPkts + other.txTotalGoodPkts
    txTotalBytes := s.txTotalBytes + other.txTotalBytes
    txTotalGoodBytes := s.txTotalGoodBytes + other.txTotalGoodBytes
    rxTotalPkts := s.rxTotalPkts + other.rxTotalPkts
    rxTotalGoodPkts := s.rxTotalGoodPkts + other.rxTotalGoodPkts
    rxTotalBytes := s.rxTotalBytes + other.rxTotalBytes
    rxTotalGoodBytes := s.rxTotalGoodBytes + other.rxTotalGoodBytes }

def accumulate (samples : List CmacStats) : CmacStats := samples.foldl add {}

/-- The sum of a field over the samples, as a number. -/
def fieldSum (samples : List CmacStats) (f : CmacField) : Nat :=
  (samples.map fun s => (s.get f).toNat).sum

/-- In whatever order the samples come, every field is its sum modulo 2^32. -/
def LosesNothing (samples : List CmacStats) : Prop :=
  ∀ order, order.Perm samples → ∀ f,
    ((accumulate order).get f).toNat = fieldSum samples f % 2 ^ 32

theorem get_add (s other : CmacStats) (f : CmacField) :
    (s.add other).get f = if f.isTotal then s.get f + other.get f else s.get f := by
  cases f <;> rfl

theorem fieldSum_perm {order samples : List CmacStats} (h : order.Perm samples) (f : CmacField) :
    fieldSum order f = fieldSum samples f :=
  (h.map _).sum_nat

theorem get_foldl_add {f : CmacField} (hf : f.isTotal = true) (samples : List CmacStats)
    (s : CmacStats) : ((samples.foldl add s).get f).toNat
      = ((s.get f).toNat + fieldSum samples f) % 2 ^ 32 := by
  induction samples generalizing s with
  | nil => exact (Nat.mod_eq_of_lt (s.get f).isLt).symm
  | cons sample samples ih =>
      rw [List.foldl_cons, ih, get_add, if_pos hf, BitVec.toNat_add, Nat.mod_add_mod,
        Nat.add_assoc]
      rfl

theorem get_foldl_add_debug {f : CmacField} (hf : f.isTotal = false) (samples : List CmacStats)
    (s : CmacStats) : (samples.foldl add s).get f = s.get f := by
  induction samples generalizing s with
  | nil => rfl
  | cons sample samples ih => rw [List.foldl_cons, ih, get_add, hf, if_neg Bool.false_ne_true]

/-- Nothing is lost exactly when nothing was to be added in the debug fields. -/
theorem losesNothing_iff (samples : List CmacStats) :
    LosesNothing samples ↔ ∀ f, f.isTotal = false → fieldSum samples f % 2 ^ 32 = 0 := by
  constructor
  · intro hsums f hf
    rw [← hsums samples (List.Perm.refl samples) f, accumulate, get_foldl_add_debug hf,
      get_default]
    rfl
  · intro hzero order hperm f
    rw [accumulate, ← fieldSum_perm hperm f]
    cases hf : f.isTotal with
    | true => rw [get_foldl_add hf, get_default, BitVec.toNat_zero, Nat.zero_add]
    | false =>
        rw [get_foldl_add_debug hf, get_default, fieldSum_perm hperm f, hzero f hf,
          BitVec.toNat_zero]

/-- The truncated packets of a debug sample are forgotten. -/
theorem debugSample_loses : ∃ stats t, Onic.snapshot (fun _ => 5#32) 0 ⟨(), []⟩ = .ok stats t
    ∧ (accumulate [stats]).rxTruncated = 0#32 ∧ stats.rxTruncated = 5#32
    ∧ ¬LosesNothing [stats] := by
  obtain ⟨stats, t, hrun, hfields⟩ := Onic.snapshot_run (fun _ => 5#32) 0
  have hfive : stats.get .rxTruncated = 5#32 := hfields .rxTruncated
  have hlost : (accumulate [stats]).get .rxTruncated = 0#32 := get_foldl_add_debug rfl [stats] {}
  refine ⟨stats, t, hrun, hlost, hfive, fun hsums => ?_⟩
  have hsum := hsums [stats] (List.Perm.refl _) .rxTruncated
  rw [hlost, fieldSum, List.map_singleton, hfive] at hsum
  exact absurd hsum (by decide)

end CmacStats

end P2pInspection
