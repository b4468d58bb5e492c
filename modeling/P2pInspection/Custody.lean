import Mathlib.Algebra.BigOperators.Group.Finset.Basic
import Mathlib.Algebra.BigOperators.Group.Finset.Piecewise
import Mathlib.Algebra.Group.Pi.Basic
import Mathlib.Algebra.Order.Group.Multiset

/-!
# Custody of resources, in double entry

A ledger says which resources each holder holds, with multiplicity. A step of
a system is a posting: every holder's balance changes by what is credited to
it less what is debited. A resource is in good hands when it is held exactly
once; this is a statement about its total over the holders, and postings move
the total by credits less debits.
-/

namespace Custody

open Finset

variable {H R : Type} [DecidableEq R]

abbrev Ledger (H R : Type) := H → Multiset R

def total (hs : Finset H) (L : Ledger H R) (r : R) : ℕ := ∑ h ∈ hs, (L h).count r

/-- One holder of `hs` holds `r`, once. -/
def HeldOnce (hs : Finset H) (L : Ledger H R) (r : R) : Prop :=
  ∃ h ∈ hs, (L h).count r = 1 ∧ ∀ h' ∈ hs, h' ≠ h → r ∉ L h'

theorem heldOnce_iff [DecidableEq H] {hs : Finset H} {L : Ledger H R} {r : R} :
    HeldOnce hs L r ↔ total hs L r = 1 := by
  constructor
  · rintro ⟨h, hh, hone, hothers⟩
    rw [total, Finset.sum_eq_single_of_mem h hh, hone]
    intro h' hh' hne
    exact Multiset.count_eq_zero_of_notMem (hothers h' hh' hne)
  · intro htotal
    rw [total] at htotal
    obtain ⟨h, hh, hne⟩ := Finset.exists_ne_zero_of_sum_ne_zero (htotal ▸ Nat.one_ne_zero)
    have hsplit := Finset.add_sum_erase hs (fun h => (L h).count r) hh
    have hrest : ∑ h' ∈ hs.erase h, (L h').count r = 0 := by omega
    refine ⟨h, hh, by omega, fun h' hh' hne' => ?_⟩
    have hzero := Finset.sum_eq_zero_iff.mp hrest h' (Finset.mem_erase.mpr ⟨hne', hh'⟩)
    exact Multiset.count_eq_zero.mp hzero

theorem HeldOnce.unique {hs : Finset H} {L : Ledger H R} {r : R} (h : HeldOnce hs L r) {a b : H}
    (ha : a ∈ hs) (hb : b ∈ hs) (hra : r ∈ L a) (hrb : r ∈ L b) : a = b := by
  obtain ⟨x, -, -, hothers⟩ := h
  have hax : a = x := by_contra fun hne => hothers a ha hne hra
  have hbx : b = x := by_contra fun hne => hothers b hb hne hrb
  exact hax.trans hbx.symm

theorem total_zero (hs : Finset H) (r : R) : total hs (0 : Ledger H R) r = 0 := by
  simp [total]

def entry [DecidableEq H] (a : H) (xs : Multiset R) : Ledger H R := fun h => if h = a then xs else 0

theorem total_entry [DecidableEq H] {hs : Finset H} {a : H} (ha : a ∈ hs) (xs : Multiset R) (r : R) :
    total hs (entry a xs) r = xs.count r := by
  rw [total, Finset.sum_eq_single_of_mem a ha]
  · rw [entry, if_pos rfl]
  · intro h _ hne
    rw [entry, if_neg hne, Multiset.count_zero]

/-- Every holder's balance changes by its credit less its debit. -/
def Posting (hs : Finset H) (L L' debit credit : Ledger H R) : Prop :=
  ∀ h ∈ hs, L' h + debit h = L h + credit h

section Postings

variable {hs : Finset H} {L L' debit credit : Ledger H R} {a b : H} {xs : Multiset R} {r : R}

theorem Posting.total (h : Posting hs L L' debit credit) (r : R) :
    total hs L' r + total hs debit r = total hs L r + total hs credit r := by
  simp only [Custody.total, ← Finset.sum_add_distrib, ← Multiset.count_add]
  exact Finset.sum_congr rfl fun x hx => congrArg (Multiset.count r) (h x hx)

variable [DecidableEq H]

/-- What passes from one holder to another stays held once. -/
theorem HeldOnce.handOver (h : Posting hs L L' (entry a xs) (entry b xs)) (ha : a ∈ hs)
    (hb : b ∈ hs) (hr : HeldOnce hs L r) : HeldOnce hs L' r := by
  have htotal := h.total r
  rw [total_entry ha, total_entry hb] at htotal
  rw [heldOnce_iff] at hr ⊢
  omega

/-- What is credited without being debited is held once too often. -/
theorem HeldOnce.not_minted (h : Posting hs L L' 0 (entry b xs)) (hb : b ∈ hs) (hr : r ∈ xs)
    (hheld : HeldOnce hs L r) : ¬HeldOnce hs L' r := by
  have htotal := h.total r
  have hcount := Multiset.count_pos.mpr hr
  rw [total_entry hb, total_zero] at htotal
  rw [heldOnce_iff] at hheld ⊢
  omega

/-- What is debited without being credited is lost. -/
theorem HeldOnce.not_lost (h : Posting hs L L' (entry a xs) 0) (ha : a ∈ hs) (hr : r ∈ xs)
    (hheld : HeldOnce hs L r) : ¬HeldOnce hs L' r := by
  have htotal := h.total r
  have hcount := Multiset.count_pos.mpr hr
  rw [total_entry ha, total_zero] at htotal
  rw [heldOnce_iff] at hheld ⊢
  omega

end Postings

end Custody
