import Mathlib.Algebra.BigOperators.Fin
import Mathlib.Data.BitVec
import Mathlib.Data.List.Chain

/-!
# Differences of free-running counters

A counter of `w` bits is read twice, `a` before `b`, and the readings are
subtracted modulo `2 ^ w`. The difference in the order `b - a` is the elapsed
count; in the order `a - b` it is the elapsed count negated, which is the
count itself for two values only (`toNat_backward_eq_iff`).

Scaling the difference before dividing it is exact as long as the product
fits in the word, and in no other case (`mod_div_eq_div_iff`).
-/

namespace WrappingCounter

variable {w : Nat}

theorem toNat_backward {a b : BitVec w} (h : a.toNat ≤ b.toNat) :
    (a - b).toNat = (2 ^ w - (b.toNat - a.toNat)) % 2 ^ w := by
  have hb : b.toNat < 2 ^ w := b.isLt
  rw [BitVec.toNat_sub]
  congr 1
  omega

theorem toNat_backward_eq_iff {a b : BitVec w} (h : a.toNat ≤ b.toNat) :
    (a - b).toNat = b.toNat - a.toNat
      ↔ b.toNat = a.toNat ∨ 2 * (b.toNat - a.toNat) = 2 ^ w := by
  have hb : b.toNat < 2 ^ w := b.isLt
  rw [toNat_backward h]
  rcases Nat.eq_or_lt_of_le h with heq | hlt
  · have hzero : b.toNat - a.toNat = 0 := by omega
    rw [hzero, Nat.sub_zero, Nat.mod_self]
    exact ⟨fun _ => Or.inl heq.symm, fun _ => rfl⟩
  · rw [Nat.mod_eq_of_lt (by omega)]
    omega

/-- What an added multiple of the modulus loses, the quotient shows. -/
theorem mod_div_eq_div_iff {x m d : Nat} (hd : 0 < d) (hdm : d ≤ m) :
    x % m / d = x / d ↔ x < m := by
  constructor
  · intro heq
    rcases Nat.lt_or_ge x m with hlt | hge
    · exact hlt
    · have hle : x % m + d ≤ x := by
        have hsplit := Nat.mod_add_div x m
        have hq : m * 1 ≤ m * (x / m) :=
          Nat.mul_le_mul_left m (Nat.div_pos hge (Nat.lt_of_lt_of_le hd hdm))
        omega
      have hgrow := Nat.div_le_div_right (c := d) hle
      rw [Nat.add_div_right _ hd, heq] at hgrow
      omega
  · intro hlt
    rw [Nat.mod_eq_of_lt hlt]

/-! ## Elapsed counts add up -/

theorem sum_elapsed {n : Nat} (f : Fin (n + 1) → Int) :
    ∑ i : Fin n, (f i.succ - f i.castSucc) = f (Fin.last n) - f 0 := by
  induction n with
  | zero => simp
  | succ n ih =>
      rw [Fin.sum_univ_castSucc]
      have hinit := ih (fun i => f i.castSucc)
      simp only [Fin.succ_castSucc, Fin.succ_last, Fin.castSucc_zero, Nat.succ_eq_add_one]
        at hinit ⊢
      rw [hinit]
      omega

/-! ## Readings in a row

`List.zipWith f (old :: cs) cs` takes every reading with the one before it,
`old` standing before the first. -/

section Readings

variable {α β : Type}

theorem zipWith_append (f : α → α → β) (old : α) (cs cs' : List α) :
    List.zipWith f (old :: (cs ++ cs')) (cs ++ cs')
      = List.zipWith f (old :: cs) cs ++ List.zipWith f (cs.getLastD old :: cs') cs' := by
  induction cs generalizing old with
  | nil => simp
  | cons c cs ih =>
      rw [List.cons_append, List.zipWith_cons_cons, ih c, List.zipWith_cons_cons,
        List.getLastD_cons, List.cons_append]

/-- Two functions agree along the readings when they do at every step. -/
theorem zipWith_eq_iff (f g : α → α → β) (old : α) (cs : List α) :
    List.zipWith f (old :: cs) cs = List.zipWith g (old :: cs) cs
      ↔ (old :: cs).IsChain fun a b => f a b = g a b := by
  induction cs generalizing old with
  | nil => simp
  | cons c cs ih =>
      rw [List.zipWith_cons_cons, List.zipWith_cons_cons, List.isChain_cons_cons,
        List.cons.injEq, ih c]

/-- Along a chain of `R`, relations that agree on the pairs of `R` agree. -/
theorem isChain_iff_of {R P Q : α → α → Prop} {l : List α} (hR : l.IsChain R)
    (h : ∀ a b, R a b → (P a b ↔ Q a b)) : l.IsChain P ↔ l.IsChain Q := by
  induction hR with
  | nil => simp
  | singleton a => simp
  | cons_cons hab _ ih => rw [List.isChain_cons_cons, List.isChain_cons_cons, h _ _ hab, ih]

end Readings

end WrappingCounter
