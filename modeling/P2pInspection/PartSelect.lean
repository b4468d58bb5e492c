/-!
# Indexed part-selects on bit vectors

Reading `v[i +: n]` is `BitVec.extractLsb'`; this file adds the write
`v[i +: n] = x` and the laws a proof about stamped words needs: what each bit
is afterwards, that the window reads back, that every disjoint window is
untouched, and that a write changes nothing exactly when the window already
held the value.
-/

namespace PartSelect

variable {w n m : Nat}

/-- `v[i +: n] = x`: the bits outside the window keep their value, and the part
of the window past the end of the vector is dropped. -/
def write (v : BitVec w) (i : Nat) (x : BitVec n) : BitVec w :=
  (v &&& ~~~((BitVec.allOnes n).setWidth w <<< i)) ||| (x.setWidth w <<< i)

theorem getLsbD_write (v : BitVec w) (i : Nat) (x : BitVec n) {k : Nat} (hk : k < w) :
    (write v i x).getLsbD k =
      if i ≤ k ∧ k < i + n then x.getLsbD (k - i) else v.getLsbD k := by
  have hki : k - i < w := Nat.lt_of_le_of_lt (Nat.sub_le k i) hk
  simp only [write, BitVec.getLsbD_or, BitVec.getLsbD_and, BitVec.getLsbD_not,
    BitVec.getLsbD_shiftLeft, BitVec.getLsbD_setWidth, BitVec.getLsbD_allOnes, hk, hki,
    decide_true, Bool.true_and]
  by_cases hlo : k < i
  · rw [if_neg (by omega)]
    simp [hlo]
  · by_cases hhi : k - i < n
    · rw [if_pos (by omega)]
      simp [hlo, hhi]
    · rw [if_neg (by omega), BitVec.getLsbD_of_ge x (k - i) (Nat.le_of_not_lt hhi)]
      simp [hlo, hhi]

theorem extract_write_self (v : BitVec w) {i : Nat} (x : BitVec n) (h : i + n ≤ w) :
    (write v i x).extractLsb' i n = x := by
  apply BitVec.eq_of_getLsbD_eq
  intro k hk
  rw [BitVec.getLsbD_extractLsb', getLsbD_write v i x (by omega), if_pos (by omega)]
  simp [hk]

theorem extract_write_disjoint (v : BitVec w) {i j : Nat} (x : BitVec n)
    (hj : j + m ≤ w) (h : j + m ≤ i ∨ i + n ≤ j) :
    (write v i x).extractLsb' j m = v.extractLsb' j m := by
  apply BitVec.eq_of_getLsbD_eq
  intro k hk
  rw [BitVec.getLsbD_extractLsb', BitVec.getLsbD_extractLsb',
    getLsbD_write v i x (by omega), if_neg (by omega)]

/-- A write is invisible exactly when the window already held the value. -/
theorem write_eq_self_iff (v : BitVec w) {i : Nat} (x : BitVec n) (h : i + n ≤ w) :
    write v i x = v ↔ v.extractLsb' i n = x := by
  constructor
  · intro heq
    rw [← extract_write_self v x h, heq]
  · intro hread
    apply BitVec.eq_of_getLsbD_eq
    intro k hk
    rw [getLsbD_write v i x hk]
    split
    · rename_i hin
      rw [← hread, BitVec.getLsbD_extractLsb', Nat.add_sub_cancel' hin.1]
      simp [show k - i < n by omega]
    · rfl

end PartSelect
