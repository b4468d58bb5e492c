import Mathlib.Logic.Function.Defs

/-!
# Reading numerals back

`Nat.toDigits b` writes a number in base `b` without padding. `readNumeral b`
reads a text that consists of digits of that base and nothing else, and
`readNumeral_toDigits` says that it undoes the writing: two numerals are the
same only for the same number.
-/

namespace Numerals

variable {b : Nat}

/-- A numeral has one digit, or ends in one behind the numeral of a smaller number. -/
theorem toDigits_induct {P : Nat → List Char → Prop} (hb : 1 < b)
    (one : ∀ d < b, P d [d.digitChar])
    (more : ∀ m, ∀ d < b, P m (Nat.toDigits b m) →
      P (b * m + d) (Nat.toDigits b m ++ [d.digitChar]))
    (n : Nat) : P n (Nat.toDigits b n) := by
  induction n using Nat.strongRecOn with
  | ind n ih =>
      rw [Nat.toDigits_eq_if hb]
      split
      · rename_i hlt
        exact one n hlt
      · rename_i hge
        have hdiv : n / b < n := Nat.div_lt_self (by omega) hb
        have hmod : n % b < b := Nat.mod_lt n (by omega)
        have hlast := more (n / b) (n % b) hmod (ih (n / b) hdiv)
        rwa [Nat.div_add_mod] at hlast

theorem forall_mem_toDigits {P : Char → Prop} (hb : 1 < b)
    (hP : ∀ d < b, P d.digitChar) : ∀ n, ∀ c ∈ Nat.toDigits b n, P c :=
  toDigits_induct (P := fun _ t => ∀ c ∈ t, P c) hb
    (fun d hd => List.forall_mem_singleton.mpr (hP d hd))
    fun _ d hd ih => List.forall_mem_append.mpr ⟨ih, List.forall_mem_singleton.mpr (hP d hd)⟩

/-! ## Reading -/

def digitVal? (b : Nat) (c : Char) : Option Nat :=
  (List.range b).find? fun d => d.digitChar == c

/-- An unsigned numeral, most significant digit first. -/
def readNumeral (b : Nat) (t : List Char) : Option Nat :=
  if t = [] then none
  else t.foldlM (fun v c => (digitVal? b c).map (b * v + ·)) 0

/-- There are 16 different digits. -/
theorem digitChar_inj : ∀ d < 16, ∀ d' < 16, d.digitChar = d'.digitChar → d = d' := by
  decide

theorem digitVal?_digitChar (hb : b ≤ 16) {d : Nat} (hd : d < b) :
    digitVal? b d.digitChar = some d := by
  rw [digitVal?, List.find?_range_eq_some]
  refine ⟨by simp, List.mem_range.mpr hd, fun j hj => ?_⟩
  have hne : j.digitChar ≠ d.digitChar := fun heq =>
    Nat.ne_of_lt hj (digitChar_inj j (by omega) d (by omega) heq)
  simp [hne]

theorem digitVal?_eq_none {c : Char} (h : ∀ d < b, d.digitChar ≠ c) : digitVal? b c = none := by
  rw [digitVal?, List.find?_eq_none]
  intro d hd
  simpa using h d (List.mem_range.mp hd)

/-- The value is built up digit by digit, as the numeral is. -/
theorem readNumeral_toDigits (hb : 1 < b) (hb' : b ≤ 16) (n : Nat) :
    readNumeral b (Nat.toDigits b n) = some n := by
  rw [readNumeral, if_neg Nat.toDigits_ne_nil]
  refine toDigits_induct (P := fun n t =>
    t.foldlM (fun v c => (digitVal? b c).map (b * v + ·)) 0 = some n) hb ?_ ?_ n
  · intro d hd
    simp [digitVal?_digitChar hb' hd]
  · intro m d hd ih
    rw [List.foldlM_append, ih]
    simp [digitVal?_digitChar hb' hd]

theorem toDigits_injective (hb : 1 < b) (hb' : b ≤ 16) : Function.Injective (Nat.toDigits b) := by
  intro m n heq
  have hread := readNumeral_toDigits hb hb' m
  rw [heq, readNumeral_toDigits hb hb' n] at hread
  exact (Option.some.inj hread).symm

theorem readNumeral_eq_none {c : Char} (h : ∀ d < b, d.digitChar ≠ c) (t : List Char) :
    readNumeral b (c :: t) = none := by
  simp [readNumeral, digitVal?_eq_none h]

/-! ## Integers -/

theorem toString_negSucc (n : Nat) :
    (toString (Int.negSucc n)).toList = '-' :: Nat.toDigits 10 (n + 1) := by
  simp [Int.toString_eq_repr, Int.repr]

/-- A printed integer is an unsigned numeral when it has no sign. -/
theorem readNumeral_int_iff (i : Int) (n : Nat) :
    readNumeral 10 (toString i).toList = some n ↔ i = n := by
  have hread := readNumeral_toDigits (b := 10) (by decide) (by decide)
  cases i with
  | ofNat m =>
      have htext : (toString (Int.ofNat m)).toList = Nat.toDigits 10 m := Nat.toList_repr
      rw [htext, hread m]
      exact ⟨fun h => congrArg Int.ofNat (Option.some.inj h),
        fun h => congrArg some (Int.ofNat.inj h)⟩
  | negSucc m =>
      rw [toString_negSucc, readNumeral_eq_none (by decide)]
      simp

theorem toString_int_injective : Function.Injective (toString : Int → String) := by
  intro i j heq
  cases i with
  | ofNat m =>
      have hread := (readNumeral_int_iff (Int.ofNat m) m).mpr rfl
      rw [heq] at hread
      exact ((readNumeral_int_iff j m).mp hread).symm
  | negSucc m =>
      cases j with
      | ofNat n =>
          have hread := (readNumeral_int_iff (Int.ofNat n) n).mpr rfl
          rw [← heq] at hread
          exact (readNumeral_int_iff (Int.negSucc m) n).mp hread
      | negSucc n =>
          have htexts := congrArg String.toList heq
          rw [toString_negSucc, toString_negSucc, List.cons_inj_right] at htexts
          have hsucc := toDigits_injective (by decide) (by decide) htexts
          rw [Nat.succ.inj hsucc]

end Numerals
