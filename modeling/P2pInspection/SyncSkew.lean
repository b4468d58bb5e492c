import P2pInspection.SyncCounting

/-!
# Two slaves and one source of pulses

What a slave shows as `nb_sync_o` is all its stamps say of the time, and two of
them can only be compared as far as these counters agree. Here one slave gets a
stream of pulses `d` cycles behind another one. Their counters differ by the
pulses on the way in between (`inFlight`); this is at most one in every run
exactly when the pulses are at least `d` cycles apart (`skew_iff`).

A master sends its pulses `realPeriod` ticks apart, which makes the delay up to
which its slaves agree the length of its real period (`slaves_agree_iff`).
-/

namespace P2pInspection

namespace ClkSyncPulse

/-- The signal behind `d` flip-flops that start low. -/
def delayed (d : Nat) (signal : Nat → Bool) (n : Nat) : Bool := decide (d ≤ n) && signal (n - d)

/-- Any two high cycles are at least `d` cycles apart. -/
def Spaced (d : Nat) (signal : Nat → Bool) : Prop :=
  ∀ j k, j < k → signal j = true → signal k = true → j + d ≤ k

/-- The signal was high in one of the `d` cycles before cycle `n`. -/
def recent (d : Nat) (signal : Nat → Bool) (n : Nat) : Bool :=
  (List.range n).any fun k => decide (n ≤ k + d) && signal k

section Signals

variable {signal : Nat → Bool} {d m n : Nat}

theorem recent_iff : recent d signal n = true ↔ ∃ k < n, n ≤ k + d ∧ signal k = true := by
  simp [recent]

theorem countHigh_delayed (d : Nat) (signal : Nat → Bool) (n : Nat) :
    countHigh (delayed d signal) n = countHigh signal (n - d) := by
  induction n with
  | zero => rw [Nat.zero_sub]; rfl
  | succ n ih =>
      rw [countHigh_succ, ih]
      by_cases hd : d ≤ n
      · rw [Nat.succ_sub hd, countHigh_succ, delayed, decide_eq_true hd, Bool.true_and]
      · rw [delayed, decide_eq_false hd, Nat.sub_eq_zero_of_le (Nat.le_of_not_le hd),
          Nat.sub_eq_zero_of_le (Nat.lt_of_not_le hd)]
        rfl

variable (signal) in
theorem countHigh_mono (h : m ≤ n) : countHigh signal m ≤ countHigh signal n := by
  induction h with
  | refl => exact Nat.le_refl _
  | step _ ih =>
      rw [countHigh_succ]
      exact Nat.le_add_right_of_le ih

/-- The last of the high cycles from `m` to `n`. -/
theorem exists_last_high (h : countHigh signal m < countHigh signal n) :
    ∃ k, m ≤ k ∧ k < n ∧ signal k = true ∧ countHigh signal n = countHigh signal k + 1 := by
  induction n with
  | zero => exact absurd h (Nat.not_lt_zero _)
  | succ n ih =>
      rw [countHigh_succ] at h ⊢
      by_cases hn : signal n = true
      · refine ⟨n, ?_, Nat.lt_succ_self n, hn, by rw [if_pos hn]⟩
        by_contra hlt
        have hmono := countHigh_mono signal (Nat.lt_of_not_le hlt)
        rw [Nat.succ_eq_add_one, countHigh_succ, if_pos hn] at hmono
        rw [if_pos hn] at h
        omega
      · rw [if_neg hn, Nat.add_zero] at h ⊢
        obtain ⟨k, hm, hk, hhigh, hcount⟩ := ih h
        exact ⟨k, hm, Nat.lt_succ_of_lt hk, hhigh, hcount⟩

/-! ## Pulses on the way -/

/-- The pulses of the last `d` cycles before cycle `n`. -/
def inFlight (d : Nat) (signal : Nat → Bool) (n : Nat) : Nat :=
  countHigh signal n - countHigh signal (n - d)

theorem countHigh_eq_add (d : Nat) (signal : Nat → Bool) (n : Nat) :
    countHigh signal n = countHigh signal (n - d) + inFlight d signal n := by
  have hmono := countHigh_mono signal (Nat.sub_le n d)
  rw [inFlight]
  omega

theorem inFlight_succ_le (d : Nat) (signal : Nat → Bool) (n : Nat) :
    inFlight d signal (n + 1) ≤ inFlight d signal n + 1 := by
  have hmono := countHigh_mono signal (show n - d ≤ n + 1 - d by omega)
  rw [inFlight, inFlight, countHigh_succ]
  split <;> omega

theorem recent_iff_inFlight : recent d signal n = true ↔ 0 < inFlight d signal n := by
  rw [recent_iff, inFlight]
  constructor
  · rintro ⟨k, hk, hd, hhigh⟩
    have hbefore := countHigh_mono signal (show n - d ≤ k by omega)
    have hbehind := countHigh_mono signal (Nat.succ_le_of_lt hk)
    rw [Nat.succ_eq_add_one, countHigh_succ, if_pos hhigh] at hbehind
    omega
  · intro hpos
    obtain ⟨k, hm, hk, hhigh, -⟩ := exists_last_high (Nat.lt_of_sub_pos hpos)
    exact ⟨k, hk, by omega, hhigh⟩

/-- Two pulses within `d` cycles are on the way together, behind the second. -/
theorem spaced_iff_inFlight : Spaced d signal ↔ ∀ n, inFlight d signal n ≤ 1 := by
  constructor
  · intro h n
    by_contra hmany
    rw [inFlight] at hmany
    have hlt : countHigh signal (n - d) < countHigh signal n := by omega
    obtain ⟨k, -, hk, hhigh, hcount⟩ := exists_last_high hlt
    have hlt' : countHigh signal (n - d) < countHigh signal k := by omega
    obtain ⟨j, hj, hjk, hhigh', -⟩ := exists_last_high hlt'
    have hapart := h j k hjk hhigh' hhigh
    omega
  · intro h j k hjk hj hk
    by_contra hclose
    have hflight := h (k + 1)
    have hfirst := countHigh_mono signal (Nat.succ_le_of_lt hjk)
    have hbefore := countHigh_mono signal (show k + 1 - d ≤ j by omega)
    rw [inFlight, countHigh_succ, if_pos hk] at hflight
    rw [Nat.succ_eq_add_one, countHigh_succ, if_pos hj] at hfirst
    omega

end Signals

/-! ## The counters of two slaves -/

section Slaves

variable {period period' : BitVec 32} (s s' : Regs) {l l' : List Bool}

/-- A second slave gets the pulses of the first one `d` cycles later. In every
cycle of every run the first one is ahead by one sync if a pulse came in the last
`d` cycles, and by none otherwise, exactly when the pulses are `d` cycles apart. -/
theorem skew_iff (hl : 4 ≤ l.length) (hl' : 4 ≤ l'.length) (ins : Nat → Bool) (d : Nat) :
    (∀ n, (afterRelease .slave period s l ins n).regNbSync
        = (afterRelease .slave period' s' l' (delayed d ins) n).regNbSync
          + if recent d ins n then 1#32 else 0#32)
      ↔ Spaced d ins := by
  have hcount : ∀ n, (afterRelease .slave period s l ins n).regNbSync
      = (afterRelease .slave period' s' l' (delayed d ins) n).regNbSync
        + BitVec.ofNat 32 (inFlight d ins n) := by
    intro n
    rw [slave_nbSync s hl, slave_nbSync s' hl', countHigh_delayed, countHigh_eq_add d ins n,
      BitVec.ofNat_add]
  rw [spaced_iff_inFlight]
  constructor
  · intro h n
    have hsame : ∀ n, BitVec.ofNat 32 (inFlight d ins n)
        = if recent d ins n then 1#32 else 0#32 :=
      fun n => (BitVec.add_right_inj _).mp ((hcount n).symm.trans (h n))
    -- a third pulse cannot come before there were two
    induction n with
    | zero => exact Nat.sub_le_of_le_add (Nat.zero_le _)
    | succ n ih =>
        have hle := inFlight_succ_le d ins n
        have hnat := congrArg BitVec.toNat (hsame (n + 1))
        rw [BitVec.toNat_ofNat] at hnat
        split at hnat
        · simp only [BitVec.toNat_ofNat] at hnat
          omega
        · simp only [BitVec.toNat_ofNat] at hnat
          omega
  · intro h n
    rw [hcount n]
    have hone := h n
    by_cases hrecent : recent d ins n = true
    · have hpos := recent_iff_inFlight.mp hrecent
      rw [if_pos hrecent, show inFlight d ins n = 1 by omega]
    · have hnone : ¬0 < inFlight d ins n := fun hpos => hrecent (recent_iff_inFlight.mpr hpos)
      rw [if_neg hrecent, show inFlight d ins n = 0 by omega]

/-- Pulses ten cycles apart, three cycles of delay. -/
theorem skew_iff_everyTenth :
    (afterRelease .slave defaultPeriod powerUp [false, false, false, false]
        (fun k => k % 10 == 0) 11).regNbSync
      = (afterRelease .slave 1#32 powerUp [true, true, true, true]
        (delayed 3 fun k => k % 10 == 0) 11).regNbSync + 1#32 := by
  have hspaced : Spaced 3 fun k => k % 10 == 0 := by
    intro j k hjk hj hk
    rw [beq_iff_eq] at hj hk
    omega
  exact (skew_iff powerUp powerUp (by decide) (by decide) (fun k => k % 10 == 0) 3).mpr hspaced 11

/-! ## The slaves of a master -/

/-- What a slave counts that is `d` cycles away from a master. -/
theorem slave_of_master {P : Nat} (h1 : 1 ≤ P) (h31 : P < 2 ^ 31) (m : Regs) {lm : List Bool}
    (hlm : 4 ≤ lm.length) (hl : 4 ≤ l.length) (ins : Nat → Bool) (d n : Nat) :
    (afterRelease .slave period s l (delayed d fun k =>
        syncPulseO (afterRelease .master (BitVec.ofNat 32 P) m lm ins k) (ins k)) n).regNbSync
      = BitVec.ofNat 32 ((n - d) / realPeriod P) := by
  rw [slave_nbSync s hl, countHigh_delayed, ← master_nbSync m hlm,
    (masterAt_run h1 h31 m hlm ins (n - d)).nbSync]

/-- Periods counted up to `k` and up to `d` ticks earlier. -/
theorem div_sub_eq {T d : Nat} (hT : 0 < T) (hd : d ≤ T) (k : Nat) :
    k / T = (k - d) / T + if T ≤ k ∧ k % T < d then 1 else 0 := by
  have hsplit := Nat.div_add_mod k T
  have hlt := Nat.mod_lt k hT
  by_cases hk : T ≤ k
  · obtain ⟨q, hq⟩ : ∃ q, k / T = q + 1 :=
      ⟨k / T - 1, (Nat.sub_add_cancel (Nat.div_pos hk hT)).symm⟩
    rw [hq, Nat.mul_add, Nat.mul_one] at hsplit
    by_cases hr : k % T < d
    · rw [if_pos ⟨hk, hr⟩, hq, show k - d = (T + k % T - d) + T * q by omega,
        Nat.add_mul_div_left _ _ hT, Nat.div_eq_of_lt (by omega), Nat.zero_add]
    · rw [if_neg fun h => hr h.2, hq, show k - d = (k % T - d) + T * (q + 1) by
        rw [Nat.mul_add, Nat.mul_one]
        omega, Nat.add_mul_div_left _ _ hT, Nat.div_eq_of_lt (by omega), Nat.zero_add,
        Nat.add_zero]
  · rw [if_neg fun h => hk h.1, Nat.div_eq_of_lt (by omega), Nat.div_eq_of_lt (by omega)]

/-- Two slaves of a master, `d₀` and `d₀ + d` cycles away from it. The nearer one
is ahead by one sync in the first `d` cycles behind every pulse it gets, and by
none in the others, exactly when `d` does not exceed the real period. -/
theorem slaves_agree_iff {P : Nat} (h1 : 1 ≤ P) (h31 : P < 2 ^ 31) (m : Regs) {lm : List Bool}
    (hlm : 4 ≤ lm.length) (hl : 4 ≤ l.length) (hl' : 4 ≤ l'.length) (ins : Nat → Bool)
    (d₀ d : Nat) :
    let pulses := fun k =>
      syncPulseO (afterRelease .master (BitVec.ofNat 32 P) m lm ins k) (ins k)
    (∀ n, (afterRelease .slave period s l (delayed d₀ pulses) n).regNbSync
        = (afterRelease .slave period' s' l' (delayed (d₀ + d) pulses) n).regNbSync
          + if d₀ + realPeriod P ≤ n ∧ (n - d₀) % realPeriod P < d then 1#32 else 0#32)
      ↔ d ≤ realPeriod P := by
  intro pulses
  have hnear : ∀ n, (afterRelease .slave period s l (delayed d₀ pulses) n).regNbSync = _ :=
    slave_of_master s h1 h31 m hlm hl ins d₀
  have hfar : ∀ n, (afterRelease .slave period' s' l' (delayed (d₀ + d) pulses) n).regNbSync
      = _ := slave_of_master s' h1 h31 m hlm hl' ins (d₀ + d)
  have hT := realPeriod_pos P
  constructor
  · intro h
    by_contra hlong
    -- the second pulse reaches the nearer slave before the first the other one
    have hn := h (d₀ + 2 * realPeriod P)
    rw [hnear, hfar, Nat.add_sub_cancel_left, Nat.mul_div_cancel _ hT,
      Nat.div_eq_of_lt (by omega)] at hn
    split at hn
    · exact absurd hn (by decide)
    · exact absurd hn (by decide)
  · intro hd n
    rw [hnear, hfar, div_sub_eq hT hd (n - d₀), Nat.sub_sub, BitVec.ofNat_add]
    by_cases hn : d₀ + realPeriod P ≤ n ∧ (n - d₀) % realPeriod P < d
    · rw [if_pos hn, if_pos ⟨by omega, hn.2⟩]
    · rw [if_neg hn, if_neg fun h => hn ⟨by omega, h.2⟩]

/-- Right behind the second pulse of a master with the default period. -/
theorem slaves_agree_iff_default :
    let pulses := fun k =>
      syncPulseO (afterRelease .master 322#32 powerUp [false, false, false, false]
        (fun _ => false) k) false
    (afterRelease .slave defaultPeriod powerUp [false, false, false, false]
        (delayed 5 pulses) 328).regNbSync
      = (afterRelease .slave defaultPeriod powerUp [false, false, false, false]
        (delayed 12 pulses) 328).regNbSync + 1#32 :=
  (slaves_agree_iff (P := 322) powerUp powerUp (by decide) (by decide) powerUp (by decide)
    (by decide) (by decide) (fun _ => false) 5 7).mpr (by decide) 328

end Slaves

end ClkSyncPulse

end P2pInspection
