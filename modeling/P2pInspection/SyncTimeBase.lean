import Mathlib.Algebra.Group.Nat.Defs
import P2pInspection.ClkSyncPulse
import P2pInspection.Timestamps

/-!
# The time base `clk_sync_pulse` makes

What `nb_sync_o` and `curr_tick_o` are, in closed form, `n` edges after a
reset. The registered comparison takes effect one cycle after the tick it
compared, so in master mode a period of `P ≥ 2` lasts `P + 1` ticks
(`realPeriod`, `masterAt_run`); in slave mode the tick counter is reset or
held and never moves (`slaveAt_run`). `timeBase_iff` and `clock_monotone_iff`
measure this against the register map and against the server's constants.
-/

namespace P2pInspection

namespace ClkSyncPulse

/-! ## Counting modulo a period -/

theorem succ_div_mod_wrap {n T : Nat} (h : n % T + 1 = T) :
    (n + 1) % T = 0 ∧ (n + 1) / T = n / T + 1 := by
  have hsplit := Nat.div_add_mod n T
  have hn : n + 1 = T * (n / T + 1) := by
    rw [Nat.mul_add, Nat.mul_one]
    omega
  refine ⟨?_, ?_⟩
  · rw [hn, Nat.mul_mod_right]
  · rw [hn, Nat.mul_div_cancel_left _ (by omega)]

theorem succ_div_mod_step {n T : Nat} (h : n % T + 1 < T) :
    (n + 1) % T = n % T + 1 ∧ (n + 1) / T = n / T := by
  have hsplit := Nat.div_add_mod n T
  have hn : n + 1 = (n % T + 1) + T * (n / T) := by omega
  refine ⟨?_, ?_⟩
  · rw [hn, Nat.add_mul_mod_self_left, Nat.mod_eq_of_lt h]
  · rw [hn, Nat.add_mul_div_left _ _ (by omega), Nat.div_eq_of_lt h, Nat.zero_add]

/-! ## Master mode -/

/-- Ticks from one pulse to the next with `DEFAULT_PERIOD = P`. Only for
`P = 1`, where the comparison is constantly true, is it the period itself. -/
def realPeriod (P : Nat) : Nat := if P = 1 then 1 else P + 1

theorem realPeriod_cases (P : Nat) :
    (P = 1 ∧ realPeriod P = 1) ∨ (P ≠ 1 ∧ realPeriod P = P + 1) := by
  unfold realPeriod
  split <;> omega

theorem realPeriod_pos (P : Nat) : 0 < realPeriod P := by
  have := realPeriod_cases P
  omega

theorem Steady.master_enables {period : BitVec 32} {s : Regs} (h : Steady .master period s)
    (i : Bool) : incrNbSyncW s i = false ∧ incrCurrTickW s i = true
      ∧ syncPeriodDetectW s i = s.masterSyncPeriodDetectR
      ∧ syncPulseO s i = s.masterSyncPeriodDetectR := by
  have hm : ClkSyncPulse.masterModeO s = true := h.masterModeO
  simp [incrNbSyncW, incrCurrTickW, syncPeriodDetectW, syncPulseO, hm]

/-- The counters and the registered match `n` edges after the release. -/
structure MasterAt (P n : Nat) (s : Regs) : Prop where
  steady : Steady .master (BitVec.ofNat 32 P) s
  nbSync : s.regNbSync = BitVec.ofNat 32 (n / realPeriod P)
  currTick : s.regCurrTick = BitVec.ofNat 32 (n % realPeriod P)
  detect : s.masterSyncPeriodDetectR = decide (n % realPeriod P + 1 = realPeriod P)

/-- The comparison a master registers: the tick equals the stored `P - 1`. -/
theorem periodMatch_iff {P t : Nat} (h1 : 1 ≤ P) (h31 : P < 2 ^ 31) (ht : t < 2 ^ 32) :
    (BitVec.ofNat 32 t ^^^ (BitVec.ofNat 32 P - 1#32) == 0#32) = decide (t + 1 = P) := by
  have hP : BitVec.ofNat 32 P - 1#32 = BitVec.ofNat 32 (P - 1) := by
    apply BitVec.eq_of_toNat_eq
    simp only [BitVec.toNat_sub, BitVec.toNat_ofNat]
    omega
  rw [hP]
  by_cases h : t + 1 = P
  · have htP : t = P - 1 := by omega
    simp [htP, show P - 1 + 1 = P by omega]
  · have hne : BitVec.ofNat 32 t ≠ BitVec.ofNat 32 (P - 1) := by
      intro heq
      have := congrArg BitVec.toNat heq
      simp only [BitVec.toNat_ofNat] at this
      omega
    simp [h, hne]

theorem masterAt_settled {P : Nat} (h1 : 1 ≤ P) (h31 : P < 2 ^ 31) :
    MasterAt P 0 (settled .master (BitVec.ofNat 32 P)) := by
  refine ⟨steady_settled _ _, by simp [settled], by simp [settled], ?_⟩
  have hmatch := periodMatch_iff (t := 0) h1 h31 (by decide)
  simp only [settled, hmatch, Mode.bit, Nat.zero_mod, realPeriod]
  by_cases hP : P = 1
  · simp [hP]
  · simp [hP, show ¬(1 = P) by omega, show ¬(P = 0) by omega]

theorem MasterAt.edge {P n : Nat} (h1 : 1 ≤ P) (h31 : P < 2 ^ 31) {s : Regs}
    (h : MasterAt P n s) (i : Bool) :
    MasterAt P (n + 1) (ClkSyncPulse.edge .master (BitVec.ofNat 32 P) true s i) := by
  obtain ⟨hnb, htick, hdet, -⟩ := h.steady.master_enables i
  have hlt : n % realPeriod P < realPeriod P := Nat.mod_lt n (realPeriod_pos P)
  have hper := realPeriod_cases P
  have hmatch : (ClkSyncPulse.edge .master (BitVec.ofNat 32 P) true s i).masterSyncPeriodDetectR
      = decide (n % realPeriod P + 1 = P) := by
    simp only [ClkSyncPulse.edge, h.steady.modeSync, h.steady.periodSync, h.currTick]
    rw [periodMatch_iff h1 h31 (by omega)]
    rfl
  -- the two cases of the registered match, as the counters see it
  by_cases hwrap : n % realPeriod P + 1 = realPeriod P
  · obtain ⟨hmod, hdiv⟩ := succ_div_mod_wrap hwrap
    refine ⟨h.steady.edge i, ?_, ?_, ?_⟩
    · simp [ClkSyncPulse.edge, nextNbSync, hnb, hdet, h.detect, hwrap, h.nbSync, hdiv,
        BitVec.ofNat_add]
    · simp [ClkSyncPulse.edge, nextCurrTick, hnb, htick, h.detect, hwrap, hmod]
    · rw [hmatch, hmod, decide_eq_decide]
      omega
  · obtain ⟨hmod, hdiv⟩ := succ_div_mod_step (n := n) (T := realPeriod P) (by omega)
    refine ⟨h.steady.edge i, ?_, ?_, ?_⟩
    · simp [ClkSyncPulse.edge, nextNbSync, hnb, hdet, h.detect, hwrap, h.nbSync, hdiv]
    · simp [ClkSyncPulse.edge, nextCurrTick, hnb, htick, h.detect, hwrap, h.currTick, hmod,
        BitVec.ofNat_add]
    · rw [hmatch, hmod, decide_eq_decide]
      omega

theorem masterAt_run {P : Nat} (h1 : 1 ≤ P) (h31 : P < 2 ^ 31) (s : Regs) {l : List Bool}
    (hl : 4 ≤ l.length) (ins : Nat → Bool) (n : Nat) :
    MasterAt P n (afterRelease .master (BitVec.ofNat 32 P) s l ins n) := by
  rw [afterRelease_eq s hl]
  exact Clocked.stateAt_induct (P := MasterAt P) (masterAt_settled h1 h31)
    (fun n _ h => h.edge h1 h31 (ins n)) n

/-- What the register map promises of cycle `n` for a period of `P` ticks. -/
structure TimeBaseAt (P n : Nat) (s : Regs) (syncPulseI : Bool) : Prop where
  nbSync : s.regNbSync = BitVec.ofNat 32 (n / P)
  currTick : s.regCurrTick = BitVec.ofNat 32 (n % P)
  pulse : syncPulseO s syncPulseI = true ↔ n % P = P - 1

theorem MasterAt.pulse_iff {P n : Nat} {s : Regs} (h : MasterAt P n s) (i : Bool) :
    syncPulseO s i = true ↔ n % realPeriod P + 1 = realPeriod P := by
  rw [(h.steady.master_enables i).2.2.2, h.detect, decide_eq_true_eq]

/-- A run of `N` edges keeps the promised time base exactly when the period is
one tick or the run ends before its first pulse is due. -/
theorem timeBase_iff {P : Nat} (h1 : 1 ≤ P) (h31 : P < 2 ^ 31) (s : Regs) {l : List Bool}
    (hl : 4 ≤ l.length) (ins : Nat → Bool) (N : Nat) :
    (∀ n ≤ N, TimeBaseAt P n
        (afterRelease .master (BitVec.ofNat 32 P) s l ins n) (ins n))
      ↔ P = 1 ∨ N + 1 < P := by
  have hrun := masterAt_run h1 h31 s hl ins
  have hper := realPeriod_cases P
  constructor
  · intro hbase
    by_contra hno
    -- the pulse due in cycle `P - 1` is still missing there
    have hpulse := (hbase (P - 1) (by omega)).pulse
    rw [(hrun (P - 1)).pulse_iff, Nat.mod_eq_of_lt (show P - 1 < P by omega),
      Nat.mod_eq_of_lt (show P - 1 < realPeriod P by omega)] at hpulse
    omega
  · intro hcond n hn
    have hmod : n % realPeriod P = n % P ∧ n / realPeriod P = n / P := by
      rcases hcond with rfl | hshort
      · exact ⟨rfl, rfl⟩
      · rw [Nat.mod_eq_of_lt (show n < realPeriod P by omega), Nat.mod_eq_of_lt (show n < P by omega),
          Nat.div_eq_of_lt (show n < realPeriod P by omega), Nat.div_eq_of_lt (show n < P by omega)]
        exact ⟨rfl, rfl⟩
    refine ⟨?_, ?_, ?_⟩
    · rw [(hrun n).nbSync, hmod.2]
    · rw [(hrun n).currTick, hmod.1]
    · rw [(hrun n).pulse_iff, hmod.1]
      rcases hcond with rfl | hshort
      · omega
      · rw [Nat.mod_eq_of_lt (show n < P by omega)]
        omega

/-- All registers at zero, slave mode: a power-up state. -/
def powerUp : Regs := ⟨.slave, 0, 0, 0, 0, 0, 0, 0, false⟩

/-- With the default period of 322 ticks, edge 322 does not start a new period. -/
theorem timeBase_fails_322 :
    ¬TimeBaseAt 322 322 (afterRelease .master (BitVec.ofNat 32 322) powerUp
        [false, false, false, false] (fun _ => false) 322) false := by
  intro h
  have hnb := (masterAt_run (P := 322) (by decide) (by decide) powerUp
    (l := [false, false, false, false]) (by decide) (fun _ => false) 322).nbSync
  exact absurd (hnb.symm.trans h.nbSync) (by decide)

theorem timeBase_iff_one :
    TimeBaseAt 1 1000 (afterRelease .master (BitVec.ofNat 32 1) powerUp
      [true, false, true, false] (fun _ => true) 1000) true :=
  (timeBase_iff (by decide) (by decide) powerUp (by decide) (fun _ => true) 1000).mpr
    (Or.inl rfl) 1000 (Nat.le_refl _)

/-! ## Slave mode -/

/-- A slave's tick counter and match register stay at zero. -/
structure SlaveAt (period : BitVec 32) (s : Regs) : Prop where
  steady : Steady .slave period s
  currTick : s.regCurrTick = 0#32
  detect : s.masterSyncPeriodDetectR = false

theorem SlaveAt.enables {period : BitVec 32} {s : Regs} (h : SlaveAt period s) (i : Bool) :
    incrNbSyncW s i = i ∧ incrCurrTickW s i = i ∧ syncPeriodDetectW s i = false := by
  have hm : masterModeO s = false := h.steady.masterModeO
  simp [incrNbSyncW, incrCurrTickW, syncPeriodDetectW, hm, h.detect]

theorem slaveAt_settled (period : BitVec 32) : SlaveAt period (settled .slave period) :=
  ⟨steady_settled _ _, rfl, rfl⟩

theorem SlaveAt.edge {period : BitVec 32} {s : Regs} (h : SlaveAt period s) (i : Bool) :
    SlaveAt period (ClkSyncPulse.edge .slave period true s i) := by
  obtain ⟨hnb, htick, -⟩ := h.enables i
  refine ⟨h.steady.edge i, ?_, ?_⟩
  · simp only [ClkSyncPulse.edge, nextCurrTick, hnb, htick, h.currTick]
    cases i <;> rfl
  · simp [ClkSyncPulse.edge, h.steady.modeSync, Mode.bit]

theorem slaveAt_run (period : BitVec 32) (s : Regs) {l : List Bool} (hl : 4 ≤ l.length)
    (ins : Nat → Bool) (n : Nat) : SlaveAt period (afterRelease .slave period s l ins n) := by
  rw [afterRelease_eq s hl]
  exact Clocked.stateAt_induct (P := fun _ => SlaveAt period) (slaveAt_settled period)
    (fun n _ h => h.edge (ins n)) n

/-! ## The server's reading of the counters -/

/-- Nanoseconds the server assigns to a counter pair, in its 64-bit arithmetic. -/
def clockNs (s : Regs) : BitVec 64 :=
  s.regNbSync.setWidth 64 * BitVec.ofNat 64 lenNbSyncNs
    + s.regCurrTick.setWidth 64 * BitVec.ofNat 64 lenTimeTickNs

theorem toNat_clockNs (s : Regs) :
    (clockNs s).toNat = s.regNbSync.toNat * 1000 + s.regCurrTick.toNat * 4 := by
  have hnb := s.regNbSync.isLt
  have htick := s.regCurrTick.isLt
  simp only [clockNs, lenNbSyncNs, lenTimeTickNs, BitVec.toNat_add, BitVec.toNat_mul,
    BitVec.toNat_setWidth, BitVec.toNat_ofNat]
  omega

/-- This edge takes one of the two counters past its last value. -/
def Wraps (s : Regs) (syncPulseI : Bool) : Prop :=
  (s.regNbSync = BitVec.allOnes 32
      ∧ (incrNbSyncW s syncPulseI || syncPeriodDetectW s syncPulseI) = true)
    ∨ (s.regCurrTick = BitVec.allOnes 32
      ∧ (!incrNbSyncW s syncPulseI && incrCurrTickW s syncPulseI) = true)

theorem SlaveAt.clockNs_le {period : BitVec 32} {s : Regs} (h : SlaveAt period s) {i : Bool}
    (hwrap : ¬Wraps s i) :
    (clockNs s).toNat ≤ (clockNs (ClkSyncPulse.edge .slave period true s i)).toNat := by
  obtain ⟨hnb, -, hdet⟩ := h.enables i
  have htick := (h.edge i).currTick
  rw [toNat_clockNs, toNat_clockNs, h.currTick, htick]
  simp only [ClkSyncPulse.edge, nextNbSync, hnb, hdet]
  cases i with
  | false => exact Nat.le_refl _
  | true =>
      have hlt : s.regNbSync.toNat ≠ 2 ^ 32 - 1 := fun heq =>
        hwrap (Or.inl ⟨BitVec.eq_of_toNat_eq heq, by simp [hnb]⟩)
      have hisLt := s.regNbSync.isLt
      simp only [Bool.not_true, Bool.false_eq_true, if_false, Bool.or_false, if_true,
        BitVec.toNat_add, BitVec.toNat_ofNat]
      omega

theorem MasterAt.clockNs_eq {n : Nat} {s : Regs} (h : MasterAt 322 n s) (hn : n < 2 ^ 32) :
    (clockNs s).toNat = n / 323 * 1000 + n % 323 * 4 := by
  have hper : realPeriod 322 = 323 := rfl
  rw [toNat_clockNs, h.nbSync, h.currTick, hper, BitVec.toNat_ofNat, BitVec.toNat_ofNat]
  omega

theorem clockNs_master (s : Regs) {l : List Bool} (hl : 4 ≤ l.length) (ins : Nat → Bool)
    {n : Nat} (hn : n < 2 ^ 32) :
    (clockNs (afterRelease .master defaultPeriod s l ins n)).toNat
      = n / 323 * 1000 + n % 323 * 4 :=
  (masterAt_run (P := 322) (by decide) (by decide) s hl ins n).clockNs_eq hn

/-- Before a counter wraps, the server's clock never runs backwards on a run of
`N` edges exactly in slave mode, or in master mode up to the first carry: the
322 ticks of a period are worth more than the 1000 ns of a sync. -/
theorem clock_monotone_iff (mode : Mode) (s : Regs) {l : List Bool} (hl : 4 ≤ l.length)
    (ins : Nat → Bool) (N : Nat)
    (hwrap : ∀ k < N, ¬Wraps (afterRelease mode defaultPeriod s l ins k) (ins k)) :
    (∀ t₁ t₂, t₁ ≤ t₂ → t₂ ≤ N →
        clockNs (afterRelease mode defaultPeriod s l ins t₁)
          ≤ clockNs (afterRelease mode defaultPeriod s l ins t₂))
      ↔ mode = .slave ∨ N ≤ 322 := by
  cases mode with
  | slave =>
      refine ⟨fun _ => Or.inl rfl, fun _ t₁ t₂ h12 => ?_⟩
      -- along the run, one edge at a time
      induction h12 with
      | refl => exact fun _ => BitVec.le_refl _
      | @step t _ ih =>
          intro ht
          have ht' : t < N := ht
          have hstep := (slaveAt_run defaultPeriod s hl ins t).clockNs_le (hwrap t ht')
          exact BitVec.le_trans (ih (by omega)) hstep
  | master =>
      constructor
      · intro hmono
        by_contra hno
        have hN : 323 ≤ N := by
          by_contra hlt
          exact hno (Or.inr (by omega))
        have hback := hmono 322 323 (by omega) hN
        rw [BitVec.le_def, clockNs_master s hl ins (by decide),
          clockNs_master s hl ins (by decide)] at hback
        exact absurd hback (by decide)
      · rintro (hmode | hN) t₁ t₂ h12 ht
        · cases hmode
        · rw [BitVec.le_def, clockNs_master s hl ins (by omega),
            clockNs_master s hl ins (by omega)]
          omega

/-- A master's clock at the carry: 1288 ns, then 1000 ns. -/
theorem clock_runs_backwards :
    ¬clockNs (afterRelease .master defaultPeriod powerUp [false, false, false, false]
          (fun _ => false) 322)
      ≤ clockNs (afterRelease .master defaultPeriod powerUp [false, false, false, false]
          (fun _ => false) 323) := by
  rw [BitVec.le_def, clockNs_master powerUp (by decide) _ (by decide),
    clockNs_master powerUp (by decide) _ (by decide)]
  decide

theorem clock_monotone_iff_slave :
    clockNs (afterRelease .slave defaultPeriod powerUp [true, true, true, true] (fun _ => true) 1)
      ≤ clockNs (afterRelease .slave defaultPeriod powerUp [true, true, true, true]
        (fun _ => true) 2) :=
  (clock_monotone_iff .slave powerUp (by decide) (fun _ => true) 2
    (by unfold Wraps; decide)).mpr (Or.inl rfl) 1 2 (by decide) (by decide)

end ClkSyncPulse

end P2pInspection
