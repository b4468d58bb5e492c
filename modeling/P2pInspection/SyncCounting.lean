import P2pInspection.SyncTimeBase

/-!
# Counting syncs

What `clk_sync_pulse` counts after a reset, for any period and any input. In
either mode `nb_sync_o` counts the pulses of that mode (`sync_events_counted`),
and a master does not see its input at all. The tick counter of a slave is
another matter: its increment is enabled by the pulse that resets it, so it
never leaves zero (`tickCounter_iff`).
-/

namespace P2pInspection

namespace ClkSyncPulse

/-- `nb_sync_o`, `curr_tick_o` and `sync_pulse_o`. -/
def outputs (s : Regs) (syncPulseI : Bool) : BitVec 32 × BitVec 32 × Bool :=
  (s.regNbSync, s.regCurrTick, syncPulseO s syncPulseI)

/-! ## Reset -/

/-- Two copies held in reset for four edges agree in every register, and from
then on in every output, further resets included: an edge is `(aresetn, sync_pulse_i)`. -/
theorem reset_forgets (mode : Mode) (period : BitVec 32) (s s' : Regs) {l l' : List Bool}
    (hl : 4 ≤ l.length) (hl' : 4 ≤ l'.length) :
    l.foldl (edge mode period false) s = l'.foldl (edge mode period false) s'
      ∧ ∀ (ins : Nat → Bool × Bool) (n : Nat),
        outputs (Clocked.stateAt (fun s i => edge mode period i.1 s i.2)
            (l.foldl (edge mode period false) s) ins n) (ins n).2
          = outputs (Clocked.stateAt (fun s i => edge mode period i.1 s i.2)
            (l'.foldl (edge mode period false) s') ins n) (ins n).2 := by
  have hsame : l.foldl (edge mode period false) s = l'.foldl (edge mode period false) s' :=
    (reset_settles s hl).trans (reset_settles s' hl').symm
  exact ⟨hsame, fun ins n => by rw [hsame]⟩

/-- A power-up state and a running master, reset for four and for five edges. -/
theorem reset_forgets_powerUp :
    outputs (Clocked.stateAt (fun s i => edge .master 5#32 i.1 s i.2)
        ([true, false, true, false].foldl (edge .master 5#32 false) powerUp)
        (fun k => (k != 7, true)) 12) true
      = outputs (Clocked.stateAt (fun s i => edge .master 5#32 i.1 s i.2)
        ([false, false, false, false, true].foldl (edge .master 5#32 false)
          { powerUp with regMasterModeSync := 1#32, regCurrTick := 9#32 })
        (fun k => (k != 7, true)) 12) true :=
  (reset_forgets .master 5#32 powerUp
    { powerUp with regMasterModeSync := 1#32, regCurrTick := 9#32 } (by decide) (by decide)).2
    (fun k => (k != 7, true)) 12

/-! ## Number of syncs -/

/-- In how many of the first `n` cycles the signal was high. -/
def countHigh (signal : Nat → Bool) (n : Nat) : Nat := (List.range n).countP signal

theorem countHigh_succ (signal : Nat → Bool) (n : Nat) :
    countHigh signal (n + 1) = countHigh signal n + if signal n then 1 else 0 := by
  rw [countHigh, List.range_succ, List.countP_append, List.countP_singleton]
  rfl

theorem ofNat_countHigh_succ (signal : Nat → Bool) (n : Nat) :
    BitVec.ofNat 32 (countHigh signal (n + 1))
      = if signal n then BitVec.ofNat 32 (countHigh signal n) + 1#32
        else BitVec.ofNat 32 (countHigh signal n) := by
  rw [countHigh_succ, BitVec.ofNat_add]
  cases signal n <;> simp

theorem SlaveAt.nbSync_edge {period : BitVec 32} {s : Regs} (h : SlaveAt period s) (i : Bool) :
    (ClkSyncPulse.edge .slave period true s i).regNbSync
      = if i then s.regNbSync + 1#32 else s.regNbSync := by
  obtain ⟨hnb, -, hdet⟩ := h.enables i
  simp only [ClkSyncPulse.edge, nextNbSync, hnb, hdet, Bool.or_false, Bool.not_true,
    Bool.false_eq_true, if_false]

theorem SlaveAt.syncPulseO {period : BitVec 32} {s : Regs} (h : SlaveAt period s) (i : Bool) :
    syncPulseO s i = false := by
  rw [ClkSyncPulse.syncPulseO, (h.enables i).2.2, Bool.and_false]

section Runs

variable {mode : Mode} {period : BitVec 32} (s : Regs) {l : List Bool}

theorem afterRelease_zero (hl : 4 ≤ l.length) (ins : Nat → Bool) :
    afterRelease mode period s l ins 0 = settled mode period := reset_settles s hl

theorem afterRelease_succ (ins : Nat → Bool) (n : Nat) :
    afterRelease mode period s l ins (n + 1)
      = edge mode period true (afterRelease mode period s l ins n) (ins n) := rfl

theorem slave_nbSync (hl : 4 ≤ l.length) (ins : Nat → Bool) (n : Nat) :
    (afterRelease .slave period s l ins n).regNbSync = BitVec.ofNat 32 (countHigh ins n) := by
  induction n with
  | zero => rw [afterRelease_zero s hl]; rfl
  | succ n ih =>
      rw [afterRelease_succ, (slaveAt_run period s hl ins n).nbSync_edge, ih,
        ofNat_countHigh_succ]

theorem steady_run (hl : 4 ≤ l.length) (ins : Nat → Bool) (n : Nat) :
    Steady mode period (afterRelease mode period s l ins n) := by
  induction n with
  | zero => rw [afterRelease_zero s hl]; exact steady_settled mode period
  | succ n ih => exact ih.edge (ins n)

end Runs

/-! ## A master and its input -/

theorem Steady.master_nbSync_edge {period : BitVec 32} {s : Regs} (h : Steady .master period s)
    (i : Bool) : (ClkSyncPulse.edge .master period true s i).regNbSync
      = if ClkSyncPulse.syncPulseO s i then s.regNbSync + 1#32 else s.regNbSync := by
  obtain ⟨hnb, -, hdet, hpulse⟩ := h.master_enables i
  simp only [ClkSyncPulse.edge, nextNbSync, hnb, hdet, hpulse, Bool.false_or, Bool.not_true,
    Bool.false_eq_true, if_false]

/-- No register of a master depends on `sync_pulse_i`. -/
theorem Steady.master_edge_eq {period : BitVec 32} {s : Regs} (h : Steady .master period s)
    (i i' : Bool) : ClkSyncPulse.edge .master period true s i
      = ClkSyncPulse.edge .master period true s i' := by
  obtain ⟨hnb, htick, hdet, -⟩ := h.master_enables i
  obtain ⟨hnb', htick', hdet', -⟩ := h.master_enables i'
  simp only [ClkSyncPulse.edge, nextNbSync, nextCurrTick, hnb, hnb', htick, htick', hdet, hdet']

theorem master_run_eq {period : BitVec 32} (s : Regs) {l l' : List Bool} (hl : 4 ≤ l.length)
    (hl' : 4 ≤ l'.length) (ins ins' : Nat → Bool) (n : Nat) :
    afterRelease .master period s l ins n = afterRelease .master period s l' ins' n := by
  induction n with
  | zero => rw [afterRelease_zero s hl, afterRelease_zero s hl']
  | succ n ih =>
      rw [afterRelease_succ, afterRelease_succ, ← ih]
      exact (steady_run s hl ins n).master_edge_eq _ _

theorem Steady.master_outputs_eq {period : BitVec 32} {s : Regs} (h : Steady .master period s)
    (i i' : Bool) : outputs s i = outputs s i' := by
  rw [outputs, outputs, (h.master_enables i).2.2.2, (h.master_enables i').2.2.2]

theorem master_nbSync {period : BitVec 32} (s : Regs) {l : List Bool} (hl : 4 ≤ l.length)
    (ins : Nat → Bool) (n : Nat) :
    (afterRelease .master period s l ins n).regNbSync
      = BitVec.ofNat 32 (countHigh
        (fun k => syncPulseO (afterRelease .master period s l ins k) (ins k)) n) := by
  induction n with
  | zero => rw [afterRelease_zero s hl]; rfl
  | succ n ih =>
      rw [afterRelease_succ, (steady_run s hl ins n).master_nbSync_edge, ih,
        ofNat_countHigh_succ]

/-- After a reset of four edges a slave counts the pulses it receives and sends
none; a master counts the pulses it sends, and its outputs are the same for
every input, also for every input during the reset. -/
theorem sync_events_counted (period : BitVec 32) (s : Regs) {l : List Bool} (hl : 4 ≤ l.length)
    (ins : Nat → Bool) :
    (∀ n, (afterRelease .slave period s l ins n).regNbSync = BitVec.ofNat 32 (countHigh ins n)
        ∧ syncPulseO (afterRelease .slave period s l ins n) (ins n) = false)
      ∧ (∀ n, (afterRelease .master period s l ins n).regNbSync
        = BitVec.ofNat 32 (countHigh
          (fun k => syncPulseO (afterRelease .master period s l ins k) (ins k)) n))
      ∧ ∀ (l' : List Bool) (ins' : Nat → Bool), 4 ≤ l'.length → ∀ n,
        outputs (afterRelease .master period s l ins n) (ins n)
          = outputs (afterRelease .master period s l' ins' n) (ins' n) := by
  refine ⟨fun n => ⟨slave_nbSync s hl ins n, ?_⟩, master_nbSync s hl ins,
    fun l' ins' hl' n => ?_⟩
  · exact (slaveAt_run period s hl ins n).syncPulseO (ins n)
  · rw [master_run_eq s hl hl' ins ins' n]
    exact (steady_run s hl' ins' n).master_outputs_eq _ _

theorem sync_events_counted_powerUp :
    (afterRelease .slave 322#32 powerUp [true, true, false, false] (fun _ => true) 3).regNbSync
      = BitVec.ofNat 32 (countHigh (fun _ => true) 3) :=
  ((sync_events_counted 322#32 powerUp (l := [true, true, false, false]) (by decide)
    (fun _ => true)).1 3).1

/-! ## The tick counter of a slave -/

/-- Edges since the last one at which the signal was high, or since the start. -/
def ticksSince (signal : Nat → Bool) : Nat → Nat
  | 0 => 0
  | n + 1 => if signal n then 0 else ticksSince signal n + 1

/-- What the register map promises of a slave for `N` edges: `curr_tick_o` is the
number of ticks since the last reset of the count, and different cycles without
a pulse are told apart by their counters. -/
structure TickCounter (period : BitVec 32) (s : Regs) (l : List Bool) (ins : Nat → Bool)
    (N : Nat) : Prop where
  currTick : ∀ n ≤ N, (afterRelease .slave period s l ins n).regCurrTick
    = BitVec.ofNat 32 (ticksSince ins n)
  distinct : ∀ m n, m < n → n ≤ N → ins m = false → ins n = false →
    ((afterRelease .slave period s l ins m).regNbSync,
        (afterRelease .slave period s l ins m).regCurrTick)
      ≠ ((afterRelease .slave period s l ins n).regNbSync,
        (afterRelease .slave period s l ins n).regCurrTick)

/-- The counter is right only while there is nothing to count: every edge of the
run has a pulse. -/
theorem tickCounter_iff (period : BitVec 32) (s : Regs) {l : List Bool} (hl : 4 ≤ l.length)
    (ins : Nat → Bool) (N : Nat) :
    TickCounter period s l ins N ↔ ∀ k < N, ins k = true := by
  have hzero : ∀ n, (afterRelease .slave period s l ins n).regCurrTick = 0#32 :=
    fun n => (slaveAt_run period s hl ins n).currTick
  constructor
  · intro h k hk
    by_contra hlow
    -- one tick passes at edge `k`, and the counter stays where it was
    have hbefore := (hzero k).symm.trans (h.currTick k (by omega))
    have hafter := (hzero (k + 1)).symm.trans (h.currTick (k + 1) (by omega))
    rw [ticksSince, if_neg hlow, BitVec.ofNat_add, ← hbefore] at hafter
    exact absurd hafter (by decide)
  · intro hall
    refine ⟨fun n hn => ?_, fun m n hmn hn hm => ?_⟩
    · rw [hzero]
      cases n with
      | zero => rfl
      | succ n => rw [ticksSince, if_pos (hall n (by omega))]
    · rw [hall m (by omega)] at hm
      cases hm

/-- One edge without a pulse: the counter still shows 0. -/
theorem tickCounter_stays_zero :
    ¬TickCounter defaultPeriod powerUp [false, false, false, false] (fun _ => false) 1 := by
  intro h
  exact absurd (h.currTick 1 (by decide)) (by decide)

theorem tickCounter_iff_everyEdge :
    TickCounter defaultPeriod powerUp [false, false, false, false] (fun _ => true) 9 :=
  (tickCounter_iff defaultPeriod powerUp (by decide) (fun _ => true) 9).mpr fun _ _ => rfl

end ClkSyncPulse

end P2pInspection
