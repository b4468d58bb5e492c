import P2pInspection.Clocked

/-!
# `clk_sync_pulse`: the registers and their edge

`clk_sync_pulse_regs` with the enables its parent computes, as one circuit on
`axis_aclk`. `edge` is one clock edge; every non-blocking assignment reads the
registers before it. The AXI-Lite side writes no register here (both of its
`always_ff` blocks are commented out in the source), so it is left out.

`settled` is the state a held reset leads to: the synchroniser stages and the
registered period match have no reset of their own, and are flushed by the
fourth edge (`reset_settles`).
-/

namespace P2pInspection

inductive Mode where
  | slave
  | master
deriving Repr, DecidableEq

def Mode.bit : Mode → BitVec 32
  | .slave => 0#32
  | .master => 1#32

namespace ClkSyncPulse

/-- The registers of `clk_sync_pulse_regs` on `axis_aclk`. -/
structure Regs where
  regMasterMode : Mode
  regSyncPeriod : BitVec 32
  regNbSync : BitVec 32
  regCurrTick : BitVec 32
  regSyncPeriodMeta : BitVec 32
  regSyncPeriodSync : BitVec 32
  regMasterModeMeta : BitVec 32
  regMasterModeSync : BitVec 32
  masterSyncPeriodDetectR : Bool
deriving Repr, DecidableEq

def defaultPeriod : BitVec 32 := 322#32

/-! ## Combinational outputs -/

/-- `master_mode_o`: the 32-bit register on a one-bit port. -/
def masterModeO (s : Regs) : Bool := s.regMasterModeSync.getLsbD 0

def incrNbSyncW (s : Regs) (syncPulseI : Bool) : Bool := !masterModeO s && syncPulseI

def incrCurrTickW (s : Regs) (syncPulseI : Bool) : Bool :=
  masterModeO s || incrNbSyncW s syncPulseI

def syncPeriodDetectW (s : Regs) (syncPulseI : Bool) : Bool :=
  s.masterSyncPeriodDetectR && incrCurrTickW s syncPulseI

def syncPulseO (s : Regs) (syncPulseI : Bool) : Bool :=
  masterModeO s && syncPeriodDetectW s syncPulseI

/-! ## One edge of `axis_aclk` -/

def nextNbSync (aresetn : Bool) (s : Regs) (syncPulseI : Bool) : BitVec 32 :=
  if !aresetn then 0#32
  else if incrNbSyncW s syncPulseI || syncPeriodDetectW s syncPulseI then s.regNbSync + 1#32
  else s.regNbSync

/-- The manual reset comes before the increment, and the period match overrides it. -/
def nextCurrTick (aresetn : Bool) (s : Regs) (syncPulseI : Bool) : BitVec 32 :=
  if !aresetn then 0#32
  else if incrNbSyncW s syncPulseI then 0#32
  else if incrCurrTickW s syncPulseI then
    if s.masterSyncPeriodDetectR then 0#32 else s.regCurrTick + 1#32
  else s.regCurrTick

/-- An edge with `DEFAULT_MODE = mode` and `DEFAULT_PERIOD = period`. -/
def edge (mode : Mode) (period : BitVec 32) (aresetn : Bool) (s : Regs) (syncPulseI : Bool) :
    Regs where
  regMasterMode := if !aresetn then mode else s.regMasterMode
  regSyncPeriod := if !aresetn then period - 1#32 else s.regSyncPeriod
  regNbSync := nextNbSync aresetn s syncPulseI
  regCurrTick := nextCurrTick aresetn s syncPulseI
  regSyncPeriodMeta := s.regSyncPeriod
  regSyncPeriodSync := s.regSyncPeriodMeta
  regMasterModeMeta := Mode.bit s.regMasterMode
  regMasterModeSync := s.regMasterModeMeta
  masterSyncPeriodDetectR :=
    s.regMasterModeSync != 0#32 && s.regCurrTick ^^^ s.regSyncPeriodSync == 0#32

/-! ## Reset -/

/-- The registers once a reset has been held for four edges. -/
def settled (mode : Mode) (period : BitVec 32) : Regs where
  regMasterMode := mode
  regSyncPeriod := period - 1#32
  regNbSync := 0#32
  regCurrTick := 0#32
  regSyncPeriodMeta := period - 1#32
  regSyncPeriodSync := period - 1#32
  regMasterModeMeta := Mode.bit mode
  regMasterModeSync := Mode.bit mode
  masterSyncPeriodDetectR := Mode.bit mode != 0#32 && 0#32 ^^^ (period - 1#32) == 0#32

theorem settled_fixed (mode : Mode) (period : BitVec 32) (i : Bool) :
    edge mode period false (settled mode period) i = settled mode period := rfl

/-- Whatever the registers held and the input did, four edges with the reset
low flush every stage: modes and period at the first, the two synchroniser
stages at the second and third, the registered match at the fourth. -/
theorem reset_settles {mode : Mode} {period : BitVec 32} (s : Regs) {l : List Bool}
    (hl : 4 ≤ l.length) : l.foldl (edge mode period false) s = settled mode period := by
  refine Clocked.foldl_settles (k := 4) (settled_fixed mode period) ?_
  match l, hl with
  | _ :: _ :: _ :: _ :: _, _ => rfl

/-- The registers `n` edges after the release of a reset that was held for the
edges of `l`, from any contents `s` before it. -/
def afterRelease (mode : Mode) (period : BitVec 32) (s : Regs) (l : List Bool)
    (ins : Nat → Bool) (n : Nat) : Regs :=
  Clocked.stateAt (edge mode period true) (l.foldl (edge mode period false) s) ins n

theorem afterRelease_eq {mode : Mode} {period : BitVec 32} (s : Regs) {l : List Bool}
    (hl : 4 ≤ l.length) (ins : Nat → Bool) (n : Nat) :
    afterRelease mode period s l ins n
      = Clocked.stateAt (edge mode period true) (settled mode period) ins n := by
  rw [afterRelease, reset_settles s hl]

/-! ## Mode and period after the release -/

/-- No edge with the reset released changes mode or period, and every
synchroniser stage shows them. -/
structure Steady (mode : Mode) (period : BitVec 32) (s : Regs) : Prop where
  masterMode : s.regMasterMode = mode
  modeMeta : s.regMasterModeMeta = mode.bit
  modeSync : s.regMasterModeSync = mode.bit
  syncPeriod : s.regSyncPeriod = period - 1#32
  periodMeta : s.regSyncPeriodMeta = period - 1#32
  periodSync : s.regSyncPeriodSync = period - 1#32

theorem steady_settled (mode : Mode) (period : BitVec 32) :
    Steady mode period (settled mode period) := ⟨rfl, rfl, rfl, rfl, rfl, rfl⟩

theorem Steady.edge {mode : Mode} {period : BitVec 32} {s : Regs} (h : Steady mode period s)
    (i : Bool) : Steady mode period (edge mode period true s i) :=
  ⟨h.masterMode, congrArg Mode.bit h.masterMode, h.modeMeta, h.syncPeriod, h.syncPeriod,
    h.periodMeta⟩

theorem Steady.masterModeO {mode : Mode} {period : BitVec 32} {s : Regs}
    (h : Steady mode period s) : masterModeO s = decide (mode = .master) := by
  rw [ClkSyncPulse.masterModeO, h.modeSync]
  cases mode <;> rfl

end ClkSyncPulse

end P2pInspection
