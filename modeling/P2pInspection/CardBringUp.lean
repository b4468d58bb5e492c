import P2pInspection.GuardedCalls
import P2pInspection.OnicRegs

/-!
# Bringing a card up

`init_hardware` gives each of the two functions of the card its queue, and then
resets, checks and enables one CMAC after the other, up to the first one whose
core has another version. Each request to reset a CMAC is followed by polls of
the shell's status, for which the source has no bound; `tries` is the number of
reads that each of the loops gets here.

Whatever the device answers, every register is accessed through one port and
BAR, the version of a CMAC is read only where that CMAC was seen out of reset
behind the last request to reset it, and a register of it is written only where
it was so and its version was the right one when it was read last
(`initHardware_permitted`). With a device that settles, the CMACs in front of
the first one of another version are set up, all others are left alone, and the
number logged is theirs (`initHardware_settled`).
-/

namespace P2pInspection

open CallTrace

def nbCmac : Nat := 2
def onicCmacCoreVersion : BitVec 32 := 0x00000301#32
def cmacResetWaitMs : Nat := 1

/-! ## The registers -/

def syscfgOffset : BitVec 32 := 0x0#32
def syscfgOffsetSystemReset : BitVec 32 := syscfgOffset + 0x4#32
def syscfgOffsetShellReset : BitVec 32 := syscfgOffset + 0xC#32
def syscfgOffsetShellStatus : BitVec 32 := syscfgOffset + 0x10#32

def cmacOffsetConfTx1 (i : Int) : BitVec 32 := cmacOffset i + 0x000C#32
def cmacOffsetConfRx1 (i : Int) : BitVec 32 := cmacOffset i + 0x0014#32
def cmacOffsetCoreVersion (i : Int) : BitVec 32 := cmacOffset i + 0x0024#32
def cmacOffsetConfTxFcCtrl1 (i : Int) : BitVec 32 := cmacOffset i + 0x0030#32
def cmacOffsetConfTxFcRfrh1 (i : Int) : BitVec 32 := cmacOffset i + 0x0034#32
def cmacOffsetConfTxFcRfrh2 (i : Int) : BitVec 32 := cmacOffset i + 0x0038#32
def cmacOffsetConfTxFcRfrh3 (i : Int) : BitVec 32 := cmacOffset i + 0x003C#32
def cmacOffsetConfTxFcRfrh4 (i : Int) : BitVec 32 := cmacOffset i + 0x0040#32
def cmacOffsetConfTxFcRfrh5 (i : Int) : BitVec 32 := cmacOffset i + 0x0044#32
def cmacOffsetConfTxFcQnta1 (i : Int) : BitVec 32 := cmacOffset i + 0x0048#32
def cmacOffsetConfTxFcQnta2 (i : Int) : BitVec 32 := cmacOffset i + 0x004C#32
def cmacOffsetConfTxFcQnta3 (i : Int) : BitVec 32 := cmacOffset i + 0x0050#32
def cmacOffsetConfTxFcQnta4 (i : Int) : BitVec 32 := cmacOffset i + 0x0054#32
def cmacOffsetConfTxFcQnta5 (i : Int) : BitVec 32 := cmacOffset i + 0x0058#32
def cmacOffsetConfRxFcCtrl1 (i : Int) : BitVec 32 := cmacOffset i + 0x0084#32
def cmacOffsetConfRxFcCtrl2 (i : Int) : BitVec 32 := cmacOffset i + 0x0088#32
def cmacOffsetRsfecConfIndCorrection (i : Int) : BitVec 32 := cmacOffset i + 0x1000#32
def cmacOffsetRsfecConfEnable (i : Int) : BitVec 32 := cmacOffset i + 0x107C#32

/-! ## The programs -/

/-- What the members of `Onic` do outside the object: on their ports, on the
registers of the card, and on the console. -/
inductive CardCall where
  | ringCreate (name : String) (size : Nat) (socketId : Int) (flags : Nat)
  | port (c : PortCall)
  | reg (c : RegCall)
  | delayMs (ms : Nat)
  | sleep (s : Nat)
  | print (text : String)
deriving Repr, DecidableEq

/-- What a read returns behind the calls made so far. -/
structure Device where
  answer : List CardCall → Int → Int → BitVec 32 → BitVec 32

def Device.bus (dev : Device) : Bus CardCall := ⟨.reg, dev.answer⟩

namespace CardBringUp

variable {ε σ : Type} (stuck : ε) (tries : Nat) (dev : Device) (o : Onic) (rsFec : Int)

/-- `while ((read_reg(SYSCFG_OFFSET_SHELL_STATUS) & mask) != mask) wait;`. -/
def awaitStatus (mask : BitVec 32) (wait : Prog ε σ CardCall Unit) : Prog ε σ CardCall Unit :=
  pollUntil stuck (o.readReg dev.bus syscfgOffsetShellStatus) (fun val => val &&& mask = mask)
    wait tries

def rteDelayMs (ms : Nat) : Prog ε σ CardCall Unit := call (.delayMs ms)

def onicLog (text : String) : Prog ε σ CardCall Unit := call (.print ("ONIC: " ++ text))

def printf (text : String) : Prog ε σ CardCall Unit := call (.print text)

def enableCmac (cmacId : Int) : Prog ε σ CardCall Int := do
  if cmacId = 0 then
    o.writeReg dev.bus syscfgOffsetShellReset 0x10#32
    awaitStatus stuck tries dev o 0x10#32 (rteDelayMs cmacResetWaitMs)
  else
    o.writeReg dev.bus syscfgOffsetShellReset 0x100#32
    awaitStatus stuck tries dev o 0x100#32 (rteDelayMs cmacResetWaitMs)
  if rsFec ≠ 0 then
    o.writeReg dev.bus (cmacOffsetRsfecConfEnable cmacId) 0x3#32
    o.writeReg dev.bus (cmacOffsetRsfecConfIndCorrection cmacId) 0x7#32
  o.writeReg dev.bus (cmacOffsetConfRx1 cmacId) 0x1#32
  o.writeReg dev.bus (cmacOffsetConfTx1 cmacId) 0x10#32
  o.writeReg dev.bus (cmacOffsetConfTx1 cmacId) 0x1#32
  o.writeReg dev.bus (cmacOffsetConfRxFcCtrl1 cmacId) 0x00003DFF#32
  o.writeReg dev.bus (cmacOffsetConfRxFcCtrl2 cmacId) 0x0001C631#32
  o.writeReg dev.bus (cmacOffsetConfTxFcQnta1 cmacId) 0xFFFFFFFF#32
  o.writeReg dev.bus (cmacOffsetConfTxFcQnta2 cmacId) 0xFFFFFFFF#32
  o.writeReg dev.bus (cmacOffsetConfTxFcQnta3 cmacId) 0xFFFFFFFF#32
  o.writeReg dev.bus (cmacOffsetConfTxFcQnta4 cmacId) 0xFFFFFFFF#32
  o.writeReg dev.bus (cmacOffsetConfTxFcQnta5 cmacId) 0x0000FFFF#32
  o.writeReg dev.bus (cmacOffsetConfTxFcRfrh1 cmacId) 0xFFFFFFFF#32
  o.writeReg dev.bus (cmacOffsetConfTxFcRfrh2 cmacId) 0xFFFFFFFF#32
  o.writeReg dev.bus (cmacOffsetConfTxFcRfrh3 cmacId) 0xFFFFFFFF#32
  o.writeReg dev.bus (cmacOffsetConfTxFcRfrh4 cmacId) 0xFFFFFFFF#32
  o.writeReg dev.bus (cmacOffsetConfTxFcRfrh5 cmacId) 0x0000FFFF#32
  o.writeReg dev.bus (cmacOffsetConfTxFcCtrl1 cmacId) 0x000001FF#32
  printf s!"Successfully setup cmac id: {cmacId}\n"
  return 0

/-- `0x10 << (4*i)`. -/
def shellIdx (i : Nat) : BitVec 32 := 0x10#32 <<< (4 * i)

/-- The loop of `init_hardware` from `i` on, with `left` rounds to go: the `i`
it ends with. -/
def enableFrom (i : Nat) : Nat → Prog ε σ CardCall Nat
  | 0 => return i
  | left + 1 => do
      o.writeReg dev.bus syscfgOffsetShellReset (shellIdx i)
      awaitStatus stuck tries dev o (shellIdx i) (rteDelayMs cmacResetWaitMs)
      let val ← o.readReg dev.bus (cmacOffsetCoreVersion i)
      if val ≠ onicCmacCoreVersion then return i
      else
        let _ ← enableCmac stuck tries dev o rsFec i
        enableFrom (i + 1) left

def initHardware : Prog ε σ CardCall Int := do
  o.writeReg dev.bus 0x1000#32 0x1#32
  o.writeReg dev.bus 0x2000#32 0x00010001#32
  awaitStatus stuck tries dev o 0x10#32 (pure ())
  let i ← enableFrom stuck tries dev o rsFec 0 nbCmac
  onicLog s!"Number of CMAC instances enabled = {i}\n"
  return 0

/-- The registers of a CMAC and the values that they are set to. -/
def cmacConfig (cmacId : Int) : List (BitVec 32 × BitVec 32) :=
  (if rsFec ≠ 0 then [(cmacOffsetRsfecConfEnable cmacId, 0x3#32),
      (cmacOffsetRsfecConfIndCorrection cmacId, 0x7#32)] else [])
    ++ [(cmacOffsetConfRx1 cmacId, 0x1#32),
      (cmacOffsetConfTx1 cmacId, 0x10#32),
      (cmacOffsetConfTx1 cmacId, 0x1#32),
      (cmacOffsetConfRxFcCtrl1 cmacId, 0x00003DFF#32),
      (cmacOffsetConfRxFcCtrl2 cmacId, 0x0001C631#32),
      (cmacOffsetConfTxFcQnta1 cmacId, 0xFFFFFFFF#32),
      (cmacOffsetConfTxFcQnta2 cmacId, 0xFFFFFFFF#32),
      (cmacOffsetConfTxFcQnta3 cmacId, 0xFFFFFFFF#32),
      (cmacOffsetConfTxFcQnta4 cmacId, 0xFFFFFFFF#32),
      (cmacOffsetConfTxFcQnta5 cmacId, 0x0000FFFF#32),
      (cmacOffsetConfTxFcRfrh1 cmacId, 0xFFFFFFFF#32),
      (cmacOffsetConfTxFcRfrh2 cmacId, 0xFFFFFFFF#32),
      (cmacOffsetConfTxFcRfrh3 cmacId, 0xFFFFFFFF#32),
      (cmacOffsetConfTxFcRfrh4 cmacId, 0xFFFFFFFF#32),
      (cmacOffsetConfTxFcRfrh5 cmacId, 0x0000FFFF#32),
      (cmacOffsetConfTxFcCtrl1 cmacId, 0x000001FF#32)]

variable {i : Nat}

/-- Behind the reset, enabling a CMAC is a list of writes; the two masks of the
source are those of `init_hardware`. -/
theorem enableCmac_eq (hi : i < nbCmac) :
    (enableCmac stuck tries dev o rsFec i : Prog ε σ CardCall Int) = (do
      o.writeReg dev.bus syscfgOffsetShellReset (shellIdx i)
      awaitStatus stuck tries dev o (shellIdx i) (rteDelayMs cmacResetWaitMs)
      (cmacConfig rsFec i).forM fun w => o.writeReg dev.bus w.1 w.2
      printf s!"Successfully setup cmac id: {(i : Int)}\n"
      return 0) := by
  have hmasks : (enableCmac stuck tries dev o rsFec i : Prog ε σ CardCall Int) = (do
      o.writeReg dev.bus syscfgOffsetShellReset (shellIdx i)
      awaitStatus stuck tries dev o (shellIdx i) (rteDelayMs cmacResetWaitMs)
      if rsFec ≠ 0 then
        o.writeReg dev.bus (cmacOffsetRsfecConfEnable i) 0x3#32
        o.writeReg dev.bus (cmacOffsetRsfecConfIndCorrection i) 0x7#32
      (cmacConfig 0 i).forM fun w => o.writeReg dev.bus w.1 w.2
      printf s!"Successfully setup cmac id: {(i : Int)}\n"
      return 0) := by
    match i, hi with
    | 0, _ => rfl
    | 1, _ => rfl
  rw [hmasks]
  by_cases hfec : rsFec ≠ 0
  · have hconfig : cmacConfig rsFec i = (cmacOffsetRsfecConfEnable i, 0x3#32)
        :: (cmacOffsetRsfecConfIndCorrection i, 0x7#32) :: cmacConfig 0 i := by
      rw [cmacConfig, if_pos hfec]
      rfl
    simp only [hconfig, if_pos hfec, List.forM_eq_forM, List.forM_cons, bind_assoc]
  · have hconfig : cmacConfig rsFec i = cmacConfig 0 i := by
      rw [cmacConfig, if_neg hfec]
      rfl
    simp only [hconfig, if_neg hfec]

/-! ## What an access needs -/

/-- The registers of a CMAC, with those of its QSFP and its packet adapter. -/
def CmacWindow (i : Nat) (offset : BitVec 32) : Prop :=
  cmacOffset i ≤ offset ∧ offset < cmacOffset i + 0x4000#32

instance (i : Nat) (offset : BitVec 32) : Decidable (CmacWindow i offset) :=
  inferInstanceAs (Decidable (_ ∧ _))

def ResetsCmac (i : Nat) (c : CardCall) : Prop :=
  ∃ val, c = .reg (.write o.configPortId o.axilBarId syscfgOffsetShellReset val)
    ∧ val &&& shellIdx i ≠ 0#32

def SeenUp (i : Nat) (c : CardCall) : Prop :=
  ∃ val, c = .reg (.read o.configPortId o.axilBarId syscfgOffsetShellStatus val)
    ∧ val &&& shellIdx i = shellIdx i

/-- A reset of the CMAC was requested, and the CMAC was seen up since the last
such request. -/
def OutOfReset (i : Nat) (l : List CardCall) : Prop :=
  ∃ before c behind, l = before ++ c :: behind ∧ SeenUp o i c
    ∧ (∃ r ∈ before, ResetsCmac o i r) ∧ ∀ r ∈ behind, ¬ResetsCmac o i r

def ReadsVersion (i : Nat) (c : CardCall) : Prop :=
  ∃ port bar val, c = .reg (.read port bar (cmacOffsetCoreVersion i) val)

/-- The version of the CMAC was read out of reset, and was the right one when it
was read last. Another reset may have been requested since. -/
def VersionRead (i : Nat) (l : List CardCall) : Prop :=
  ∃ before behind, l = before
      ++ .reg (.read o.configPortId o.axilBarId (cmacOffsetCoreVersion i) onicCmacCoreVersion)
        :: behind
    ∧ OutOfReset o i before ∧ ∀ c ∈ behind, ¬ReadsVersion i c

/-- The status of the shell, and the version of a CMAC that is up. -/
def Readable (l : List CardCall) (offset : BitVec 32) : Prop :=
  offset = syscfgOffsetShellStatus
    ∨ ∃ i < nbCmac, offset = cmacOffsetCoreVersion i ∧ OutOfReset o i l

/-- The registers of the queues of the two functions, the request for a reset, and
those of a CMAC that is up and of the right version. -/
def Writable (l : List CardCall) (offset : BitVec 32) : Prop :=
  offset ∈ [0x1000#32, 0x2000#32, syscfgOffsetShellReset]
    ∨ ∃ i < nbCmac, CmacWindow i offset ∧ OutOfReset o i l ∧ VersionRead o i l

/-- A register access goes through the port and the BAR of the card. -/
def Permitted (l : List CardCall) : CardCall → Prop
  | .reg (.read port bar offset _) => port = o.configPortId ∧ bar = o.axilBarId
      ∧ Readable o l offset
  | .reg (.write port bar offset _) => port = o.configPortId ∧ bar = o.axilBarId
      ∧ Writable o l offset
  | _ => True

section Safety

variable {o rsFec} {l : List CardCall} {c : CardCall}

theorem OutOfReset.snoc (h : OutOfReset o i l) (hc : ¬ResetsCmac o i c) :
    OutOfReset o i (l ++ [c]) := by
  obtain ⟨before, up, behind, rfl, hup, hreset, hbehind⟩ := h
  refine ⟨before, up, behind ++ [c], by simp, hup, hreset, fun r hr => ?_⟩
  rcases List.mem_append.mp hr with hr | hr
  · exact hbehind r hr
  · obtain rfl := List.mem_singleton.mp hr
    exact hc

theorem VersionRead.snoc (h : VersionRead o i l) (hc : ¬ReadsVersion i c) :
    VersionRead o i (l ++ [c]) := by
  obtain ⟨before, behind, rfl, hup, hbehind⟩ := h
  refine ⟨before, behind ++ [c], by simp, hup, fun d hd => ?_⟩
  rcases List.mem_append.mp hd with hd | hd
  · exact hbehind d hd
  · obtain rfl := List.mem_singleton.mp hd
    exact hc

theorem cmac_cases (hi : i < nbCmac) : i = 0 ∨ i = 1 := by
  unfold nbCmac at hi
  omega

theorem rsfec_window (hi : i < nbCmac) : CmacWindow i (cmacOffsetRsfecConfEnable i)
    ∧ CmacWindow i (cmacOffsetRsfecConfIndCorrection i) := by
  rcases cmac_cases hi with rfl | rfl
  · decide
  · decide

theorem cmacConfig_zero_window (hi : i < nbCmac) :
    ∀ w ∈ cmacConfig 0 i, CmacWindow i w.1 := by
  have hall : (cmacConfig 0 i).all (fun w => decide (CmacWindow i w.1)) = true := by
    rcases cmac_cases hi with rfl | rfl
    · decide
    · decide
  intro w hw
  exact of_decide_eq_true (List.all_eq_true.mp hall w hw)

theorem cmacConfig_window (hi : i < nbCmac) :
    ∀ w ∈ cmacConfig rsFec i, CmacWindow i w.1 := by
  intro w hw
  rw [cmacConfig, List.mem_append] at hw
  rcases hw with hw | hw
  · split at hw
    · rcases List.mem_pair.mp hw with rfl | rfl
      · exact (rsfec_window hi).1
      · exact (rsfec_window hi).2
    · cases hw
  · exact cmacConfig_zero_window hi w hw

theorem status_not_readsVersion (hi : i < nbCmac) (port bar : Int) (val : BitVec 32) :
    ¬ReadsVersion i (.reg (.read port bar syscfgOffsetShellStatus val)) := by
  rintro ⟨port', bar', val', heq⟩
  have hoffset := (RegCall.read.inj (CardCall.reg.inj heq)).2.2.1
  rcases cmac_cases hi with rfl | rfl
  · exact absurd hoffset (by decide)
  · exact absurd hoffset (by decide)

/-- The register of the resets is in no window. -/
theorem CmacWindow.not_resets (hi : i < nbCmac) {offset val : BitVec 32}
    (h : CmacWindow i offset) :
    ¬ResetsCmac o i (.reg (.write o.configPortId o.axilBarId offset val)) := by
  rintro ⟨val', heq, -⟩
  cases heq
  rcases cmac_cases hi with rfl | rfl
  · exact absurd h (by decide)
  · exact absurd h (by decide)

variable (rsFec) {P V : List CardCall → Prop}

/-- A read is behind the calls before it. -/
theorem guarded_readReg {offset : BitVec 32} (hoffset : ∀ l, P l → Readable o l offset) :
    Guarded (Permitted o) P (o.readReg dev.bus offset : Prog ε σ CardCall (BitVec 32))
      fun val l => ∃ l', l = l' ++ [.reg (.read o.configPortId o.axilBarId offset val)] ∧ P l' := by
  refine Guarded.get.bind fun s => ?_
  refine (Guarded.call (Q := fun _ l => ∃ l', l = l' ++ [_] ∧ P l')
    (fun l hP => ⟨rfl, rfl, hoffset l hP⟩) fun l hP => ⟨l, rfl, hP⟩).bind fun _ => ?_
  exact Guarded.pure fun _ h => h

/-- The registers in front of all windows need nothing. -/
theorem guarded_setup {offset val : BitVec 32} (hP : ∀ l c, P l → P (l ++ [c]))
    (hoffset : offset ∈ [0x1000#32, 0x2000#32, syscfgOffsetShellReset]) :
    Guarded (Permitted o) P (o.writeReg dev.bus offset val : Prog ε σ CardCall Unit) fun _ => P :=
  .call (fun _ _ => ⟨rfl, rfl, Or.inl hoffset⟩) fun l h => hP l _ h

theorem guarded_request (hV : ∀ l c, ¬ReadsVersion i c → V l → V (l ++ [c])) (hi : i < nbCmac) :
    Guarded (Permitted o) V
      (o.writeReg dev.bus syscfgOffsetShellReset (shellIdx i) : Prog ε σ CardCall Unit)
      fun _ l => (∃ r ∈ l, ResetsCmac o i r) ∧ V l := by
  have hbit : shellIdx i &&& shellIdx i ≠ 0#32 := by
    rcases cmac_cases hi with rfl | rfl
    · decide
    · decide
  refine .call (fun _ _ => ⟨rfl, rfl, Or.inl (by simp)⟩) fun l h => ⟨?_, hV l _ nofun h⟩
  exact ⟨_, List.mem_append_right l (List.mem_singleton_self _), shellIdx i, rfl, hbit⟩

/-- Behind the polls the CMAC is out of reset, however often it was not. -/
theorem guarded_await (hV : ∀ l c, ¬ReadsVersion i c → V l → V (l ++ [c])) (hi : i < nbCmac) :
    Guarded (Permitted o) (fun l => (∃ r ∈ l, ResetsCmac o i r) ∧ V l)
      (awaitStatus stuck tries dev o (shellIdx i) (rteDelayMs cmacResetWaitMs) :
        Prog ε σ CardCall Unit)
      fun _ l => OutOfReset o i l ∧ V l := by
  have hread : ∀ port bar val,
      ¬ReadsVersion i (.reg (.read port bar syscfgOffsetShellStatus val)) :=
    status_not_readsVersion hi
  refine Guarded.poll (guarded_readReg dev fun _ _ => Or.inl rfl) ?done ?wait tries
  case done =>
    rintro val _ hready ⟨l, rfl, hreset, hVl⟩
    exact ⟨⟨l, _, [], rfl, ⟨val, rfl, hready⟩, hreset, nofun⟩, hV l _ (hread _ _ _) hVl⟩
  case wait =>
    intro val _
    refine .call (fun _ _ => trivial) ?_
    rintro _ ⟨l, rfl, ⟨r, hr, hreset⟩, hVl⟩
    exact ⟨⟨r, by simp [hr], hreset⟩, hV _ _ nofun (hV l _ (hread _ _ _) hVl)⟩

theorem guarded_enableCmac (hi : i < nbCmac) :
    Guarded (Permitted o) (VersionRead o i)
      (enableCmac stuck tries dev o rsFec i : Prog ε σ CardCall Int) fun _ _ => True := by
  have hsnoc : ∀ l c, ¬ReadsVersion i c → VersionRead o i l → VersionRead o i (l ++ [c]) :=
    fun _ _ hc h => h.snoc hc
  have hconfig : Guarded (Permitted o) (fun l => OutOfReset o i l ∧ VersionRead o i l)
      ((cmacConfig rsFec i).forM fun w => o.writeReg dev.bus w.1 w.2 : Prog ε σ CardCall Unit)
      fun _ l => OutOfReset o i l ∧ VersionRead o i l := by
    refine Guarded.forM _ fun w hw => ?_
    have hwin := cmacConfig_window hi w hw
    refine .call (fun l h => ⟨rfl, rfl, Or.inr ⟨i, hi, hwin, h⟩⟩) fun l h => ?_
    exact ⟨h.1.snoc (hwin.not_resets hi), h.2.snoc nofun⟩
  rw [enableCmac_eq stuck tries dev o rsFec hi]
  refine (guarded_request dev hsnoc hi).bind fun _ => ?_
  refine (guarded_await stuck tries dev hsnoc hi).bind fun _ => hconfig.bind fun _ => ?_
  exact Guarded.bind (.call (Q := fun _ _ => True) (fun _ _ => trivial) fun _ _ => trivial)
    fun _ => .pure fun _ _ => trivial

theorem guarded_enableFrom {left : Nat} (hle : i + left ≤ nbCmac) :
    Guarded (Permitted o) (fun _ => True)
      (enableFrom stuck tries dev o rsFec i left : Prog ε σ CardCall Nat) fun _ _ => True := by
  induction left generalizing i with
  | zero => exact Guarded.pure fun _ _ => trivial
  | succ left ih =>
      have hi : i < nbCmac := by omega
      have htrue : ∀ (l : List CardCall) (c : CardCall), ¬ReadsVersion i c → True → True :=
        fun _ _ _ h => h
      refine (guarded_request dev htrue hi).bind fun _ => ?_
      refine (guarded_await stuck tries dev htrue hi).bind fun _ => ?_
      refine (guarded_readReg dev fun _ h => Or.inr ⟨i, hi, rfl, h.1⟩).bind fun val => ?_
      refine .ite (fun _ => .pure fun _ _ => trivial) fun hval => ?_
      refine Guarded.bind ?enable fun _ => ih (by omega)
      refine (guarded_enableCmac stuck tries dev rsFec hi).conseq ?_ fun _ _ h => h
      rintro _ ⟨l, rfl, hup, -⟩
      rw [ne_eq, not_not] at hval
      exact ⟨l, [], by rw [hval], hup, List.forall_mem_nil _⟩

/-- Whatever the device answers, and however often its status is read. -/
theorem initHardware_permitted (s : Logged σ CardCall) : ∃ new,
    (after ((initHardware stuck tries dev o rsFec : Prog ε σ CardCall Int) s)).calls
      = s.calls ++ new ∧ Justified (Permitted o) new := by
  have hguarded : Guarded (Permitted o) (fun _ => True)
      (initHardware stuck tries dev o rsFec : Prog ε σ CardCall Int) fun _ _ => True := by
    have htrue : ∀ (l : List CardCall) (c : CardCall), True → True := fun _ _ h => h
    refine (guarded_setup dev htrue (by simp)).bind fun _ => ?_
    refine (guarded_setup dev htrue (by simp)).bind fun _ => ?_
    refine Guarded.bind ?await fun _ => (guarded_enableFrom stuck tries dev rsFec
      (Nat.le_of_eq (Nat.zero_add _))).bind fun i => ?_
    case await =>
      exact Guarded.poll (guarded_readReg dev fun _ _ => Or.inl rfl) (fun _ _ _ _ => trivial)
        (fun _ _ => .pure fun _ _ => trivial) tries
    exact Guarded.bind (.call (Q := fun _ _ => True) (fun _ _ => trivial) fun _ _ => trivial)
      fun _ => .pure fun _ _ => trivial
  exact hguarded.justified trivial s

end Safety

/-! ## A device that settles -/

/-- The reads of the status since a reset was last requested. -/
def statusReads (l : List CardCall) : Nat :=
  l.foldl (fun n c => match c with
    | .reg (.write port bar offset _) =>
        if port = o.configPortId ∧ bar = o.axilBarId ∧ offset = syscfgOffsetShellReset then 0
        else n
    | .reg (.read port bar offset _) =>
        if port = o.configPortId ∧ bar = o.axilBarId ∧ offset = syscfgOffsetShellStatus then n + 1
        else n
    | _ => n) 0

/-- From the `n`-th read of its status on the device shows both CMACs up, and
the versions of their cores are fixed. -/
structure Settles (n : Nat) (version : Nat → BitVec 32) : Prop where
  up : ∀ l, n ≤ statusReads o l → ∀ i < nbCmac,
    dev.answer l o.configPortId o.axilBarId syscfgOffsetShellStatus &&& shellIdx i = shellIdx i
  coreVersion : ∀ l, ∀ i < nbCmac,
    dev.answer l o.configPortId o.axilBarId (cmacOffsetCoreVersion i) = version i

/-- The CMACs in front of the first one of another version. -/
def supported (version : Nat → BitVec 32) : List Nat :=
  (List.range nbCmac).takeWhile fun i => version i = onicCmacCoreVersion

/-- What is written into the windows of the CMACs, and what is printed. -/
def lasting : CardCall → Bool
  | .reg (.write _ _ offset _) => cmacSubsystem0Offset ≤ offset
  | .print _ => true
  | _ => false

/-- What enabling a CMAC leaves behind. -/
def setUp (i : Nat) : List CardCall :=
  (cmacConfig rsFec i).map (fun w => .reg (.write o.configPortId o.axilBarId w.1 w.2))
    ++ [.print s!"Successfully setup cmac id: {(i : Int)}\n"]

section Settled

variable {dev o rsFec stuck tries} {n : Nat} {version : Nat → BitVec 32} {kept : List CardCall}

/-- What is left behind so far. -/
def Kept (kept l : List CardCall) : Prop := l.filter lasting = kept

theorem Kept.snoc {l : List CardCall} {c : CardCall} (h : Kept kept l) (hc : lasting c = false) :
    Kept kept (l ++ [c]) := by
  rw [Kept, List.filter_append, List.filter_singleton, hc, h]
  exact List.append_nil kept

theorem Kept.snoc_lasting {l : List CardCall} {c : CardCall} (h : Kept kept l)
    (hc : lasting c = true) : Kept (kept ++ [c]) (l ++ [c]) := by
  rw [Kept, List.filter_append, List.filter_singleton, hc, h]
  rfl

theorem returns_request : Returns (Kept kept)
    (o.writeReg dev.bus syscfgOffsetShellReset (shellIdx i) : Prog ε σ CardCall Unit) ()
    (Kept kept) :=
  .call fun _ h => h.snoc rfl

theorem statusReads_snoc (l : List CardCall) (val : BitVec 32) :
    statusReads o (l ++ [.reg (.read o.configPortId o.axilBarId syscfgOffsetShellStatus val)])
      = statusReads o l + 1 := by
  simp [statusReads, List.foldl_append]

theorem statusReads_delay (l : List CardCall) (ms : Nat) :
    statusReads o (l ++ [.delayMs ms]) = statusReads o l := by
  simp [statusReads, List.foldl_append]

theorem readReg_ok {offset val : BitVec 32} {s : Logged σ CardCall}
    (h : dev.answer s.calls o.configPortId o.axilBarId offset = val) :
    (o.readReg dev.bus offset : Prog ε σ CardCall (BitVec 32)) s
      = .ok val ⟨s.state, s.calls ++ [.reg (.read o.configPortId o.axilBarId offset val)]⟩ := by
  subst h
  rfl

/-- A loop over the status is over when the device has settled. -/
theorem returns_await (h : Settles dev o n version) (htries : n < tries) (hi : i < nbCmac)
    {wait : Prog ε σ CardCall Unit} (hwait : wait = pure () ∨ wait = rteDelayMs cmacResetWaitMs) :
    Returns (Kept kept) (awaitStatus stuck tries dev o (shellIdx i) wait) () (Kept kept) := by
  refine Returns.conseq (Returns.poll (I := fun k l => Kept kept l ∧ n ≤ statusReads o l + k)
    ?round htries) (fun l hl => ⟨hl, Nat.le_add_left n _⟩) fun _ hl => hl
  rintro k s ⟨hkept, hk⟩
  obtain ⟨val, hval⟩ : ∃ val,
    dev.answer s.calls o.configPortId o.axilBarId syscfgOffsetShellStatus = val := ⟨_, rfl⟩
  have hread := hkept.snoc
    (c := .reg (.read o.configPortId o.axilBarId syscfgOffsetShellStatus val)) rfl
  have hreads := statusReads_snoc (o := o) s.calls val
  refine ⟨val, _, readReg_ok hval, ?_⟩
  by_cases hready : val &&& shellIdx i = shellIdx i
  · exact Or.inl ⟨hready, hread⟩
  · have hlt : statusReads o s.calls < n := by
      by_contra hge
      exact hready (hval ▸ h.up s.calls (Nat.le_of_not_lt hge) i hi)
    obtain ⟨k, rfl⟩ : ∃ k', k = k' + 1 := ⟨k - 1, by omega⟩
    refine Or.inr ⟨hready, ?_⟩
    rcases hwait with rfl | rfl
    · refine ⟨_, k, rfl, rfl, hread, ?_⟩
      rw [hreads]
      omega
    · refine ⟨_, k, rfl, rfl, hread.snoc rfl, ?_⟩
      rw [statusReads_delay, hreads]
      omega

theorem returns_coreVersion (h : Settles dev o n version) (hi : i < nbCmac) :
    Returns (Kept kept) (o.readReg dev.bus (cmacOffsetCoreVersion i) :
      Prog ε σ CardCall (BitVec 32)) (version i) (Kept kept) :=
  fun s hkept => ⟨_, readReg_ok (h.coreVersion s.calls i hi), hkept.snoc rfl⟩

theorem CmacWindow.lasting (hi : i < nbCmac) {offset val : BitVec 32} (h : CmacWindow i offset) :
    lasting (.reg (.write o.configPortId o.axilBarId offset val)) = true := by
  refine decide_eq_true (BitVec.le_trans ?_ h.1)
  rcases cmac_cases hi with rfl | rfl
  · decide
  · decide

theorem returns_config (hi : i < nbCmac) : Returns (Kept kept)
    ((cmacConfig rsFec i).forM fun w => o.writeReg dev.bus w.1 w.2 : Prog ε σ CardCall Unit) ()
    (Kept (kept ++ (cmacConfig rsFec i).map fun w =>
      .reg (.write o.configPortId o.axilBarId w.1 w.2))) := by
  intro s hkept
  have hrun := forM_calls (ε := ε) (s := s)
    (fun (w : BitVec 32 × BitVec 32) calls => show o.writeReg dev.bus w.1 w.2 ⟨s.state, calls⟩
      = .ok () ⟨s.state, calls ++ [.reg (.write o.configPortId o.axilBarId w.1 w.2)]⟩ from rfl)
    (cmacConfig rsFec i)
  refine ⟨_, hrun, ?_⟩
  rw [← List.map_eq_flatMap, Kept, List.filter_append, hkept, List.filter_eq_self.mpr]
  intro c hc
  obtain ⟨w, hw, rfl⟩ := List.mem_map.mp hc
  exact (cmacConfig_window hi w hw).lasting hi

theorem returns_print (text : String) : Returns (Kept kept)
    (printf text : Prog ε σ CardCall Unit) () (Kept (kept ++ [.print text])) :=
  .call fun _ h => h.snoc_lasting rfl

theorem returns_enableCmac (h : Settles dev o n version) (htries : n < tries) (hi : i < nbCmac) :
    Returns (Kept kept) (enableCmac stuck tries dev o rsFec i : Prog ε σ CardCall Int) 0
      (Kept (kept ++ setUp o rsFec i)) := by
  rw [enableCmac_eq stuck tries dev o rsFec hi, setUp, ← List.append_assoc]
  refine returns_request.bind (Returns.bind (returns_await h htries hi (Or.inr rfl)) ?_)
  refine (returns_config hi).bind (Returns.bind (returns_print _) (Returns.pure 0))

/-- Of the CMACs from `i` on, those in front of the first one of another version. -/
theorem returns_enableFrom (h : Settles dev o n version) (htries : n < tries) {left : Nat}
    (hle : i + left ≤ nbCmac) {found : List Nat}
    (hfound : (List.range' i left).takeWhile (fun i => version i = onicCmacCoreVersion) = found) :
    Returns (Kept kept) (enableFrom stuck tries dev o rsFec i left : Prog ε σ CardCall Nat)
      (i + found.length) (Kept (kept ++ found.flatMap (setUp o rsFec))) := by
  induction left generalizing i kept found with
  | zero =>
      subst hfound
      refine Returns.conseq (Returns.pure i) (fun _ h => h) fun l hl => ?_
      simpa using hl
  | succ left ih =>
      have hi : i < nbCmac := by omega
      refine returns_request.bind (Returns.bind (returns_await h htries hi (Or.inr rfl)) ?_)
      refine (returns_coreVersion h hi).bind ?_
      by_cases hversion : version i = onicCmacCoreVersion
      · simp only [List.range'_succ, List.takeWhile_cons, decide_eq_true_eq, if_pos hversion]
          at hfound
        subst hfound
        have hrest : Returns (Kept (kept ++ setUp o rsFec i))
            (enableFrom stuck tries dev o rsFec (i + 1) left : Prog ε σ CardCall Nat) _ _ :=
          ih (by omega) rfl
        rw [Nat.add_right_comm] at hrest
        rw [if_neg (not_not.mpr hversion), List.flatMap_cons, ← List.append_assoc]
        exact (returns_enableCmac h htries hi).bind hrest
      · simp only [List.range'_succ, List.takeWhile_cons, decide_eq_true_eq, if_neg hversion]
          at hfound
        subst hfound
        rw [if_pos hversion]
        refine Returns.conseq (Returns.pure i) (fun _ h => h) fun l hl => ?_
        simpa using hl

/-- The CMACs in front of the first one of another version are set up, in their
order, and nothing else is written into the windows; the number logged is theirs. -/
theorem initHardware_settled (h : Settles dev o n version) (htries : n < tries)
    (s : Logged σ CardCall) : ∃ s',
    (initHardware stuck tries dev o rsFec : Prog ε σ CardCall Int) s = .ok 0 s'
      ∧ s'.calls.filter lasting = s.calls.filter lasting
        ++ (supported version).flatMap (setUp o rsFec)
        ++ [.print s!"ONIC: Number of CMAC instances enabled = {(supported version).length}\n"] := by
  have hsetup : ∀ offset val, ¬cmacSubsystem0Offset ≤ offset →
      Returns (Kept (s.calls.filter lasting))
      (o.writeReg dev.bus offset val : Prog ε σ CardCall Unit) ()
      (Kept (s.calls.filter lasting)) :=
    fun offset val hoff => .call fun _ hk => hk.snoc (decide_eq_false hoff)
  have hfrom : Returns (Kept (s.calls.filter lasting))
      (enableFrom stuck tries dev o rsFec 0 nbCmac : Prog ε σ CardCall Nat) _ _ :=
    returns_enableFrom h htries (by omega) rfl
  have hrun : Returns (Kept (s.calls.filter lasting))
      (initHardware stuck tries dev o rsFec : Prog ε σ CardCall Int) 0
      (Kept (s.calls.filter lasting ++ (supported version).flatMap (setUp o rsFec)
        ++ [.print s!"ONIC: Number of CMAC instances enabled = {(supported version).length}\n"])) := by
    refine (hsetup 0x1000#32 0x1#32 (by decide)).bind ?_
    refine (hsetup 0x2000#32 0x00010001#32 (by decide)).bind ?_
    refine Returns.bind (returns_await (i := 0) h htries (by decide) (Or.inl rfl)) ?_
    rw [← List.range_eq_range', Nat.zero_add] at hfrom
    exact hfrom.bind (Returns.bind (returns_print _) (Returns.pure 0))
  exact hrun s rfl

/-- A device that settles at the `n`-th read of its status, whatever `n` is. -/
def slowDevice (o : Onic) (n : Nat) (version : Nat → BitVec 32) : Device where
  answer l _ _ offset :=
    if offset = syscfgOffsetShellStatus then if n ≤ statusReads o l then 0x110#32 else 0x0#32
    else if offset = cmacOffsetCoreVersion 0 then version 0
    else version 1

theorem settles_slowDevice (o : Onic) (n : Nat) (version : Nat → BitVec 32) :
    Settles (slowDevice o n version) o n version := by
  refine ⟨fun l hn i hi => ?_, fun l i hi => ?_⟩
  · simp only [slowDevice, if_true, if_pos hn]
    rcases cmac_cases hi with rfl | rfl
    · rfl
    · rfl
  · rcases cmac_cases hi with rfl | rfl
    · rfl
    · rfl

def firstCard : Onic := Onic.setup (fun i =>
  ⟨{ socketId := 0#32, portUpdateLock := 0#32, memPool := "" }, i, 0#32, 0#32, 0#32⟩) 0 2

/-- A card whose second CMAC is of another version. -/
theorem initHardware_settled_oneCmac : ∃ s',
    (initHardware () 3 (slowDevice firstCard 2 fun i => if i = 0 then 0x301#32 else 0x0#32)
      firstCard 0 : Prog Unit Unit CardCall Int) ⟨(), []⟩ = .ok 0 s'
      ∧ s'.calls.filter lasting = setUp firstCard 0 0
        ++ [.print "ONIC: Number of CMAC instances enabled = 1\n"] :=
  initHardware_settled (settles_slowDevice firstCard 2 _) (by decide) ⟨(), []⟩

end Settled

end CardBringUp

end P2pInspection
