import P2pInspection.PortLifeCycle

/-!
# Resetting a port

When every call succeeds, `port_init` configures and starts the device with the
queues the object asks for (`portInit_run`), and `port_reset` does the same
with the object as `port_close` has left it (`portReset_run`). There
`num_queues` is 0: the field also says whether the port is open.
-/

namespace P2pInspection

open CallTrace OnicPort

/-- No call fails. -/
structure Answers.Succeed (ans : Answers) : Prop where
  poolCreated : ans.poolCreated = true
  barDetails : 0 ≤ ans.barDetails.1
  devConfigure : 0 ≤ ans.devConfigure
  queueBase : 0 ≤ ans.queueBase.1
  setQueueMode : ∀ x, 0 ≤ ans.setQueueMode x
  txQueueSetup : ∀ x, 0 ≤ ans.txQueueSetup x
  rxQueueSetup : ∀ x, 0 ≤ ans.rxQueueSetup x
  devStart : 0 ≤ ans.devStart
  capabilities : 0 ≤ ans.capabilities
  poolFound : ans.poolFound = true
  devReset : 0 ≤ ans.devReset

namespace PortReset

/-! ## What a successful configuration does -/

/-- Queue `x` in the mode and with the descriptors of the object. -/
def queueCalls (p : OnicPort) (x : Nat) : List PortCall :=
  [.setQueueMode p.portId x (if x < p.pinfo.stQueues.toNat then .streaming else .memoryMapped),
    .txQueueSetup p.portId (BitVec.ofNat 16 x) (p.pinfo.nbDescs.setWidth 16),
    .rxQueueSetup p.portId (BitVec.ofNat 16 x) (p.pinfo.nbDescs.setWidth 16) p.pinfo.memPool]

/-- The device is configured with the queues of the object, and started. -/
def configCalls (p : OnicPort) : List PortCall :=
  [.devConfigure p.portId (p.pinfo.numQueues.setWidth 16) (p.pinfo.numQueues.setWidth 16)]
    ++ (List.range p.pinfo.numQueues.toNat).flatMap (queueCalls p) ++ [.devStart p.portId]

/-- The object behind a successful `port_init`. -/
def initialised (p : OnicPort) (ans : Answers) : OnicPort where
  pinfo := { p.pinfo with
    memPool := memPoolName p.portId
    configBarIdx := ans.barDetails.2.1
    userBarIdx := ans.barDetails.2.2.1
    bypassBarIdx := ans.barDetails.2.2.2
    queueBase := ans.queueBase.2 }
  portId := p.portId
  b := ans.bdf.1
  d := ans.bdf.2.1
  f := ans.bdf.2.2

def poolCall (p : OnicPort) : PortCall :=
  .poolCreate (memPoolName p.portId) (nbBuff p.pinfo)
    ((p.pinfo.buffSize + rtePktmbufHeadroom).setWidth 16) p.pinfo.socketId

section Runs

variable {s : Logged OnicPort PortCall} {ans : Answers}

theorem check_run {diag : Int} (h : 0 ≤ diag) : check diag s = .ok () s := by
  rw [check, if_neg (Int.not_lt.mpr h), run_pure]

theorem setupQueue_run (h : ans.Succeed) (x : Nat) :
    setupQueue ans x s = .ok () ⟨s.state, s.calls ++ queueCalls s.state x⟩ := by
  simp only [setupQueue, run_bind, run_get, run_call, check_run (h.setQueueMode x),
    check_run (h.txQueueSetup x), check_run (h.rxQueueSetup x), List.append_assoc]
  rfl

theorem portInit_run (h : ans.Succeed) (hatt : ¬detached s) :
    portInit ans s = .ok 0 ⟨initialised s.state ans,
      s.calls ++ poolCall s.state :: configCalls (initialised s.state ans)⟩ := by
  have hqueues : ∀ (p : OnicPort) (calls : List PortCall) (l : List Nat),
      l.forM (setupQueue ans) ⟨p, calls⟩ = .ok () ⟨p, calls ++ l.flatMap (queueCalls p)⟩ :=
    fun p calls l => forM_calls (s := ⟨p, calls⟩) (fun x _ => setupQueue_run h x) l
  simp only [portInit, configure, launch, setInfo, run_bind, run_get, if_neg hatt, run_update,
    run_call, h.poolCreated, if_true, check_run (Int.le_refl 0), check_run h.barDetails,
    check_run h.devConfigure, check_run h.queueBase, check_run h.devStart, hqueues, run_pure]
  simp only [initialised, poolCall, configCalls, List.append_assoc, List.singleton_append]
  rfl

theorem configCalls_of_zero {p : OnicPort} (h : p.pinfo.numQueues = 0#32) :
    configCalls p = [.devConfigure p.portId 0#16 0#16, .devStart p.portId] := by
  simp [configCalls, h]

/-- Closing a port does not detach it, nor do other calls but its removal. -/
theorem attached_close_append (hatt : ¬detached s) (ans : Answers) (new : List PortCall)
    (hnew : .devRemove s.state.portId 0 ∉ new) :
    attached (s.calls ++ closeCalls s.state ans ++ new) s.state.portId = true := by
  rw [PortLifeCycle.attached_append hnew, PortLifeCycle.attached_close]
  rwa [detached, Bool.not_eq_false] at hatt

/-- The device is reset, configured with no queue and started. -/
theorem portReset_run (h : ans.Succeed) (hatt : ¬detached s) (hfree : s.state.LockFree) :
    portReset ans s = .ok 0 ⟨initialised s.state.shut ans, s.calls ++ closeCalls s.state ans
      ++ [.devReset s.state.portId ans.devReset, poolCall s.state.shut,
        .devConfigure s.state.portId 0#16 0#16, .devStart s.state.portId]⟩ := by
  have hclose := portClose_run (s := ⟨s.state.locked, s.calls⟩) ⟨hatt, h.capabilities⟩
  have hatt' : ¬detached ⟨s.state.locked.shut, s.calls ++ closeCalls s.state ans
      ++ [.devReset s.state.portId ans.devReset]⟩ := by
    have hstill := attached_close_append hatt ans
      [.devReset s.state.portId ans.devReset] (by simp)
    exact fun hdet => absurd (hstill.symm.trans hdet) (by decide)
  have hinit := portInit_run h hatt'
  rw [configCalls_of_zero rfl] at hinit
  have hunlocked : s.state.pinfo.portUpdateLock = 0#32 := hfree
  simp only [portReset, bind_ok (run_get s), if_neg hatt, bind_ok (lock_run hfree),
    bind_ok hclose, bind_ok (run_call ..), if_neg (Int.not_lt.mpr h.devReset)]
  refine (bind_ok hinit).trans ?_
  simp [unlock, setInfo, run_bind, initialised, locked, shut, poolCall, nbBuff, hunlocked]

end Runs

/-! ## What no initialisation changes -/

/-- What `port_init` leaves as it is, whatever its calls return. -/
def settings (p : OnicPort) : Int × BitVec 32 × BitVec 32 × BitVec 32 × BitVec 32 × BitVec 32 :=
  (p.portId, p.pinfo.numQueues, p.pinfo.nbDescs, p.pinfo.stQueues, p.pinfo.buffSize,
    p.pinfo.portUpdateLock)

theorem preserves_portInit (ans : Answers) : Preserves settings (portInit ans) := by
  refine obeys_portInit (composes_kept settings) (fun _ _ _ => rfl) (fun p i b d f h => ?_) ans
  simp only [settings, h.numQueues, h.nbDescs, h.stQueues, h.buffSize, h.portUpdateLock]

/-! ## Resets in a row -/

/-- `port_reset`, once for each list of answers. -/
def resets : List Answers → Op (List Int)
  | [] => return []
  | ans :: anss => do
      let ret ← portReset ans
      let rets ← resets anss
      return ret :: rets

/-- The resets return 0, the object asks for the queues, modes and sizes it
asked for, and the device was last configured and started with these. -/
def KeepsConfiguration (s : Logged OnicPort PortCall) (anss : List Answers) : Prop :=
  ∃ rets s', resets anss s = .ok rets s' ∧ (∀ ret ∈ rets, ret = 0)
    ∧ s'.state.pinfo.numQueues = s.state.pinfo.numQueues
    ∧ s'.state.pinfo.stQueues = s.state.pinfo.stQueues
    ∧ s'.state.pinfo.nbDescs = s.state.pinfo.nbDescs
    ∧ s'.state.pinfo.buffSize = s.state.pinfo.buffSize
    ∧ ∃ before, s'.calls = before ++ configCalls s.state

section Resets

variable {s s' : Logged OnicPort PortCall} {ans : Answers} {anss : List Answers}

theorem portReset_zero (h : ans.Succeed) (hrun : portReset ans s = .ok 0 s') :
    s'.state.pinfo.numQueues = 0#32 := by
  by_cases hdet : detached s
  · simp only [portReset, bind_ok (run_get s), if_pos hdet, run_pure] at hrun
    cases hrun
  · by_cases hfree : s.state.LockFree
    · rw [portReset_run h hdet hfree] at hrun
      cases hrun
      rfl
    · simp only [portReset, bind_ok (run_get s), if_neg hdet, bind_error (lock_spins hfree)] at hrun
      cases hrun

theorem resets_cons {rets : List Int} (hrun : resets (ans :: anss) s = .ok rets s') :
    ∃ ret s₁ rets', portReset ans s = .ok ret s₁ ∧ resets anss s₁ = .ok rets' s'
      ∧ rets = ret :: rets' := by
  rw [resets, run_bind] at hrun
  cases hreset : portReset ans s with
  | error e s₁ => simp only [hreset] at hrun; cases hrun
  | ok ret s₁ =>
      simp only [hreset, run_bind] at hrun
      cases hrest : resets anss s₁ with
      | error e s₂ => simp only [hrest] at hrun; cases hrun
      | ok rets' s₂ =>
          simp only [hrest, run_pure] at hrun
          cases hrun
          exact ⟨ret, s₁, rets', rfl, hrest, rfl⟩

theorem resets_zero {rets : List Int} (hne : anss ≠ []) (hsucc : ∀ ans ∈ anss, ans.Succeed)
    (hrun : resets anss s = .ok rets s') (hrets : ∀ ret ∈ rets, ret = 0) :
    s'.state.pinfo.numQueues = 0#32 := by
  induction anss generalizing s rets with
  | nil => exact absurd rfl hne
  | cons ans anss ih =>
      obtain ⟨ret, s₁, rets', hreset, hrest, rfl⟩ := resets_cons hrun
      obtain ⟨rfl, hrets'⟩ := List.forall_mem_cons.mp hrets
      obtain ⟨hans, hsucc'⟩ := List.forall_mem_cons.mp hsucc
      cases anss with
      | nil =>
          cases hrest
          exact portReset_zero hans hreset
      | cons ans' anss => exact ih (by simp) hsucc' hrest hrets'

/-- No reset of a port that has queues keeps them. -/
theorem never_keepsConfiguration {p : OnicPort} {calls : List PortCall} {ans₀ : Answers}
    (hinit : portInit ans₀ ⟨p, calls⟩ = .ok 0 s) (hqueues : p.pinfo.numQueues ≠ 0#32)
    (hne : anss ≠ []) (hsucc : ∀ ans ∈ anss, ans.Succeed) : ¬KeepsConfiguration s anss := by
  rintro ⟨rets, s', hrun, hrets, hnum, -⟩
  have hkept := (preserves_portInit ans₀).state ⟨p, calls⟩
  rw [hinit] at hkept
  have hsame : s.state.pinfo.numQueues = p.pinfo.numQueues := congrArg (fun x => x.2.1) hkept
  exact hqueues (hsame.symm.trans (hnum.symm.trans (resets_zero hne hsucc hrun hrets)))

end Resets

theorem succeeding_succeed : PortLifeCycle.succeeding.Succeed := by
  have hzero : (0 : Int) ≤ 0 := Int.le_refl 0
  exact ⟨rfl, hzero, hzero, hzero, fun _ => hzero, fun _ => hzero, fun _ => hzero, hzero, hzero,
    rfl, hzero⟩

/-- Port 0 of `main`, which has two queues, is reset once. -/
theorem mainPort_reset : ∃ s,
    portInit PortLifeCycle.succeeding
        ⟨created PortLifeCycle.mainPort 0 (0#32, 0#32, 0#32), []⟩ = .ok 0 s
      ∧ ¬KeepsConfiguration s [PortLifeCycle.succeeding] := by
  refine ⟨_, portInit_run succeeding_succeed (by decide), ?_⟩
  rintro ⟨rets, s', hrun, hrets, hnum, -⟩
  have hzero := resets_zero (by simp) (fun ans hans =>
    List.mem_singleton.mp hans ▸ succeeding_succeed) hrun hrets
  exact absurd (hnum.symm.trans hzero) (by decide)

/-- Twice. -/
theorem never_keepsConfiguration_twice : ∃ s,
    portInit PortLifeCycle.succeeding
        ⟨created PortLifeCycle.mainPort 0 (0#32, 0#32, 0#32), []⟩ = .ok 0 s
      ∧ ¬KeepsConfiguration s [PortLifeCycle.succeeding, PortLifeCycle.succeeding] := by
  have hinit := portInit_run (s := ⟨created PortLifeCycle.mainPort 0 (0#32, 0#32, 0#32), []⟩)
    succeeding_succeed (by decide)
  exact ⟨_, hinit, never_keepsConfiguration hinit (by decide) (by simp)
    (by simp [succeeding_succeed])⟩

end PortReset

end P2pInspection
