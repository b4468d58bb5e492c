import P2pInspection.CallTrace

/-!
# `OnicPort`: the operations of one object on its device port

Each operation works on the object it is called on and on the device, of which
the model keeps the calls made on it; a port is attached until
`rte_pmd_qdma_dev_remove` on it has returned 0. What DPDK answers to a call is
an argument (`Answers`). The object is a value: it holds its own `PortInfo`,
the lock included, and nothing about who else refers to the port.
-/

namespace P2pInspection

open CallTrace

def numTxPkts : BitVec 32 := 32#32
def mpCacheSz : BitVec 32 := 512#32
def rtePktmbufHeadroom : BitVec 32 := 128#32
def c2hControlReg : Nat := 0x8
def c2hStatusReg : Nat := 0x18
def c2hStreamMarkerPktGenVal : BitVec 32 := 0x22#32
def markerResponseCompletionBit : BitVec 32 := 0x1#32

/-- `-ENOMSG`. -/
def enomsg : Int := -42

/-- `struct PortInfo`, with the defaults of its constructor, which leaves the
lock and `mem_pool` as they are. A lock is free when it is 0. -/
structure PortInfo where
  queueBase : BitVec 32 := BitVec.allOnes 32
  numQueues : BitVec 32 := BitVec.allOnes 32
  nbDescs : BitVec 32 := BitVec.allOnes 32
  stQueues : BitVec 32 := BitVec.allOnes 32
  buffSize : BitVec 32 := BitVec.allOnes 32
  configBarIdx : Int := -1
  userBarIdx : Int := -1
  bypassBarIdx : Int := -1
  socketId : BitVec 32
  portUpdateLock : BitVec 32
  memPool : String
deriving Repr, DecidableEq

structure OnicPort where
  pinfo : PortInfo
  portId : Int
  b : BitVec 32
  d : BitVec 32
  f : BitVec 32
deriving Repr, DecidableEq

inductive QueueMode where
  | streaming
  | memoryMapped
deriving Repr, DecidableEq

/-- The calls that change something outside the object, and the reads of its
registers. -/
inductive PortCall where
  | poolCreate (name : String) (nbBuff : BitVec 32) (dataRoom : BitVec 16) (socketId : BitVec 32)
  | poolFree (name : String)
  | devConfigure (port : Int) (nbRxQs nbTxQs : BitVec 16)
  | setQueueMode (port : Int) (queue : Nat) (mode : QueueMode)
  | txQueueSetup (port : Int) (queue nbDescs : BitVec 16)
  | rxQueueSetup (port : Int) (queue nbDescs : BitVec 16) (pool : String)
  | devStart (port : Int)
  | pciWrite (port : Int) (bar : Int) (offset : Nat) (val : BitVec 32)
  | pciRead (port : Int) (bar : Int) (offset : Nat) (val : BitVec 32)
  | devStop (port : Int)
  | devClose (port : Int)
  | devReset (port : Int) (ret : Int)
  | devRemove (port : Int) (ret : Int)
deriving Repr, DecidableEq

/-- The port that is stopped, closed or removed by the call. -/
def PortCall.tearsDown : PortCall → Option Int
  | .devStop port => some port
  | .devClose port => some port
  | .devRemove port _ => some port
  | _ => none

/-- The port whose registers the call accesses. -/
def PortCall.accessed : PortCall → Option Int
  | .pciWrite port _ _ _ => some port
  | .pciRead port _ _ _ => some port
  | _ => none

/-- `rte_pmd_qdma_get_device` is not NULL: the device has not been removed. -/
def attached (calls : List PortCall) (port : Int) : Bool := !calls.contains (.devRemove port 0)

/-- The results of the calls inside one operation; a mempool that is created
is not NULL. `softEqdma` is what the device attributes say, and `c2hStatus n` what
the status shows when `n` retries are left behind that read. -/
structure Answers where
  poolCreated : Bool := true
  barDetails : Int × Int × Int × Int
  devConfigure : Int := 0
  queueBase : Int × BitVec 32
  setQueueMode : Nat → Int := fun _ => 0
  txQueueSetup : Nat → Int := fun _ => 0
  rxQueueSetup : Nat → Int := fun _ => 0
  devStart : Int := 0
  bdf : BitVec 32 × BitVec 32 × BitVec 32
  capabilities : Int := 0
  softEqdma : Bool
  c2hStatus : Nat → BitVec 32 := fun _ => markerResponseCompletionBit
  poolFound : Bool := true
  devReset : Int := 0
  devRemove : Int := 0

/-- How an operation ends that does not return: `rte_exit`, or waiting for a
lock that nobody will release. -/
inductive Ending where
  | rteExit
  | spins
deriving Repr, DecidableEq

inductive EthEvent where
  | intrRmv
  | intrReset
  | other
deriving Repr, DecidableEq

namespace OnicPort

abbrev Op (α : Type) := Prog Ending OnicPort PortCall α

def setInfo (f : PortInfo → PortInfo) : Op Unit := update fun p => { p with pinfo := f p.pinfo }

def detached (s : Logged OnicPort PortCall) : Prop := attached s.calls s.state.portId = false

instance (s : Logged OnicPort PortCall) : Decidable (detached s) :=
  inferInstanceAs (Decidable (_ = _))

/-- `if (diag < 0) rte_exit(...)`. -/
def check (diag : Int) : Op Unit := if diag < 0 then throw .rteExit else pure ()

/-! ## `port_init` -/

def memPoolName (port : Int) : String := s!"mbuf_pool_{port}"

/-- `nb_buff`, in 32-bit arithmetic as in the source. -/
def nbBuff (p : PortInfo) : BitVec 32 :=
  let n := p.nbDescs * p.numQueues * 2#32 + numTxPkts * p.numQueues
  if n < mpCacheSz * 2#32 then mpCacheSz * 2#32 else n

/-- The body of the loop over the queues. -/
def setupQueue (ans : Answers) (x : Nat) : Op Unit := do
  let p := (← get).state
  let queue := BitVec.ofNat 16 x
  let nbDescs := p.pinfo.nbDescs.setWidth 16
  call (.setQueueMode p.portId x
    (if x < p.pinfo.stQueues.toNat then .streaming else .memoryMapped))
  check (ans.setQueueMode x)
  call (.txQueueSetup p.portId queue nbDescs)
  check (ans.txQueueSetup x)
  call (.rxQueueSetup p.portId queue nbDescs p.pinfo.memPool)
  check (ans.rxQueueSetup x)

def configure (ans : Answers) : Op Unit := do
  setInfo fun i => { i with
    configBarIdx := ans.barDetails.2.1
    userBarIdx := ans.barDetails.2.2.1
    bypassBarIdx := ans.barDetails.2.2.2 }
  check ans.barDetails.1
  let p := (← get).state
  let nbQs := p.pinfo.numQueues.setWidth 16
  call (.devConfigure p.portId nbQs nbQs)
  check ans.devConfigure
  check ans.queueBase.1
  setInfo fun i => { i with queueBase := ans.queueBase.2 }
  (List.range p.pinfo.numQueues.toNat).forM (setupQueue ans)

def launch (ans : Answers) : Op Unit := do
  let p := (← get).state
  call (.devStart p.portId)
  check ans.devStart
  update fun p => { p with b := ans.bdf.1, d := ans.bdf.2.1, f := ans.bdf.2.2 }

def portInit (ans : Answers) : Op Int := do
  let s ← get
  if detached s then
    return -1
  else
    setInfo fun i => { i with memPool := memPoolName s.state.portId }
    call (.poolCreate (memPoolName s.state.portId) (nbBuff s.state.pinfo)
      ((s.state.pinfo.buffSize + rtePktmbufHeadroom).setWidth 16) s.state.pinfo.socketId)
    check (if ans.poolCreated then 0 else -1)
    configure ans
    launch ans
    return 0

/-! ## Closing, resetting and removing -/

/-- `while (retry)`: an uncompleted marker is waited for no longer than that. -/
def awaitMarker (ans : Answers) : Nat → Op Unit
  | 0 => return ()
  | retry + 1 => do
      let p := (← get).state
      call (.pciRead p.portId p.pinfo.userBarIdx c2hStatusReg (ans.c2hStatus retry))
      if ans.c2hStatus retry &&& markerResponseCompletionBit ≠ 0#32 then return ()
      else awaitMarker ans retry

/-- From the marker on. -/
def shutDown (ans : Answers) : Op Unit := do
  let p := (← get).state
  if ans.softEqdma then
    call (.pciWrite p.portId p.pinfo.userBarIdx c2hControlReg c2hStreamMarkerPktGenVal)
    awaitMarker ans 50
  call (.devStop p.portId)
  call (.devClose p.portId)
  setInfo fun i => { i with numQueues := 0#32 }
  if ans.poolFound then
    call (.poolFree p.pinfo.memPool)

def portClose (ans : Answers) : Op Unit := do
  if detached (← get) then return ()
  else if ans.capabilities < 0 then return ()
  else shutDown ans

/-- `rte_spinlock_lock` on the object's own lock. -/
def lock : Op Unit := do
  if (← get).state.pinfo.portUpdateLock = 0#32 then
    setInfo fun i => { i with portUpdateLock := 1#32 }
  else throw .spins

def unlock : Op Unit := setInfo fun i => { i with portUpdateLock := 0#32 }

def portReset (ans : Answers) : Op Int := do
  let s ← get
  if detached s then
    return -1
  else
    lock
    portClose ans
    call (.devReset s.state.portId ans.devReset)
    if ans.devReset < 0 then
      unlock
      return -1
    else
      let ret ← portInit ans
      unlock
      return ret

def portRemove (ans : Answers) : Op Int := do
  let s ← get
  if detached s then
    return 0
  else
    lock
    portClose ans
    call (.devRemove s.state.portId ans.devRemove)
    unlock
    return ans.devRemove

def devResetCallback (type : EthEvent) (ans : Answers) : Op Int :=
  if type ≠ .intrReset then return enomsg
  else portReset ans

/-- A failed removal is reported as 0. -/
def devRemoveCallback (type : EthEvent) (ans : Answers) : Op Int :=
  if type ≠ .intrRmv then return enomsg
  else do
    let _ ← portRemove ans
    return 0

/-! ## Construction and destruction -/

/-- The members of a new object: its `pinfo` is a copy, and the lock that the
constructor initialises is the parameter's. `b`, `d` and `f` hold anything. -/
def created (pinfo : PortInfo) (portId : Int) (bdf : BitVec 32 × BitVec 32 × BitVec 32) :
    OnicPort := ⟨pinfo, portId, bdf.1, bdf.2.1, bdf.2.2⟩

/-- The body of the constructor; a failure is only reported. -/
def construct (ans : Answers) : Op Unit := do
  let _ ← portInit ans

/-- The test for a removed device in the destructor has no effect. -/
def destruct (ans : Answers) : Op Unit := do
  let s ← get
  if s.state.pinfo.numQueues ≠ 0#32 then portClose ans
  call (.devRemove s.state.portId ans.devRemove)

/-! ## The members of an object, and the calls they make -/

inductive Member where
  | portReset
  | portRemove
  | devResetCallback (type : EthEvent)
  | devRemoveCallback (type : EthEvent)
  | destructor
deriving Repr, DecidableEq

def Member.perform (ans : Answers) : Member → Op Unit
  | .portReset => do let _ ← OnicPort.portReset ans
  | .portRemove => do let _ ← OnicPort.portRemove ans
  | .devResetCallback type => do let _ ← OnicPort.devResetCallback type ans
  | .devRemoveCallback type => do let _ ← OnicPort.devRemoveCallback type ans
  | .destructor => destruct ans

def LockFree (p : OnicPort) : Prop := p.pinfo.portUpdateLock = 0#32

instance (p : OnicPort) : Decidable p.LockFree := inferInstanceAs (Decidable (_ = _))

/-- The member calls `port_close` when the device is attached. -/
def Member.EntersClose (p : OnicPort) : Member → Prop
  | .portReset => p.LockFree
  | .portRemove => p.LockFree
  | .devResetCallback type => type = .intrReset ∧ p.LockFree
  | .devRemoveCallback type => type = .intrRmv ∧ p.LockFree
  | .destructor => p.pinfo.numQueues ≠ 0#32

/-- The device is stopped and closed. -/
def Member.Closes (m : Member) (s : Logged OnicPort PortCall) (ans : Answers) : Prop :=
  m.EntersClose s.state ∧ ¬detached s ∧ 0 ≤ ans.capabilities

/-- `rte_pmd_qdma_dev_remove` is called: by the destructor in any case. -/
def Member.Removes (s : Logged OnicPort PortCall) : Member → Prop
  | .portReset => False
  | .portRemove => s.state.LockFree ∧ ¬detached s
  | .devResetCallback _ => False
  | .devRemoveCallback type => type = .intrRmv ∧ s.state.LockFree ∧ ¬detached s
  | .destructor => True

instance (p : OnicPort) : (m : Member) → Decidable (m.EntersClose p)
  | .portReset => inferInstanceAs (Decidable p.LockFree)
  | .portRemove => inferInstanceAs (Decidable p.LockFree)
  | .devResetCallback _ => inferInstanceAs (Decidable (_ ∧ p.LockFree))
  | .devRemoveCallback _ => inferInstanceAs (Decidable (_ ∧ p.LockFree))
  | .destructor => inferInstanceAs (Decidable (_ ≠ _))

instance (s : Logged OnicPort PortCall) (ans : Answers) (m : Member) :
    Decidable (m.Closes s ans) :=
  inferInstanceAs (Decidable (_ ∧ ¬_ ∧ _))

instance (s : Logged OnicPort PortCall) : (m : Member) → Decidable (m.Removes s)
  | .portReset => inferInstanceAs (Decidable False)
  | .portRemove => inferInstanceAs (Decidable (s.state.LockFree ∧ ¬detached s))
  | .devResetCallback _ => inferInstanceAs (Decidable False)
  | .devRemoveCallback _ => inferInstanceAs (Decidable (_ ∧ s.state.LockFree ∧ ¬detached s))
  | .destructor => inferInstanceAs (Decidable True)

/-- The reads of the marker's completion. -/
def markerReads (p : OnicPort) (ans : Answers) : Nat → List PortCall
  | 0 => []
  | retry + 1 =>
      .pciRead p.portId p.pinfo.userBarIdx c2hStatusReg (ans.c2hStatus retry)
        :: if ans.c2hStatus retry &&& markerResponseCompletionBit ≠ 0#32 then []
          else markerReads p ans retry

/-- The accesses to the registers of the port in `port_close`. -/
def markerCalls (p : OnicPort) (ans : Answers) : List PortCall :=
  if ans.softEqdma then
    .pciWrite p.portId p.pinfo.userBarIdx c2hControlReg c2hStreamMarkerPktGenVal
      :: markerReads p ans 50
  else []

/-- The calls from the marker on. -/
def closeCalls (p : OnicPort) (ans : Answers) : List PortCall :=
  markerCalls p ans ++ [.devStop p.portId, .devClose p.portId]
    ++ if ans.poolFound then [.poolFree p.pinfo.memPool] else []

def shut (p : OnicPort) : OnicPort := { p with pinfo := { p.pinfo with numQueues := 0#32 } }

theorem accessed_markerReads {p : OnicPort} {ans : Answers} {retry : Nat} {c : PortCall}
    (hc : c ∈ markerReads p ans retry) : c.accessed = some p.portId := by
  induction retry with
  | zero => cases hc
  | succ retry ih =>
      rw [markerReads, List.mem_cons] at hc
      rcases hc with rfl | hc
      · rfl
      · split at hc
        · cases hc
        · exact ih hc

theorem accessed_markerCalls {p : OnicPort} {ans : Answers} {c : PortCall}
    (hc : c ∈ markerCalls p ans) : c.accessed = some p.portId := by
  rw [markerCalls] at hc
  split at hc
  · rcases List.mem_cons.mp hc with rfl | hc
    · rfl
    · exact accessed_markerReads hc
  · cases hc

section Runs

variable {s : Logged OnicPort PortCall} {ans : Answers}

theorem awaitMarker_run (retry : Nat) :
    awaitMarker ans retry s = .ok () ⟨s.state, s.calls ++ markerReads s.state ans retry⟩ := by
  induction retry generalizing s with
  | zero => simp [awaitMarker, markerReads]
  | succ retry ih =>
      rw [awaitMarker, bind_ok (run_get s), bind_ok (run_call s _), markerReads]
      by_cases hdone : ans.c2hStatus retry &&& markerResponseCompletionBit ≠ 0#32
      · rw [if_pos hdone, if_pos hdone, run_pure]
      · rw [if_neg hdone, if_neg hdone, ih, List.append_assoc, List.singleton_append]

theorem shutDown_run :
    shutDown ans s = .ok () ⟨s.state.shut, s.calls ++ closeCalls s.state ans⟩ := by
  have hawait (s' : Logged OnicPort PortCall) := @awaitMarker_run s' ans 50
  cases hmarker : ans.softEqdma with
  | true =>
      cases hpool : ans.poolFound with
      | true =>
          simp [shutDown, run_bind, hawait, setInfo, shut, closeCalls, markerCalls, hmarker, hpool]
      | false =>
          simp [shutDown, run_bind, hawait, setInfo, shut, closeCalls, markerCalls, hmarker, hpool]
  | false =>
      cases hpool : ans.poolFound with
      | true => simp [shutDown, run_bind, setInfo, shut, closeCalls, markerCalls, hmarker, hpool]
      | false => simp [shutDown, run_bind, setInfo, shut, closeCalls, markerCalls, hmarker, hpool]

theorem portClose_run (h : ¬detached s ∧ 0 ≤ ans.capabilities) :
    portClose ans s = .ok () ⟨s.state.shut, s.calls ++ closeCalls s.state ans⟩ := by
  simp only [portClose, run_bind, run_get, if_neg h.1, if_neg (Int.not_lt.mpr h.2), shutDown_run]

theorem portClose_skip (h : ¬(¬detached s ∧ 0 ≤ ans.capabilities)) :
    portClose ans s = .ok () s := by
  by_cases hdet : detached s
  · simp only [portClose, run_bind, run_get, if_pos hdet, run_pure]
  · have hcap : ans.capabilities < 0 := Int.not_le.mp fun hge => h ⟨hdet, hge⟩
    simp only [portClose, run_bind, run_get, if_neg hdet, if_pos hcap, run_pure]

end Runs

/-! ## What an initialisation does -/

/-- A call that tears no port down. -/
def Quiet (c : PortCall) : Prop := c.tearsDown = none

theorem quiet_of_accessed {c : PortCall} {port : Int} (h : c.accessed = some port) : Quiet c := by
  cases c with
  | pciWrite | pciRead => rfl
  | _ => cases h

/-- The members that no initialisation writes. -/
structure SameRequest (i i' : PortInfo) : Prop where
  numQueues : i'.numQueues = i.numQueues
  nbDescs : i'.nbDescs = i.nbDescs
  stQueues : i'.stQueues = i.stQueues
  buffSize : i'.buffSize = i.buffSize
  portUpdateLock : i'.portUpdateLock = i.portUpdateLock

section Initialisation

variable {R : OnicPort → List PortCall → OnicPort → Prop} (hR : Composes R)
variable (hcall : ∀ c, Quiet c → ∀ p, R p [c] p)
variable (hwrite : ∀ (p : OnicPort) (i : PortInfo) (b d f : BitVec 32), SameRequest p.pinfo i →
  R p [] ⟨i, p.portId, b, d, f⟩)

include hcall in
theorem obeys_quiet {c : PortCall} (hc : Quiet c) : Obeys R (call c : Op Unit) :=
  .call (hcall c hc)

include hR

theorem obeys_check (diag : Int) : Obeys R (check diag) := .ite (.throw hR _) (.pure hR _)

include hcall

theorem obeys_setupQueue (ans : Answers) (x : Nat) : Obeys R (setupQueue ans x) := by
  refine .bind hR (.get hR) fun s => ?_
  refine .bind hR (obeys_quiet hcall rfl) fun _ => .bind hR (obeys_check hR _) fun _ => ?_
  refine .bind hR (obeys_quiet hcall rfl) fun _ => .bind hR (obeys_check hR _) fun _ => ?_
  exact .bind hR (obeys_quiet hcall rfl) fun _ => obeys_check hR _

include hwrite

theorem obeys_configure (ans : Answers) : Obeys R (configure ans) := by
  have hinfo : ∀ f : PortInfo → PortInfo, (∀ i, SameRequest i (f i)) → Obeys R (setInfo f) :=
    fun f hf => .update fun p => hwrite p (f p.pinfo) p.b p.d p.f (hf p.pinfo)
  refine .bind hR (hinfo _ fun _ => ⟨rfl, rfl, rfl, rfl, rfl⟩) fun _ => ?_
  refine .bind hR (obeys_check hR _) fun _ => .bind hR (.get hR) fun s => ?_
  refine .bind hR (obeys_quiet hcall rfl) fun _ => .bind hR (obeys_check hR _) fun _ => ?_
  refine .bind hR (obeys_check hR _) fun _ => ?_
  refine .bind hR (hinfo _ fun _ => ⟨rfl, rfl, rfl, rfl, rfl⟩) fun _ => ?_
  exact .forM hR _ fun x _ => obeys_setupQueue hR hcall ans x

theorem obeys_launch (ans : Answers) : Obeys R (launch ans) := by
  refine .bind hR (.get hR) fun s => ?_
  refine .bind hR (obeys_quiet hcall rfl) fun _ => .bind hR (obeys_check hR _) fun _ => ?_
  exact .update fun p => hwrite p p.pinfo _ _ _ ⟨rfl, rfl, rfl, rfl, rfl⟩

/-- Whatever the calls return: `port_init` makes quiet calls, and writes neither
what the port was asked for nor its lock. -/
theorem obeys_portInit (ans : Answers) : Obeys R (portInit ans) := by
  refine .bind hR (.get hR) fun s => .ite (.pure hR _) ?_
  have hpool : Obeys R (setInfo fun i => { i with memPool := memPoolName s.state.portId }) :=
    .update fun p => hwrite p _ p.b p.d p.f ⟨rfl, rfl, rfl, rfl, rfl⟩
  refine .bind hR hpool fun _ => .bind hR (obeys_quiet hcall rfl) fun _ => ?_
  refine .bind hR (obeys_check hR _) fun _ => ?_
  refine .bind hR (obeys_configure hR hcall hwrite ans) fun _ => ?_
  exact .bind hR (obeys_launch hR hcall hwrite ans) fun _ => .pure hR _

end Initialisation

/-! ## No initialisation tears a port down -/

theorem emits_setInfo (f : PortInfo → PortInfo) : Emits Quiet (setInfo f) := .update _

theorem emits_portInit (ans : Answers) : Emits Quiet (portInit ans) :=
  emits_iff.mpr (obeys_portInit (composes_calls Quiet)
    (fun _ hc _ _ hc' => List.mem_singleton.mp hc' ▸ hc) (fun _ _ _ _ _ _ => nofun) ans)

theorem emits_construct (ans : Answers) : Emits Quiet (construct ans) :=
  .bind (emits_portInit ans) fun _ => .pure _

/-- What `port_reset` does behind `port_close`. -/
theorem emits_afterClose (ans : Answers) (port : Int) : Emits Quiet (do
    call (.devReset port ans.devReset)
    if ans.devReset < 0 then
      unlock
      return (-1 : Int)
    else
      let ret ← portInit ans
      unlock
      return ret) := by
  refine .bind (.call rfl) fun _ => .ite ?_ ?_
  · exact .bind (emits_setInfo _) fun _ => .pure _
  · exact .bind (emits_portInit ans) fun _ => .bind (emits_setInfo _) fun _ => .pure _

/-! ## What an operation adds to the calls -/

section Calls

variable {s : Logged OnicPort PortCall} {ans : Answers}

def locked (p : OnicPort) : OnicPort :=
  { p with pinfo := { p.pinfo with portUpdateLock := 1#32 } }

theorem lock_run (h : s.state.LockFree) : lock s = .ok () ⟨s.state.locked, s.calls⟩ := by
  simp only [lock, run_bind, run_get, if_pos (show s.state.pinfo.portUpdateLock = 0#32 from h)]
  rfl

theorem lock_spins (h : ¬s.state.LockFree) : lock s = .error .spins s := by
  simp only [lock, run_bind, run_get, if_neg (show ¬s.state.pinfo.portUpdateLock = 0#32 from h)]
  rfl

variable (s ans)

/-- `port_close` under the lock. -/
theorem portClose_locked : ∃ p : OnicPort,
    portClose ans ⟨s.state.locked, s.calls⟩ = .ok () ⟨p, s.calls ++
      if ¬detached s ∧ 0 ≤ ans.capabilities then closeCalls s.state ans else []⟩ := by
  by_cases h : ¬detached s ∧ 0 ≤ ans.capabilities
  · exact ⟨_, by rw [if_pos h]; exact portClose_run h⟩
  · exact ⟨_, by rw [if_neg h, List.append_nil]; exact portClose_skip h⟩

theorem portReset_calls : ∃ new, (∀ c ∈ new, Quiet c) ∧ (after (portReset ans s)).calls
    = s.calls ++ (if s.state.LockFree ∧ ¬detached s ∧ 0 ≤ ans.capabilities
      then closeCalls s.state ans else []) ++ new := by
  by_cases hdet : detached s
  · refine ⟨[], nofun, ?_⟩
    simp [portReset, run_bind, hdet, after]
  · by_cases hlock : s.state.LockFree
    · obtain ⟨p, hclose⟩ := portClose_locked s ans
      obtain ⟨new, hnew, hquiet⟩ := emits_afterClose ans s.state.portId ⟨p, s.calls ++
        if ¬detached s ∧ 0 ≤ ans.capabilities then closeCalls s.state ans else []⟩
      refine ⟨new, hquiet, ?_⟩
      simp only [portReset, bind_ok (run_get s), if_neg hdet, bind_ok (lock_run hlock),
        bind_ok hclose]
      rw [hnew]
      simp [hlock]
    · refine ⟨[], nofun, ?_⟩
      simp only [portReset, bind_ok (run_get s), if_neg hdet, bind_error (lock_spins hlock)]
      simp [after, hlock]

theorem portRemove_calls : (after (portRemove ans s)).calls
    = s.calls ++ (if s.state.LockFree ∧ ¬detached s ∧ 0 ≤ ans.capabilities
        then closeCalls s.state ans else [])
      ++ if s.state.LockFree ∧ ¬detached s then [.devRemove s.state.portId ans.devRemove]
        else [] := by
  by_cases hdet : detached s
  · simp [portRemove, run_bind, hdet, after]
  · by_cases hlock : s.state.LockFree
    · obtain ⟨p, hclose⟩ := portClose_locked s ans
      simp only [portRemove, bind_ok (run_get s), if_neg hdet, bind_ok (lock_run hlock),
        bind_ok hclose]
      simp [-bind_pure_comp, run_bind, unlock, setInfo, after, hlock, hdet]
    · simp only [portRemove, bind_ok (run_get s), if_neg hdet, bind_error (lock_spins hlock)]
      simp [after, hlock]

theorem destruct_calls : (after (destruct ans s)).calls
    = s.calls ++ (if s.state.pinfo.numQueues ≠ 0#32 ∧ ¬detached s ∧ 0 ≤ ans.capabilities
        then closeCalls s.state ans else [])
      ++ [.devRemove s.state.portId ans.devRemove] := by
  by_cases hq : s.state.pinfo.numQueues = 0#32
  · simp [destruct, run_bind, hq, after]
  · by_cases h : ¬detached s ∧ 0 ≤ ans.capabilities
    · simp only [destruct, bind_ok (run_get s), if_pos hq]
      simp [run_bind, portClose_run h, after, hq, h]
    · simp only [destruct, bind_ok (run_get s), if_pos hq]
      simp only [bind_ok (portClose_skip h)]
      simp [after, hq, h]

/-- Every member stops and closes the port, removes it, both or neither, and
makes no other call that tears a port down. -/
theorem perform_calls (m : Member) : ∃ new, (∀ c ∈ new, Quiet c)
    ∧ (after (m.perform ans s)).calls = s.calls
      ++ (if m.Closes s ans then closeCalls s.state ans else [])
      ++ (if m.Removes s then [.devRemove s.state.portId ans.devRemove] else []) ++ new := by
  cases m with
  | portReset =>
      obtain ⟨new, hquiet, hcalls⟩ := portReset_calls s ans
      refine ⟨new, hquiet, ?_⟩
      rw [Member.perform, after_bind_pure, if_neg (show ¬Member.Removes s .portReset from id),
        List.append_nil]
      exact hcalls
  | portRemove =>
      refine ⟨[], nofun, ?_⟩
      rw [Member.perform, after_bind_pure, List.append_nil]
      exact portRemove_calls s ans
  | devResetCallback type =>
      by_cases htype : type = .intrReset
      · subst htype
        obtain ⟨new, hquiet, hcalls⟩ := portReset_calls s ans
        refine ⟨new, hquiet, ?_⟩
        rw [Member.perform, after_bind_pure,
          if_neg (show ¬Member.Removes s (.devResetCallback _) from id),
          List.append_nil]
        simpa [Member.Closes, Member.EntersClose, devResetCallback] using hcalls
      · refine ⟨[], nofun, ?_⟩
        rw [Member.perform, after_bind_pure, devResetCallback, if_pos htype]
        simp [Member.Closes, Member.EntersClose, Member.Removes, htype, after]
  | devRemoveCallback type =>
      refine ⟨[], nofun, ?_⟩
      by_cases htype : type = .intrRmv
      · subst htype
        rw [Member.perform, after_bind_pure, devRemoveCallback, if_neg (fun hne => hne rfl),
          after_bind_pure, List.append_nil]
        simpa [Member.Closes, Member.EntersClose, Member.Removes] using portRemove_calls s ans
      · rw [Member.perform, after_bind_pure, devRemoveCallback, if_pos htype]
        simp [Member.Closes, Member.EntersClose, Member.Removes, htype, after]
  | destructor =>
      refine ⟨[], nofun, ?_⟩
      rw [Member.perform, List.append_nil, if_pos (show Member.Removes s .destructor from trivial)]
      exact destruct_calls s ans

end Calls

end OnicPort

end P2pInspection
