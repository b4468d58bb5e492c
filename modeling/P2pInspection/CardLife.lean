import P2pInspection.MonitorLoop
import P2pInspection.PortInit

/-!
# The life of a card

A card is an object that holds its ports. Its constructor makes the ports, goes
by one of them to the registers, and brings the CMACs up; the members in between
work on the registers alone; the destructor asks for a reset of the whole card,
and then the ports are destroyed, the last one first.

In every life the ports are torn down behind the reset, and each that was
started is torn down in the end. The registers of the card are reached through a
port that is started exactly where that port is one of the card's own and its
device was there when the card was made: the constructor only reports a port that
it could not initialise. And a port that is closed accesses registers of its own:
there too the port must be started, although the card has ports that it never
made, and no port destroyed before may be on the same device (`life_orderly_iff`).
-/

namespace P2pInspection

open CallTrace OnicPort PortInit PortReset

namespace CardLife

open CardBringUp MonitorLoop

def ringSize : Nat := 8192
def ringFSpEnq : Nat := 0x1
def ringFScDeq : Nat := 0x2

/-- The parameters of the constructor, which asserts that there is a place for
every port. -/
structure Request where
  portInfos : Nat → PortInfo
  portIds : Nat → Int
  nbPorts : Nat
  fits : nbPorts ≤ P2pInspection.nbPorts
  configPortId : Int := -1
  axilBarId : Int := -1
  rsFec : Int := 0

/-- What the card meets: the number of its ring, the sockets of the thread and of
a device, what `b`, `d` and `f` of a new port hold, what DPDK answers while a port
is made and while it is destroyed, and the device. `tries` is for the loops over
its status. -/
structure Surroundings where
  ringId : Nat
  rteSocketId : BitVec 32
  socketId : Int → Int
  bdf : Nat → BitVec 32 × BitVec 32 × BitVec 32
  making : Nat → Answers
  destroying : Nat → Answers
  dev : Device
  tries : Nat

abbrev Life (α : Type) := Prog Ending Onic CardCall α

def portCall? : CardCall → Option PortCall
  | .port c => some c
  | _ => none

def portCalls (calls : List CardCall) : List PortCall := calls.filterMap portCall?

/-- A member called on port `i`. -/
def onPort {α : Type} (i : Nat) (op : OnicPort.Op α) : Life α := fun s =>
  let behind (t : Logged OnicPort PortCall) : Logged Onic CardCall :=
    ⟨{ s.state with ports := Function.update s.state.ports i t.state },
      s.calls ++ (t.calls.drop (portCalls s.calls).length).map .port⟩
  match op ⟨s.state.ports i, portCalls s.calls⟩ with
  | .ok a t => .ok a (behind t)
  | .error e t => .error e (behind t)

section Programs

variable (r : Request) (env : Surroundings)

/-- `OnicPort()`, where the memory held `p`: only what `PortInfo` gives a default
is set. -/
def unmade (p : OnicPort) : OnicPort where
  pinfo := {
    socketId := env.rteSocketId
    portUpdateLock := p.pinfo.portUpdateLock
    memPool := p.pinfo.memPool }
  portId := p.portId
  b := p.b
  d := p.d
  f := p.f

def newPort (i : Nat) : OnicPort := created (r.portInfos i) (r.portIds i) (env.bdf i)

/-- `new (&ports[i]) OnicPort(portInfos[i], port_ids[i])`. -/
def makePort (i : Nat) : Life Unit := do
  update fun o => { o with ports := Function.update o.ports i (newPort r env i) }
  onPort i (OnicPort.construct (env.making i))

def Request.config (r : Request) : Int :=
  if r.configPortId = -1 then r.portIds 0 else r.configPortId

/-- `init_hardware` on the object as it is now. -/
def bringUp : Life Unit := do
  let s ← get
  let _ ← initHardware Ending.spins env.tries env.dev s.state r.rsFec
  return ()

def construct : Life Unit := do
  update fun o => { o with ports := fun i => unmade env (o.ports i) }
  call (.ringCreate (toString env.ringId) ringSize (env.socketId (r.portIds 0))
    (ringFSpEnq ||| ringFScDeq))
  (List.range r.nbPorts).forM (makePort r env)
  update fun o => { o with
    configPortId := r.config
    axilBarId := if r.axilBarId = -1 then (o.ports 0).pinfo.userBarIdx else r.axilBarId }
  bringUp r env

/-- The members that do something outside the object. -/
inductive CardMember where
  | initHardware
  | enableCmac (cmacId : Int)
  | getCmacStats (cmacId : Int) (debug : Bool)
  | getCmacDebugStats (cmacId : Int) (stats : CmacStats)
  | printPacketAdaptorStats (cmacId : Int)
  | readReg (offset : BitVec 32)
  | writeReg (offset val : BitVec 32)

def CardMember.perform (o : Onic) : CardMember → Life Unit
  | .initHardware => do
      let _ ← CardBringUp.initHardware Ending.spins env.tries env.dev o r.rsFec
      return ()
  | .enableCmac cmacId => do
      let _ ← CardBringUp.enableCmac Ending.spins env.tries env.dev o r.rsFec cmacId
      return ()
  | .getCmacStats cmacId debug => do
      let _ ← o.getCmacStats env.dev.bus cmacId debug
      return ()
  | .getCmacDebugStats cmacId stats => do
      let _ ← o.getCmacDebugStats env.dev.bus cmacId stats
      return ()
  | .printPacketAdaptorStats cmacId => MonitorLoop.printPacketAdaptorStats env.dev o cmacId
  | .readReg offset => do
      let _ ← o.readReg env.dev.bus offset
      return ()
  | .writeReg offset val => o.writeReg env.dev.bus offset val

def use (m : CardMember) : Life Unit := do
  let s ← get
  m.perform r env s.state

def destroyPort (i : Nat) : Life Unit := onPort i (OnicPort.destruct (env.destroying i))

/-- The members of `ports` are destroyed behind the body, in reverse. -/
def destruct : Life Unit := do
  let s ← get
  onicLog "Reset Onic\n"
  s.state.writeReg env.dev.bus syscfgOffsetSystemReset 0x1#32
  (List.range P2pInspection.nbPorts).reverse.forM (destroyPort env)

/-- A card is made, used and destroyed. -/
def life (members : List CardMember) : Life Unit := do
  construct r env
  members.forM (use r env)
  destruct env

end Programs

/-! ## What is asked of a life -/

/-- The port that registers are reached through: those of the card, or its own
while it is closed. -/
def accessed : CardCall → Option Int
  | .reg (.read port _ _ _) => some port
  | .reg (.write port _ _ _) => some port
  | .port c => c.accessed
  | _ => none

def tornDown (c : CardCall) : Option Int := (portCall? c).bind PortCall.tearsDown

/-- The port was started, and no call since was to tear it down. -/
def Live (l : List CardCall) (port : Int) : Prop :=
  ∃ before behind, l = before ++ .port (.devStart port) :: behind
    ∧ ∀ c ∈ behind, tornDown c ≠ some port

/-- The global reset was asked for through the port. -/
def ResetAsked (port : Int) (l : List CardCall) : Prop :=
  ∃ bar, .reg (.write port bar syscfgOffsetSystemReset 0x1#32) ∈ l

/-- The registers are reached through a live port, and a port is torn down behind
the reset. -/
def Orderly (port : Int) (l : List CardCall) (c : CardCall) : Prop :=
  (∀ p, accessed c = some p → Live l p) ∧ (tornDown c ≠ none → ResetAsked port l)

section Calls

variable {l l' : List CardCall} {port : Int}

theorem live_of_started (hstart : .port (.devStart port) ∈ l)
    (hkept : ∀ c ∈ l, tornDown c = none) : Live l port := by
  obtain ⟨before, behind, rfl⟩ := List.append_of_mem hstart
  refine ⟨before, behind, rfl, fun c hc htorn => ?_⟩
  rw [hkept c (by simp [hc])] at htorn
  cases htorn

theorem Live.started (h : Live l port) : .port (.devStart port) ∈ l := by
  obtain ⟨before, behind, rfl, -⟩ := h
  exact List.mem_append_right before List.mem_cons_self

theorem live_append_iff (hstart : .port (.devStart port) ∉ l') :
    Live (l ++ l') port ↔ Live l port ∧ ∀ c ∈ l', tornDown c ≠ some port := by
  constructor
  · rintro ⟨before, behind, heq, hkept⟩
    rcases List.append_eq_append_iff.mp heq with ⟨mid, rfl, rfl⟩ | ⟨mid, rfl, hmid⟩
    · exact absurd (List.mem_append_right mid List.mem_cons_self) hstart
    · cases mid with
      | nil =>
          refine absurd ?_ hstart
          rw [← List.nil_append l', ← hmid]
          exact List.mem_cons_self
      | cons c mid =>
          obtain ⟨rfl, rfl⟩ := List.cons.inj hmid
          refine ⟨⟨before, mid, rfl, fun c' hc' => ?_⟩, fun c' hc' => ?_⟩
          · exact hkept c' (List.mem_append_left l' hc')
          · exact hkept c' (List.mem_append_right mid hc')
  · rintro ⟨⟨before, behind, rfl, hkept⟩, hkept'⟩
    refine ⟨before, behind ++ l', by simp, fun c hc => ?_⟩
    exact (List.mem_append.mp hc).elim (hkept c) (hkept' c)

end Calls

/-! ## The ports -/

section Ports

theorem portCalls_append (l l' : List CardCall) :
    portCalls (l ++ l') = portCalls l ++ portCalls l' := List.filterMap_append

theorem portCalls_map_port (l : List PortCall) : portCalls (l.map .port) = l := by
  rw [portCalls, List.filterMap_map]
  exact List.filterMap_some

variable {α : Type} {i : Nat} {op : OnicPort.Op α} {s : Logged Onic CardCall}

/-- What the member adds to the calls on the ports is added to those of the card. -/
theorem onPort_run {a : α} {p : OnicPort} {new : List PortCall}
    (h : op ⟨s.state.ports i, portCalls s.calls⟩ = .ok a ⟨p, portCalls s.calls ++ new⟩) :
    onPort i op s = .ok a ⟨{ s.state with ports := Function.update s.state.ports i p },
      s.calls ++ new.map .port⟩ := by
  simp only [onPort, h, List.drop_left]

theorem scripted_onPort {a : α} {p : OnicPort} {ok : Prop} {script : List PortCall}
    (h : Scripted op ⟨s.state.ports i, portCalls s.calls⟩ ok script a p) :
    Scripted (onPort i op) s ok (script.map .port) a
      { s.state with ports := Function.update s.state.ports i p } := by
  cases h with
  | returns hok hrun => exact .returns hok (onPort_run hrun)
  | @ends hfails e p' made hmade hrun =>
      have hend : onPort i op s = .error e ⟨{ s.state with
          ports := Function.update s.state.ports i p' }, s.calls ++ made.map .port⟩ := by
        simp only [onPort, hrun, List.drop_left]
      exact .ends hfails (hmade.map _) hend

end Ports

section Making

variable (r : Request) (env : Surroundings)

/-- The calls for one port, behind these. -/
def makeCalls (calls : List PortCall) (i : Nat) : List PortCall :=
  if attached calls (r.portIds i) = true then
    initCalls (newPort r env i) (env.making i)
  else []

theorem mem_makeCalls {calls : List PortCall} {i : Nat} {c : PortCall}
    (hc : c ∈ makeCalls r env calls i) : Quiet c ∧ c.accessed = none := by
  rw [makeCalls] at hc
  split at hc
  · simp only [initCalls, setupCalls, poolCall, queueCalls,
      List.cons_append, List.mem_cons, List.mem_append, List.mem_flatMap, List.not_mem_nil,
      or_false] at hc
    rcases hc with rfl | rfl | ⟨x, -, rfl | rfl | rfl⟩ | rfl
    all_goals exact ⟨rfl, rfl⟩
  · cases hc

theorem devStart_mem_makeCalls {calls : List PortCall} {i : Nat} {port : Int} :
    .devStart port ∈ makeCalls r env calls i
      ↔ r.portIds i = port ∧ attached calls port = true := by
  by_cases hatt : attached calls (r.portIds i) = true
  · rw [makeCalls, if_pos hatt, initCalls, List.mem_append, List.mem_singleton]
    constructor
    · rintro (hmem | heq)
      · exact absurd hmem (devStart_notMem_setupCalls _ _ _)
      · cases heq
        exact ⟨rfl, hatt⟩
    · rintro ⟨rfl, -⟩
      exact Or.inr rfl
  · rw [makeCalls, if_neg hatt]
    constructor
    · intro hmem
      cases hmem
    · rintro ⟨rfl, hatt'⟩
      exact absurd hatt' hatt

/-- Behind the calls for other ports. -/
theorem makeCalls_append {calls new : List PortCall} (hnew : ∀ c ∈ new, Quiet c) :
    makeCalls r env (calls ++ new) = makeCalls r env calls := by
  have hatt : ∀ port, attached (calls ++ new) port = attached calls port :=
    fun port => PortLifeCycle.attached_append (PortLifeCycle.Quiet.notMem hnew rfl)
  funext i
  rw [makeCalls, makeCalls, hatt]

/-- A port that was made, or could not be. -/
def Made (i : Nat) (p : OnicPort) : Prop :=
  p.portId = r.portIds i ∧ p.pinfo.numQueues = (r.portInfos i).numQueues

/-- A port whose device is not there is left as it is. -/
theorem scripted_construct (calls : List PortCall) (i : Nat) : ∃ p ok, Made r i p
    ∧ Scripted (OnicPort.construct (env.making i)) ⟨newPort r env i, calls⟩ ok
      (makeCalls r env calls i) () p := by
  by_cases hatt : attached calls (r.portIds i) = true
  · have hthere : ¬detached ⟨newPort r env i, calls⟩ :=
      fun hdet => Bool.noConfusion (hatt.symm.trans hdet)
    rw [makeCalls, if_pos hatt]
    refine ⟨initialised (newPort r env i) (env.making i), _, ⟨rfl, rfl⟩, Scripted.congr
      (Scripted.bind (scripted_portInit hthere) (.pure ())) Iff.rfl (List.append_nil _) rfl⟩
  · have hdet : detached ⟨newPort r env i, calls⟩ := Bool.eq_false_of_not_eq_true hatt
    have hinit : portInit (env.making i) ⟨newPort r env i, calls⟩
        = .ok (-1) ⟨newPort r env i, calls⟩ := by
      rw [portInit, bind_ok (run_get _), if_pos hdet]
      rfl
    rw [makeCalls, if_neg hatt]
    refine ⟨newPort r env i, True, ⟨rfl, rfl⟩, .returns trivial ?_⟩
    rw [List.append_nil]
    exact bind_ok hinit

theorem scripted_makePort (i : Nat) (s : Logged Onic CardCall) : ∃ p ok, Made r i p
    ∧ Scripted (makePort r env i) s ok ((makeCalls r env (portCalls s.calls) i).map .port) ()
      { s.state with ports := Function.update s.state.ports i p } := by
  obtain ⟨p, ok, hp, hmake⟩ := scripted_construct r env (portCalls s.calls) i
  refine ⟨p, ok, hp, ?_⟩
  apply Scripted.congr
  case h =>
    apply Scripted.bind (Scripted.update _)
    apply scripted_onPort
    simp only [List.append_nil, Function.update_self]
    exact hmake
  case hok => rw [true_and]
  case hscript => rfl
  case hst => exact congrArg (Onic.mk · _ _) (Function.update_idem _ p s.state.ports)

theorem scripted_makePorts (l : List Nat) (s : Logged Onic CardCall) :
    ∃ (ports : Nat → OnicPort) (ok : Prop), (∀ i ∈ l, Made r i (ports i))
      ∧ (∀ i ∉ l, ports i = s.state.ports i)
      ∧ Scripted (l.forM (makePort r env)) s ok
        ((l.flatMap (makeCalls r env (portCalls s.calls))).map .port) ()
        { s.state with ports := ports } := by
  induction l generalizing s with
  | nil => exact ⟨s.state.ports, True, nofun, fun _ _ => rfl, .pure ()⟩
  | cons i l ih =>
      obtain ⟨p, ok, hp, hmake⟩ := scripted_makePort r env i s
      obtain ⟨ports, ok', hmade, hother, hrest⟩ := ih ⟨{ s.state with
        ports := Function.update s.state.ports i p },
        s.calls ++ (makeCalls r env (portCalls s.calls) i).map .port⟩
      refine ⟨ports, ok ∧ ok', fun j hj => ?_, fun j hj => ?_, ?_⟩
      · by_cases hjl : j ∈ l
        · exact hmade j hjl
        · obtain rfl := (List.mem_cons.mp hj).resolve_right hjl
          rw [hother j hjl]
          simpa using hp
      · rw [List.mem_cons, not_or] at hj
        rw [hother j hj.2]
        exact Function.update_of_ne hj.1 _ _
      · rw [portCalls_append, portCalls_map_port,
          makeCalls_append r env fun c hc => (mem_makeCalls r env hc).1] at hrest
        rw [List.flatMap_cons, List.map_append]
        exact hmake.bind hrest

end Making

/-! ## The registers -/

/-- A call on the registers behind the port, or on no device. -/
def OnCard (port : Int) (c : CardCall) : Prop :=
  (∀ p, accessed c = some p → p = port) ∧ portCall? c = none

/-- The object stays as it is, and the calls are on its card. -/
def Stays (port : Int) (o : Onic) (new : List CardCall) (o' : Onic) : Prop :=
  o' = o ∧ ∀ c ∈ new, OnCard port c

theorem composes_stays (port : Int) : Composes (Stays port) := by
  refine ⟨fun o => ⟨rfl, nofun⟩, ?_⟩
  rintro o _ _ l l' ⟨rfl, hl⟩ ⟨rfl, hl'⟩
  exact ⟨rfl, fun c hc => (List.mem_append.mp hc).elim (hl c) (hl' c)⟩

section Registers

variable (env : Surroundings) (o : Onic) (rsFec : Int)

theorem obeys_call {port : Int} {c : CardCall} (hc : OnCard port c) :
    Obeys (Stays port) (call c : Life Unit) :=
  .call fun _ => ⟨rfl, fun _ hc' => List.mem_singleton.mp hc' ▸ hc⟩

theorem obeys_readReg (offset : BitVec 32) :
    Obeys (Stays o.configPortId) (o.readReg env.dev.bus offset : Life (BitVec 32)) := by
  have hR := composes_stays o.configPortId
  refine .bind hR (.get hR) fun s => .bind hR (obeys_call ⟨?_, rfl⟩) fun _ => .pure hR _
  exact fun p hp => (Option.some.inj hp).symm

theorem obeys_writeReg (offset val : BitVec 32) :
    Obeys (Stays o.configPortId) (o.writeReg env.dev.bus offset val : Life Unit) :=
  obeys_call ⟨fun _ hp => (Option.some.inj hp).symm, rfl⟩

theorem obeys_awaitStatus (mask : BitVec 32) {wait : Life Unit}
    (hwait : Obeys (Stays o.configPortId) wait) : Obeys (Stays o.configPortId)
      (awaitStatus Ending.spins env.tries env.dev o mask wait) :=
  .poll (composes_stays _) (obeys_readReg env o _) hwait _

theorem obeys_print {port : Int} (text : String) : Obeys (Stays port) (printf text : Life Unit) :=
  obeys_call ⟨nofun, rfl⟩

theorem obeys_delay {port : Int} (ms : Nat) : Obeys (Stays port) (rteDelayMs ms : Life Unit) :=
  obeys_call ⟨nofun, rfl⟩

theorem obeys_enableCmac (cmacId : Int) : Obeys (Stays o.configPortId)
    (enableCmac Ending.spins env.tries env.dev o rsFec cmacId : Life Int) := by
  have hR := composes_stays o.configPortId
  have hwrite := fun offset val => obeys_writeReg env o offset val
  refine .ite ?_ ?_
  all_goals
    refine .bind hR (hwrite _ _) fun _ => ?_
    refine .bind hR (obeys_awaitStatus env o _ (obeys_delay _)) fun _ => .ite ?_ ?_
  -- The writes, with those for RS-FEC or without.
  all_goals
    repeat refine .bind hR (hwrite _ _) fun _ => ?_
    exact .bind hR (obeys_print _) fun _ => .pure hR _

theorem obeys_enableFrom (i left : Nat) : Obeys (Stays o.configPortId)
    (enableFrom Ending.spins env.tries env.dev o rsFec i left : Life Nat) := by
  have hR := composes_stays o.configPortId
  induction left generalizing i with
  | zero => exact .pure hR i
  | succ left ih =>
      refine .bind hR (obeys_writeReg env o _ _) fun _ => ?_
      refine .bind hR (obeys_awaitStatus env o _ (obeys_delay _)) fun _ => ?_
      refine .bind hR (obeys_readReg env o _) fun val => .ite (.pure hR i) ?_
      exact .bind hR (obeys_enableCmac env o rsFec i) fun _ => ih (i + 1)

theorem obeys_initHardware : Obeys (Stays o.configPortId)
    (initHardware Ending.spins env.tries env.dev o rsFec : Life Int) := by
  have hR := composes_stays o.configPortId
  refine .bind hR (obeys_writeReg env o _ _) fun _ => ?_
  refine .bind hR (obeys_writeReg env o _ _) fun _ => ?_
  refine .bind hR (obeys_awaitStatus env o _ (.pure hR ())) fun _ => ?_
  refine .bind hR (obeys_enableFrom env o rsFec 0 nbCmac) fun i => ?_
  exact .bind hR (obeys_print _) fun _ => .pure hR 0

theorem obeys_getCmacDebugStats (cmacId : Int) (stats : CmacStats) :
    Obeys (Stays o.configPortId)
      (o.getCmacDebugStats env.dev.bus cmacId stats : Life CmacStats) := by
  have hR := composes_stays o.configPortId
  iterate 22 refine .bind hR (obeys_readReg env o _) fun _ => ?_
  exact .pure hR _

theorem obeys_getCmacStats (cmacId : Int) (debug : Bool) : Obeys (Stays o.configPortId)
    (o.getCmacStats env.dev.bus cmacId debug : Life CmacStats) := by
  have hR := composes_stays o.configPortId
  refine .bind hR (obeys_writeReg env o _ _) fun _ => ?_
  iterate 8 refine .bind hR (obeys_readReg env o _) fun _ => ?_
  exact .ite (obeys_getCmacDebugStats env o cmacId _) (.pure hR _)

theorem obeys_printPacketAdaptorStats (cmacId : Int) : Obeys (Stays o.configPortId)
    (printPacketAdaptorStats env.dev o cmacId : Life Unit) := by
  have hR := composes_stays o.configPortId
  have hread : Obeys (Stays o.configPortId)
      (readPacketAdaptorStats env.dev o cmacId : Life AdaptorStats) := by
    iterate 5 refine .bind hR (obeys_readReg env o _) fun _ => ?_
    exact .pure hR _
  exact .bind hR hread fun a => obeys_print _

theorem obeys_perform (r : Request) (m : CardMember) :
    Obeys (Stays o.configPortId) (m.perform r env o) := by
  have hR := composes_stays o.configPortId
  cases m with
  | initHardware => exact .bind hR (obeys_initHardware env o _) fun _ => .pure hR ()
  | enableCmac cmacId => exact .bind hR (obeys_enableCmac env o _ cmacId) fun _ => .pure hR ()
  | getCmacStats cmacId debug =>
      exact .bind hR (obeys_getCmacStats env o cmacId debug) fun _ => .pure hR ()
  | getCmacDebugStats cmacId stats =>
      exact .bind hR (obeys_getCmacDebugStats env o cmacId stats) fun _ => .pure hR ()
  | printPacketAdaptorStats cmacId => exact obeys_printPacketAdaptorStats env o cmacId
  | readReg offset => exact .bind hR (obeys_readReg env o offset) fun _ => .pure hR ()
  | writeReg offset val => exact obeys_writeReg env o offset val

end Registers

/-- The calls are on the card, where its registers are behind the port. -/
def StaysOn (port : Int) (o : Onic) (new : List CardCall) (o' : Onic) : Prop :=
  o.configPortId = port → Stays port o new o'

theorem composes_staysOn (port : Int) : Composes (StaysOn port) := by
  refine ⟨fun o _ => (composes_stays port).refl o, fun {o o' o'' l l'} h h' hport => ?_⟩
  obtain ⟨rfl, hl⟩ := h hport
  exact (composes_stays port).trans ⟨rfl, hl⟩ (h' hport)

theorem obeys_use (r : Request) (env : Surroundings) (port : Int) (m : CardMember) :
    Obeys (StaysOn port) (use r env m) := by
  intro s
  obtain ⟨new, hcalls, hstays⟩ := obeys_perform env s.state r m s
  exact ⟨new, hcalls, fun hport => hport ▸ hstays⟩

/-- From the end of the ports' construction to the begin of the destructor. -/
def work (r : Request) (env : Surroundings) (members : List CardMember) : Life Unit := do
  bringUp r env
  members.forM (use r env)

theorem obeys_work (r : Request) (env : Surroundings) (port : Int) (members : List CardMember) :
    Obeys (StaysOn port) (work r env members) := by
  have hR := composes_staysOn port
  refine .bind hR (obeys_use r env port .initHardware) fun _ => ?_
  exact .forM hR members fun m _ => obeys_use r env port m

/-! ## The end of the ports -/

/-- What the destructor of a port does. -/
def destructCalls (s : Logged OnicPort PortCall) (ans : Answers) : List PortCall :=
  (if Member.Closes .destructor s ans then closeCalls s.state ans else [])
    ++ [.devRemove s.state.portId ans.devRemove]

section Destruction

variable {s : Logged OnicPort PortCall} {ans : Answers}

theorem destruct_run :
    ∃ p, OnicPort.destruct ans s = .ok () ⟨p, s.calls ++ destructCalls s ans⟩ := by
  rw [destructCalls, ← List.append_assoc]
  by_cases hcl : Member.Closes .destructor s ans
  · have hopen : s.state.pinfo.numQueues ≠ 0#32 := hcl.1
    refine ⟨s.state.shut, ?_⟩
    rw [if_pos hcl, OnicPort.destruct, bind_ok (run_get s)]
    simp only [if_pos hopen]
    rw [bind_ok (portClose_run hcl.2)]
    rfl
  · refine ⟨s.state, ?_⟩
    rw [if_neg hcl, List.append_nil, OnicPort.destruct, bind_ok (run_get s)]
    by_cases hopen : s.state.pinfo.numQueues ≠ 0#32
    · simp only [if_pos hopen]
      rw [bind_ok (portClose_skip fun h => hcl ⟨hopen, h⟩)]
      rfl
    · simp only [if_neg hopen]
      rfl

theorem devRemove_mem_destructCalls : .devRemove s.state.portId ans.devRemove
    ∈ destructCalls s ans := List.mem_append_right _ (List.mem_singleton_self _)

/-- A closed port accesses its registers before all else, and then no more. -/
theorem destructCalls_eq : ∃ rest, destructCalls s ans
      = (if Member.Closes .destructor s ans then markerCalls s.state ans else []) ++ rest
    ∧ ∀ c ∈ rest, c.accessed = none := by
  by_cases hcl : Member.Closes .destructor s ans
  · refine ⟨[.devStop s.state.portId, .devClose s.state.portId]
      ++ (if ans.poolFound then [.poolFree s.state.pinfo.memPool] else [])
      ++ [.devRemove s.state.portId ans.devRemove], ?_, fun c hc => ?_⟩
    · simp [destructCalls, closeCalls, hcl]
    · simp only [List.mem_append, List.mem_cons, List.not_mem_nil, or_false] at hc
      rcases hc with ((rfl | rfl) | hc) | rfl
      · rfl
      · rfl
      · split at hc
        · rw [List.mem_singleton.mp hc]
          rfl
        · cases hc
      · rfl
  · refine ⟨[.devRemove s.state.portId ans.devRemove], by simp [destructCalls, hcl], fun c hc => ?_⟩
    rw [List.mem_singleton.mp hc]
    rfl

theorem tearsDown_destructCalls {c : PortCall} {port : Int} (hc : c ∈ destructCalls s ans)
    (htears : c.tearsDown = some port) : port = s.state.portId := by
  rcases List.mem_append.mp hc with hc | hc
  · split at hc
    · exact PortLifeCycle.tearsDown_close hc htears
    · cases hc
  · rw [List.mem_singleton.mp hc] at htears
    exact (Option.some.inj htears).symm

/-- A port that is closed is neither started nor removed. -/
theorem notMem_closeCalls (port : Int) : .devStart port ∉ closeCalls s.state ans
    ∧ .devRemove port 0 ∉ closeCalls s.state ans := by
  have hmarker : ∀ c : PortCall, c.accessed = none → c ∉ markerCalls s.state ans :=
    fun c hnone hc => Option.some_ne_none _ ((accessed_markerCalls hc).symm.trans hnone)
  simp [closeCalls, hmarker (.devStart port) rfl, hmarker (.devRemove port 0) rfl]

theorem devStart_notMem_destructCalls (port : Int) : .devStart port ∉ destructCalls s ans := by
  intro hmem
  rcases List.mem_append.mp hmem with hc | hc
  · split at hc
    · exact (notMem_closeCalls port).1 hc
    · cases hc
  · cases List.mem_singleton.mp hc

theorem removed_destructCalls_iff (port : Int) : .devRemove port 0 ∈ destructCalls s ans
    ↔ s.state.portId = port ∧ ans.devRemove = 0 := by
  rw [destructCalls, List.mem_append, List.mem_singleton]
  split
  · simp [(notMem_closeCalls port).2, eq_comm]
  · simp [eq_comm]

end Destruction

/-- What the end of the ports below `n` does behind these calls, the last one first. -/
def tornCalls (env : Surroundings) (ports : Nat → OnicPort) : Nat → List PortCall → List PortCall
  | 0, _ => []
  | n + 1, calls =>
      let own := destructCalls ⟨ports n, calls⟩ (env.destroying n)
      own ++ tornCalls env ports n (calls ++ own)

section Torn

variable {env : Surroundings} {ports ports' : Nat → OnicPort} {n : Nat}

theorem tornCalls_congr (h : ∀ i < n, ports i = ports' i) (calls : List PortCall) :
    tornCalls env ports n calls = tornCalls env ports' n calls := by
  induction n generalizing calls with
  | zero => rfl
  | succ n ih =>
      rw [tornCalls, tornCalls, h n (Nat.lt_succ_self n),
        ih (fun i hi => h i (Nat.lt_succ_of_lt hi))]

theorem destroyPorts_run (n : Nat) (s : Logged Onic CardCall) :
    ∃ ports, (List.range n).reverse.forM (destroyPort env) s
      = .ok () ⟨{ s.state with ports := ports },
        s.calls ++ (tornCalls env s.state.ports n (portCalls s.calls)).map .port⟩ := by
  induction n generalizing s with
  | zero =>
      refine ⟨s.state.ports, ?_⟩
      rw [tornCalls, List.map_nil, List.append_nil]
      rfl
  | succ n ih =>
      obtain ⟨p, hdestruct⟩ := @destruct_run ⟨s.state.ports n, portCalls s.calls⟩
        (env.destroying n)
      have hport : destroyPort env n s = _ := onPort_run hdestruct
      obtain ⟨ports, hrest⟩ := ih ⟨{ s.state with
        ports := Function.update s.state.ports n p }, s.calls
          ++ (destructCalls ⟨s.state.ports n, portCalls s.calls⟩ (env.destroying n)).map .port⟩
      refine ⟨ports, ?_⟩
      rw [List.range_succ, List.reverse_append, List.reverse_singleton, List.singleton_append,
        forM_cons_ok hport, hrest, tornCalls, List.map_append, portCalls_append,
        portCalls_map_port, List.append_assoc, tornCalls_congr fun i hi =>
          Function.update_of_ne (Nat.ne_of_lt hi) p s.state.ports]

theorem devStart_notMem_tornCalls (n : Nat) (calls : List PortCall) (port : Int) :
    .devStart port ∉ tornCalls env ports n calls := by
  induction n generalizing calls with
  | zero => exact List.not_mem_nil
  | succ n ih =>
      rw [tornCalls, List.mem_append, not_or]
      exact ⟨devStart_notMem_destructCalls port, ih _⟩

theorem removed_tornCalls {i : Nat} (hi : i < n) (calls : List PortCall) :
    ∃ c ∈ tornCalls env ports n calls, c.tearsDown = some (ports i).portId := by
  induction n generalizing calls with
  | zero => exact absurd hi (Nat.not_lt_zero i)
  | succ n ih =>
      rw [tornCalls]
      rcases Nat.lt_succ_iff_lt_or_eq.mp hi with hlt | rfl
      · obtain ⟨c, hc, htears⟩ := ih hlt _
        exact ⟨c, List.mem_append_right _ hc, htears⟩
      · exact ⟨_, List.mem_append_left _ devRemove_mem_destructCalls, rfl⟩

end Torn

/-! ## The registers of a port that ends -/

/-- The card can reach the device: it has started it, as it was there. -/
def Started (r : Request) (calls : List PortCall) (port : Int) : Prop :=
  ∃ i < r.nbPorts, r.portIds i = port ∧ attached calls port = true

/-- The device of the port in place `i`; in a port that was not made it is what
the memory held. -/
def Request.deviceOf (r : Request) (o : Onic) (i : Nat) : Int :=
  if i < r.nbPorts then r.portIds i else (o.ports i).portId

/-- Its queues. -/
def Request.queuesOf (r : Request) (i : Nat) : BitVec 32 :=
  if i < r.nbPorts then (r.portInfos i).numQueues else BitVec.allOnes 32

/-- The port in place `i` accesses its registers when it is destroyed: it has
queues, and its device is a soft EQDMA that is there and was not removed with a
port destroyed before. -/
structure Marks (r : Request) (env : Surroundings) (s : Logged Onic CardCall) (i : Nat) :
    Prop where
  hasQueues : r.queuesOf i ≠ 0#32
  isThere : attached (portCalls s.calls) (r.deviceOf s.state i) = true
  notRemoved : ∀ k, i < k → k < P2pInspection.nbPorts →
    r.deviceOf s.state k = r.deviceOf s.state i → (env.destroying k).devRemove ≠ 0
  capabilities : 0 ≤ (env.destroying i).capabilities
  softEqdma : (env.destroying i).softEqdma = true

/-- The card has started its device, and no port destroyed before is on it. -/
def EndsLive (r : Request) (s : Logged Onic CardCall) (i : Nat) : Prop :=
  Started r (portCalls s.calls) (r.deviceOf s.state i)
    ∧ ∀ k, i < k → k < P2pInspection.nbPorts → r.deviceOf s.state k ≠ r.deviceOf s.state i

/-- Behind the end of the ports from `n` on: which devices are there, and which
ports are live of those that were so at first. -/
structure Between (r : Request) (env : Surroundings) (s : Logged Onic CardCall)
    (first : List CardCall) (n : Nat) (calls : List PortCall) (l : List CardCall) : Prop where
  attached_iff : ∀ port, attached calls port = true ↔ attached (portCalls s.calls) port = true
    ∧ ∀ k, n ≤ k → k < P2pInspection.nbPorts → r.deviceOf s.state k = port →
      (env.destroying k).devRemove ≠ 0
  live_iff : ∀ port, Live l port ↔ Live first port
    ∧ ∀ k, n ≤ k → k < P2pInspection.nbPorts → r.deviceOf s.state k ≠ port
  reset : ResetAsked r.config l

section Ending

variable {l : List CardCall}

theorem forall_from_iff {n N : Nat} {P : Nat → Prop} (hn : n < N) :
    (∀ k, n ≤ k → k < N → P k) ↔ P n ∧ ∀ k, n < k → k < N → P k := by
  constructor
  · exact fun h => ⟨h n (Nat.le_refl n) hn, fun k hk => h k (Nat.le_of_lt hk)⟩
  · rintro ⟨hfirst, hrest⟩ k hk hN
    rcases Nat.eq_or_lt_of_le hk with rfl | hk
    · exact hfirst
    · exact hrest k hk hN

theorem attached_append_iff {calls new : List PortCall} {port : Int} :
    attached (calls ++ new) port = true
      ↔ attached calls port = true ∧ .devRemove port 0 ∉ new := by
  simp [attached]

theorem ResetAsked.append {port : Int} (h : ResetAsked port l) (l' : List CardCall) :
    ResetAsked port (l ++ l') := by
  obtain ⟨bar, hmem⟩ := h
  exact ⟨bar, List.mem_append_left l' hmem⟩

/-- The accesses come first, so the port must be live before the end of it. -/
theorem orderly_destructCalls {port : Int} {s : Logged OnicPort PortCall} {ans : Answers}
    (hreset : ResetAsked port l) :
    Justified (fun l' => Orderly port (l ++ l')) ((destructCalls s ans).map .port)
      ↔ (Member.Closes .destructor s ans → ans.softEqdma = true → Live l s.state.portId) := by
  obtain ⟨rest, heq, hrest⟩ := @destructCalls_eq s ans
  rw [heq, List.map_append, justified_append_iff]
  constructor
  · rintro ⟨hmarker, -⟩ hcl hsoft
    rw [if_pos hcl, markerCalls, if_pos hsoft, List.map_cons, justified_cons_iff,
      List.append_nil] at hmarker
    exact hmarker.1.1 _ rfl
  · intro hlive
    constructor
    · intro pre c post hsplit
      have hmem : ∀ c' ∈ pre ++ c :: post, ∃ own ∈ markerCalls s.state ans, c' = .port own
          ∧ Member.Closes .destructor s ans := by
        intro c' hc'
        rw [← hsplit] at hc'
        obtain ⟨own, hown, rfl⟩ := List.mem_map.mp hc'
        split at hown
        · exact ⟨own, hown, rfl, ‹_›⟩
        · cases hown
      have hquiet : ∀ c' ∈ pre, tornDown c' = none ∧ c' ≠ .port (.devStart s.state.portId) := by
        intro c' hc'
        obtain ⟨own, hown, rfl, -⟩ := hmem c' (List.mem_append_left _ hc')
        refine ⟨quiet_of_accessed (accessed_markerCalls hown), fun hstart => ?_⟩
        cases CardCall.port.inj hstart
        cases accessed_markerCalls hown
      obtain ⟨own, hown, rfl, hcl⟩ := hmem c (List.mem_append_right _ List.mem_cons_self)
      have hacc := accessed_markerCalls hown
      have hsoft : ans.softEqdma = true := by
        by_contra hsoft
        rw [markerCalls, if_neg hsoft] at hown
        cases hown
      refine ⟨fun p hp => ?_, fun hdown => absurd (quiet_of_accessed hacc) hdown⟩
      obtain rfl := Option.some.inj (hacc.symm.trans hp)
      refine (live_append_iff fun hstart => (hquiet _ hstart).2 rfl).mpr
        ⟨hlive hcl hsoft, fun c' hc' hdown => ?_⟩
      rw [(hquiet c' hc').1] at hdown
      cases hdown
    · refine justified_of_forall fun pre c hc => ?_
      obtain ⟨own, hown, rfl⟩ := List.mem_map.mp hc
      refine ⟨fun p hp => ?_, fun _ => hreset.append _⟩
      cases (hrest own hown).symm.trans hp

variable {r : Request} {env : Surroundings} {s : Logged Onic CardCall}
variable {first : List CardCall} {n : Nat} {calls : List PortCall}

/-- One more port has ended. -/
theorem Between.step {p : OnicPort} (hp : p.portId = r.deviceOf s.state n)
    (hn : n < P2pInspection.nbPorts) (h : Between r env s first (n + 1) calls l) :
    Between r env s first n (calls ++ destructCalls ⟨p, calls⟩ (env.destroying n))
      (l ++ (destructCalls ⟨p, calls⟩ (env.destroying n)).map .port) := by
  refine ⟨fun port => ?there, fun port => ?live, h.reset.append _⟩
  case there =>
    rw [attached_append_iff, h.attached_iff, removed_destructCalls_iff, forall_from_iff hn, hp,
      and_assoc, not_and]
    exact and_congr_right fun _ => and_comm
  case live =>
    have hstart : .port (.devStart port)
        ∉ (destructCalls ⟨p, calls⟩ (env.destroying n)).map CardCall.port := by
      intro hmem
      obtain ⟨c, hc, heq⟩ := List.mem_map.mp hmem
      cases heq
      exact devStart_notMem_destructCalls port hc
    have htorn : (∀ c ∈ (destructCalls ⟨p, calls⟩ (env.destroying n)).map CardCall.port,
        tornDown c ≠ some port) ↔ r.deviceOf s.state n ≠ port := by
      rw [← hp]
      constructor
      · rintro hkept rfl
        exact hkept _ (List.mem_map_of_mem devRemove_mem_destructCalls) rfl
      · intro hne c hc hdown
        obtain ⟨own, hown, rfl⟩ := List.mem_map.mp hc
        exact hne (tearsDown_destructCalls hown hdown).symm
    rw [live_append_iff hstart, h.live_iff, htorn, forall_from_iff hn, and_assoc]
    exact and_congr_right fun _ => and_comm

theorem Between.closes_iff {p : OnicPort} (hp : p.portId = r.deviceOf s.state n)
    (hqueues : p.pinfo.numQueues = r.queuesOf n) (h : Between r env s first (n + 1) calls l) :
    Member.Closes .destructor ⟨p, calls⟩ (env.destroying n)
        ∧ (env.destroying n).softEqdma = true
      ↔ Marks r env s n := by
  have hthere : ¬detached ⟨p, calls⟩ ↔ attached calls (r.deviceOf s.state n) = true := by
    rw [detached, Bool.not_eq_false, hp]
  rw [Member.Closes, Member.EntersClose, hthere, h.attached_iff, hqueues]
  constructor
  · rintro ⟨⟨hq, ⟨hatt, hremoved⟩, hcap⟩, hsoft⟩
    exact ⟨hq, hatt, hremoved, hcap, hsoft⟩
  · intro hm
    exact ⟨⟨hm.hasQueues, ⟨hm.isThere, hm.notRemoved⟩, hm.capabilities⟩, hm.softEqdma⟩

/-- From the last port down. -/
theorem orderly_tornCalls {ports : Nat → OnicPort}
    (hports : ∀ i, (ports i).portId = r.deviceOf s.state i
      ∧ (ports i).pinfo.numQueues = r.queuesOf i)
    (hn : n ≤ P2pInspection.nbPorts) (h : Between r env s first n calls l) :
    Justified (fun l' => Orderly r.config (l ++ l')) ((tornCalls env ports n calls).map .port)
      ↔ ∀ i < n, Marks r env s i → Live first (r.deviceOf s.state i)
        ∧ ∀ k, i < k → k < P2pInspection.nbPorts → r.deviceOf s.state k ≠ r.deviceOf s.state i := by
  induction n generalizing calls l with
  | zero =>
      rw [tornCalls, List.map_nil]
      exact iff_of_true justified_nil nofun
  | succ n ih =>
      have hthis := h.closes_iff (hports n).1 (hports n).2
      have hrest := ih (Nat.le_of_succ_le hn) (h.step (hports n).1 hn)
      simp only [List.append_assoc] at hrest
      rw [tornCalls, List.map_append, justified_append_iff, hrest, orderly_destructCalls h.reset,
        ← and_imp, hthis, (hports n).1, h.live_iff, Nat.forall_lt_succ_right, and_comm]
      rfl

end Ending

/-! ## Lives -/

section Lives

variable (r : Request)

/-- The port of the registers is one of the card's own, and its device is there. -/
def Reachable (calls : List PortCall) : Prop := Started r calls r.config

/-- What a life does before its ports end: the ring, what is done to make the
ports, and the calls on the card. A life that ends while its ports are made has
none of these. -/
structure Lived (calls : List PortCall) (ring : CardCall) (made : List PortCall)
    (kept : List CardCall) : Prop where
  onHost : accessed ring = none ∧ portCall? ring = none
  quiet : ∀ c ∈ made, Quiet c ∧ c.accessed = none
  started : ∀ port, .devStart port ∈ made → Started r calls port
  complete : kept ≠ [] → ∀ port, Started r calls port → .devStart port ∈ made
  onCard : ∀ c ∈ kept, OnCard r.config c

variable {r} {calls : List PortCall} {ring : CardCall} {made : List PortCall}
variable {kept : List CardCall} {port : Int}

theorem tornDown_eq_none {c : CardCall} (h : portCall? c = none) : tornDown c = none := by
  rw [tornDown, h]
  rfl

/-- Up to the end of the ports nothing is torn down. -/
theorem Lived.tornDown_eq (h : Lived r calls ring made kept) {c : CardCall}
    (hc : c ∈ ring :: made.map .port ++ kept) : tornDown c = none := by
  rcases List.mem_append.mp hc with hc | hc
  · rcases List.mem_cons.mp hc with rfl | hc
    · exact tornDown_eq_none h.onHost.2
    · obtain ⟨own, hown, rfl⟩ := List.mem_map.mp hc
      exact (h.quiet own hown).1
  · exact tornDown_eq_none (h.onCard c hc).2

theorem Lived.start_mem (h : Lived r calls ring made kept) :
    .port (.devStart port) ∈ ring :: made.map .port ++ kept ↔ .devStart port ∈ made := by
  have hring : .port (.devStart port) ≠ ring := by
    rintro rfl
    cases h.onHost.2
  have hkept : .port (.devStart port) ∉ kept := fun hmem => nomatch (h.onCard _ hmem).2
  simp [hring, hkept]

theorem Lived.live_iff (h : Lived r calls ring made kept) :
    Live (ring :: made.map .port ++ kept) port ↔ .devStart port ∈ made :=
  ⟨fun hlive => h.start_mem.mp hlive.started,
    fun hmem => live_of_started (h.start_mem.mpr hmem) fun _ hc => h.tornDown_eq hc⟩

theorem Lived.live_iff_started (h : Lived r calls ring made kept) (hne : kept ≠ []) :
    Live (ring :: made.map .port ++ kept) port ↔ Started r calls port :=
  h.live_iff.trans ⟨h.started port, h.complete hne port⟩

theorem Lived.accessed_making (h : Lived r calls ring made kept) {c : CardCall}
    (hc : c ∈ ring :: made.map .port) : accessed c = none := by
  rcases List.mem_cons.mp hc with rfl | hc
  · exact h.onHost.1
  · obtain ⟨own, hown, rfl⟩ := List.mem_map.mp hc
    exact (h.quiet own hown).2

/-- The registers are accessed through the port of the card. -/
theorem Lived.orderly_iff (h : Lived r calls ring made kept) :
    Justified (Orderly r.config) (ring :: made.map .port ++ kept)
      ↔ Reachable r calls ∨ ∀ c ∈ ring :: made.map .port ++ kept, accessed c = none := by
  constructor
  · intro hjust
    by_cases hnone : ∀ c ∈ ring :: made.map .port ++ kept, accessed c = none
    · exact Or.inr hnone
    · simp only [not_forall] at hnone
      obtain ⟨c, hc, hsome⟩ := hnone
      obtain ⟨p, hp⟩ := Option.ne_none_iff_exists'.mp hsome
      have hkept : c ∈ kept := (List.mem_append.mp hc).resolve_left fun hmaking => hsome
        (h.accessed_making hmaking)
      obtain rfl := (h.onCard c hkept).1 p hp
      obtain ⟨pre, post, heq⟩ := List.append_of_mem hc
      have hlive := (hjust pre c post heq).1 _ hp
      have hstart : .port (.devStart r.config) ∈ ring :: made.map .port ++ kept := by
        rw [heq]
        exact List.mem_append_left _ hlive.started
      exact Or.inl (h.started _ (h.start_mem.mp hstart))
  · intro hside
    refine justified_append_iff.mpr ⟨?making, ?staying⟩
    case making =>
      refine justified_of_forall fun pre c hc => ⟨fun p hp => ?_, fun hdown => ?_⟩
      · cases (h.accessed_making hc).symm.trans hp
      · exact absurd (h.tornDown_eq (List.mem_append_left kept hc)) hdown
    case staying =>
      -- Nothing is torn down up to here, so a port that was started is live.
      intro pre c post heq
      have hc : c ∈ kept := heq ▸ List.mem_append_right pre List.mem_cons_self
      have hpre : ∀ c' ∈ pre, c' ∈ kept := fun c' hc' => heq ▸ List.mem_append_left _ hc'
      refine ⟨fun p hp => ?_, fun hdown => absurd (tornDown_eq_none (h.onCard c hc).2) hdown⟩
      obtain rfl := (h.onCard c hc).1 p hp
      have hreach : Reachable r calls := hside.resolve_right fun hnone => by
        cases (hnone c (List.mem_append_right _ hc)).symm.trans hp
      have hmade := h.complete (List.ne_nil_of_mem hc) _ hreach
      refine live_of_started (by simp [hmade]) fun c' hc' => h.tornDown_eq ?_
      exact List.append_subset.mpr ⟨List.subset_append_left _ kept,
        fun c hc => List.mem_append_right _ (hpre c hc)⟩ hc'

end Lives

/-- The object behind the ports' construction. -/
def configured (r : Request) (o : Onic) : Onic where
  ports := o.ports
  configPortId := r.config
  axilBarId := if r.axilBarId = -1 then (o.ports 0).pinfo.userBarIdx else r.axilBarId

def ringCall (r : Request) (env : Surroundings) : CardCall :=
  .ringCreate (toString env.ringId) ringSize (env.socketId (r.portIds 0))
    (ringFSpEnq ||| ringFScDeq)

theorem life_eq (r : Request) (env : Surroundings) (members : List CardMember) :
    life r env members = (do
      update fun o => { o with ports := fun i => unmade env (o.ports i) }
      call (ringCall r env)
      (List.range r.nbPorts).forM (makePort r env)
      update (configured r)
      work r env members
      destruct env) := by
  simp only [life, construct, work, bind_assoc]
  rfl

/-- The destructor up to the end of the ports. -/
def resetCalls (o : Onic) : List CardCall := [.print "ONIC: Reset Onic\n",
  .reg (.write o.configPortId o.axilBarId syscfgOffsetSystemReset 0x1#32)]

theorem cardDestruct_run (env : Surroundings) (s : Logged Onic CardCall) :
    ∃ s', destruct env s = .ok () s' ∧ s'.calls = s.calls ++ resetCalls s.state
      ++ (tornCalls env s.state.ports nbPorts (portCalls s.calls)).map .port := by
  obtain ⟨ports, hrun⟩ := @destroyPorts_run env nbPorts
    ⟨s.state, s.calls ++ resetCalls s.state⟩
  have hcalls : portCalls (s.calls ++ resetCalls s.state) = portCalls s.calls := by
    rw [portCalls_append]
    exact List.append_nil _
  rw [hcalls] at hrun
  refine ⟨_, Eq.trans ?_ hrun, rfl⟩
  rw [destruct, bind_ok (run_get s), onicLog, bind_ok (run_call s _), Onic.writeReg,
    bind_ok (run_call _ _), List.append_assoc]
  rfl

theorem resetCalls_onCard (o : Onic) : ∀ c ∈ resetCalls o, OnCard o.configPortId c := by
  intro c hc
  rcases List.mem_pair.mp hc with rfl | rfl
  · exact ⟨nofun, rfl⟩
  · exact ⟨fun p hp => (Option.some.inj hp).symm, rfl⟩

theorem portCalls_onCard {port : Int} {l : List CardCall} (h : ∀ c ∈ l, OnCard port c) :
    portCalls l = [] :=
  List.filterMap_eq_nil_iff.mpr fun c hc => (h c hc).2

/-- What a life does, and how it ends: before its ports, or with them. -/
structure Whole (r : Request) (env : Surroundings) (s : Logged Onic CardCall)
    (res : EStateM.Result Ending (Logged Onic CardCall) Unit) (made : List PortCall)
    (kept : List CardCall) (torn : List PortCall) : Prop where
  calls : (after res).calls = s.calls ++ ((ringCall r env :: made.map .port ++ kept)
    ++ torn.map .port)
  lived : Lived r (portCalls s.calls) (ringCall r env) made kept
  ending : (torn = [] ∧ ∀ u s', res ≠ .ok u s')
    ∨ (∃ u s', res = .ok u s') ∧ ResetAsked r.config kept ∧ ∃ ports : Nat → OnicPort,
      (∀ i, (ports i).portId = r.deviceOf s.state i ∧ (ports i).pinfo.numQueues = r.queuesOf i)
        ∧ torn = tornCalls env ports nbPorts (portCalls s.calls ++ made)

section Runs

variable (r : Request) (env : Surroundings) (s : Logged Onic CardCall)

/-- Behind the calls that make the ports. -/
def madeCalls : List PortCall :=
  (List.range r.nbPorts).flatMap (makeCalls r env (portCalls s.calls))

theorem devStart_mem_madeCalls {port : Int} :
    .devStart port ∈ madeCalls r env s ↔ Started r (portCalls s.calls) port := by
  simp only [madeCalls, Started, List.mem_flatMap, List.mem_range, devStart_mem_makeCalls]

theorem mem_madeCalls {c : PortCall} (hc : c ∈ madeCalls r env s) :
    Quiet c ∧ c.accessed = none := by
  obtain ⟨i, -, hi⟩ := List.mem_flatMap.mp hc
  exact mem_makeCalls r env hi

theorem lived_made {kept : List CardCall} (hkept : ∀ c ∈ kept, OnCard r.config c) :
    Lived r (portCalls s.calls) (ringCall r env) (madeCalls r env s) kept where
  onHost := ⟨rfl, rfl⟩
  quiet _ hc := mem_madeCalls r env s hc
  started _ := (devStart_mem_madeCalls r env s).mp
  complete _ _ := (devStart_mem_madeCalls r env s).mpr
  onCard := hkept

/-- The ports of a card that is made. -/
theorem madePorts {ports : Nat → OnicPort} (hmade : ∀ i ∈ List.range r.nbPorts, Made r i (ports i))
    (hother : ∀ i ∉ List.range r.nbPorts, ports i = unmade env (s.state.ports i)) (i : Nat) :
    (ports i).portId = r.deviceOf s.state i ∧ (ports i).pinfo.numQueues = r.queuesOf i := by
  rw [Request.deviceOf, Request.queuesOf]
  by_cases hi : i < r.nbPorts
  · rw [if_pos hi, if_pos hi]
    exact hmade i (List.mem_range.mpr hi)
  · rw [if_neg hi, if_neg hi, hother i fun hmem => hi (List.mem_range.mp hmem)]
    exact ⟨rfl, rfl⟩

/-- The life of a card from its ports on. -/
theorem workAndDestruct_whole (members : List CardMember) {s₁ : Logged Onic CardCall}
    (hconfig : s₁.state.configPortId = r.config)
    (hcalls : s₁.calls = s.calls ++ ringCall r env :: (madeCalls r env s).map .port)
    (hports : ∀ i, (s₁.state.ports i).portId = r.deviceOf s.state i
      ∧ (s₁.state.ports i).pinfo.numQueues = r.queuesOf i) :
    ∃ kept torn, Whole r env s ((work r env members >>= fun _ => destruct env) s₁)
      (madeCalls r env s) kept torn := by
  obtain ⟨kept, hkept, hstays⟩ := obeys_work r env r.config members s₁
  obtain ⟨hstate, honCard⟩ := hstays hconfig
  cases hwork : work r env members s₁ with
  | error e s₂ =>
      rw [hwork] at hkept
      rw [bind_error hwork]
      refine ⟨kept, [], ?_, lived_made r env s honCard, Or.inl ⟨rfl, nofun⟩⟩
      rw [hkept, hcalls]
      simp
  | ok u s₂ =>
      rw [hwork] at hkept hstate
      change s₂.state = s₁.state at hstate
      change s₂.calls = s₁.calls ++ kept at hkept
      obtain ⟨s₃, hrun, hend⟩ := cardDestruct_run env s₂
      rw [bind_ok hwork, hrun]
      have hreset := resetCalls_onCard s₁.state
      rw [hconfig] at hreset
      have hbefore : portCalls s₂.calls = portCalls s.calls ++ madeCalls r env s := by
        have hring : portCalls (ringCall r env :: (madeCalls r env s).map .port)
          = madeCalls r env s := portCalls_map_port _
        rw [hkept, portCalls_append, portCalls_onCard honCard, hcalls, portCalls_append, hring,
          List.append_nil]
      rw [hstate, hbefore] at hend
      have hcard : ∀ c ∈ kept ++ resetCalls s₁.state, OnCard r.config c := fun c hc =>
        (List.mem_append.mp hc).elim (honCard c) (hreset c)
      refine ⟨kept ++ resetCalls s₁.state, _, ?_, lived_made r env s hcard,
        Or.inr ⟨⟨u, s₃, rfl⟩, ?_, s₁.state.ports, hports, rfl⟩⟩
      · rw [after, hend, hkept, hcalls]
        simp
      · exact ⟨s₁.state.axilBarId, by simp [resetCalls, hconfig]⟩

/-- In every life of a card. -/
theorem life_whole (members : List CardMember) :
    ∃ made kept torn, Whole r env s (life r env members s) made kept torn := by
  obtain ⟨ports, ok, hmade, hother, hmake⟩ := scripted_makePorts r env (List.range r.nbPorts)
    ⟨{ s.state with ports := fun i => unmade env (s.state.ports i) },
      s.calls ++ [ringCall r env]⟩
  have hcalls : portCalls (s.calls ++ [ringCall r env]) = portCalls s.calls := by
    simp [portCalls, ringCall, portCall?]
  rw [hcalls] at hmake
  rw [life_eq, bind_ok (run_update s _), bind_ok (run_call _ (ringCall r env))]
  cases hmake with
  | @ends hfails e o made hmade' hrun =>
      obtain ⟨made, hfirst, rfl⟩ := List.prefix_map_iff.mp hmade'
      rw [bind_error hrun]
      refine ⟨made, [], [], by simp [after], ⟨⟨rfl, rfl⟩, fun c hc =>
        mem_madeCalls r env s (hfirst.subset hc), fun port hc =>
        (devStart_mem_madeCalls r env s).mp (hfirst.subset hc), nofun, nofun⟩,
        Or.inl ⟨rfl, nofun⟩⟩
  | returns hok hrun =>
      rw [bind_ok hrun, bind_ok (run_update _ _)]
      refine ⟨_, workAndDestruct_whole r env s members rfl ?_ (madePorts r env s hmade hother)⟩
      simp [madeCalls]

variable {r env s} {res : EStateM.Result Ending (Logged Onic CardCall) Unit}
variable {made torn : List PortCall} {kept : List CardCall}

/-- Where the ports have ended, the accesses of each were in its time. -/
theorem Whole.orderly_torn_iff (h : Whole r env s res made kept torn) :
    Justified (fun l => Orderly r.config ((ringCall r env :: made.map .port ++ kept) ++ l))
        (torn.map .port)
      ↔ ∀ u s', res = .ok u s' → ∀ i < P2pInspection.nbPorts,
        Marks r env s i → EndsLive r s i := by
  rcases h.ending with ⟨rfl, hno⟩ | ⟨⟨u, s', hok⟩, ⟨bar, hreset⟩, ports, hports, rfl⟩
  · exact iff_of_true justified_nil fun u s' hok => absurd hok (hno u s')
  · have hne : kept ≠ [] := List.ne_nil_of_mem hreset
    have hbetween : Between r env s (ringCall r env :: made.map .port ++ kept)
        P2pInspection.nbPorts (portCalls s.calls ++ made)
        (ringCall r env :: made.map .port ++ kept) := by
      have hfrom : ∀ {P : Nat → Prop},
          ∀ k, P2pInspection.nbPorts ≤ k → k < P2pInspection.nbPorts → P k :=
        fun k hk hlt => absurd hk (Nat.not_le_of_lt hlt)
      refine ⟨fun port => ?_, fun port => (and_iff_left hfrom).symm, bar,
        List.mem_append_right _ hreset⟩
      rw [PortLifeCycle.attached_append (PortLifeCycle.Quiet.notMem
        (fun c hc => (h.lived.quiet c hc).1) rfl)]
      exact (and_iff_left hfrom).symm
    rw [orderly_tornCalls hports (Nat.le_refl _) hbetween]
    simp only [h.lived.live_iff_started hne, EndsLive]
    exact ⟨fun hall _ _ _ => hall, fun hall => hall u s' hok⟩

/-- Where the ports have ended, the registers were accessed. -/
theorem Whole.none_accessed_iff (h : Whole r env s res made kept torn) :
    (∀ c ∈ (ringCall r env :: made.map .port ++ kept) ++ torn.map .port, accessed c = none)
      ↔ ∀ c ∈ ringCall r env :: made.map .port ++ kept, accessed c = none := by
  refine ⟨fun hall c hc => hall c (List.mem_append_left _ hc), fun hall c hc => ?_⟩
  rcases h.ending with ⟨rfl, -⟩ | ⟨-, ⟨bar, hreset⟩, -⟩
  · exact hall c ((List.mem_append.mp hc).resolve_right List.not_mem_nil)
  · cases hall _ (List.mem_append_right _ hreset)

theorem Whole.not_live (h : Whole r env s res made kept torn) {u : Unit}
    {s' : Logged Onic CardCall} (hok : res = .ok u s') (port : Int) :
    ¬Live ((ringCall r env :: made.map .port ++ kept) ++ torn.map .port) port := by
  rcases h.ending with ⟨-, hno⟩ | ⟨-, -, ports, hports, rfl⟩
  · exact absurd hok (hno u s')
  · intro hlive
    have hstart : .port (.devStart port) ∉ (tornCalls env ports P2pInspection.nbPorts
        (portCalls s.calls ++ made)).map CardCall.port := by
      intro hmem
      obtain ⟨c, hc, heq⟩ := List.mem_map.mp hmem
      cases heq
      exact devStart_notMem_tornCalls _ _ port hc
    obtain ⟨hfront, hkept⟩ := (live_append_iff hstart).mp hlive
    obtain ⟨i, hi, rfl, -⟩ := h.lived.started port (h.lived.live_iff.mp hfront)
    obtain ⟨c, hc, hdown⟩ := @removed_tornCalls env ports _ _
      (Nat.lt_of_lt_of_le hi r.fits) (portCalls s.calls ++ made)
    rw [(hports i).1, Request.deviceOf, if_pos hi] at hdown
    exact hkept _ (List.mem_map_of_mem hc) hdown

end Runs

/-- In every life the ports are torn down behind the reset, and those that were
started are torn down by a life that comes to its end. The registers are reached
through live ports exactly where the card can reach its own, or never accesses
any, and where each port that accesses its own when it ends is on a device that
the card has started and no port destroyed before is on. -/
theorem life_orderly_iff (r : Request) (env : Surroundings) (members : List CardMember)
    (s : Logged Onic CardCall) : ∃ new, (after (life r env members s)).calls = s.calls ++ new
      ∧ (Justified (Orderly r.config) new
        ↔ (Reachable r (portCalls s.calls) ∨ ∀ c ∈ new, accessed c = none)
          ∧ ∀ u s', life r env members s = .ok u s' → ∀ i < P2pInspection.nbPorts,
            Marks r env s i → EndsLive r s i)
      ∧ ∀ u s', life r env members s = .ok u s' → ∀ port, ¬Live new port := by
  obtain ⟨made, kept, torn, hwhole⟩ := life_whole r env s members
  refine ⟨_, hwhole.calls, ?_, fun u s' hok port => hwhole.not_live hok port⟩
  rw [justified_append_iff, hwhole.lived.orderly_iff, hwhole.orderly_torn_iff,
    hwhole.none_accessed_iff]

end CardLife

end P2pInspection
