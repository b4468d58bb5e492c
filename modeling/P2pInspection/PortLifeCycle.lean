import Mathlib.Data.List.Induction
import Mathlib.Logic.Function.Basic
import P2pInspection.OnicPort
import P2pInspection.Transition

/-!
# The life cycle of a device port

Objects are constructed, copied, used and destroyed in any order; all of them
work on the same devices. A history of calls is well used when no port is
stopped or closed twice without a start in between, and none is torn down after
it was removed (`WellUsed`); an operation spares the others when it tears down
no port that another live object refers to. `lifeCycle_iff` says which
operations keep the two: the destructor removes the port of every object it
destroys, copies included, and does not stop at a port that is removed already.
-/

namespace P2pInspection

open CallTrace OnicPort Transition

/-- The live objects, the calls made on the devices, and whether an operation
ended the process or waits for ever. -/
structure World (Obj : Type) where
  objs : Obj → Option OnicPort
  calls : List PortCall
  ended : Option Ending

/-- A new object, a copy of a live one, or a member called on one; destroying is
calling the destructor. -/
inductive PortOp (Obj : Type) where
  | construct (o : Obj) (pinfo : PortInfo) (portId : Int)
      (bdf : BitVec 32 × BitVec 32 × BitVec 32) (ans : Answers)
  | copy (src dst : Obj)
  | run (o : Obj) (m : Member) (ans : Answers)

def PortOp.object {Obj : Type} : PortOp Obj → Obj
  | .construct o _ _ _ _ => o
  | .copy _ dst => dst
  | .run o _ _ => o

namespace PortLifeCycle

variable {Obj : Type} [DecidableEq Obj]

def start : World Obj := ⟨fun _ => none, [], none⟩

def step (w : World Obj) (op : PortOp Obj) : Option (World Obj) :=
  if w.ended.isSome then none
  else match op with
    | .construct o pinfo portId bdf ans =>
        if (w.objs o).isSome then none
        else
          let r := construct ans ⟨created pinfo portId bdf, w.calls⟩
          some ⟨Function.update w.objs o (some (after r).state), (after r).calls, ending r⟩
    | .copy src dst =>
        if (w.objs dst).isSome then none
        else (w.objs src).map fun p => { w with objs := Function.update w.objs dst (some p) }
    | .run o m ans =>
        (w.objs o).map fun p =>
          let r := m.perform ans ⟨p, w.calls⟩
          ⟨Function.update w.objs o (if m = .destructor then none else some (after r).state),
            (after r).calls, ending r⟩

/-! ## What is asked of the calls -/

/-- The calls since the port was last started: since it was attached anew. -/
def sinceStart (port : Int) (h : List PortCall) : List PortCall :=
  h.foldl (fun calls c => if c = .devStart port then [] else calls ++ [c]) []

/-- Behind the calls `h`, this one is not a second time and not too late. -/
def Allowed (h : List PortCall) : PortCall → Prop
  | .devStop port => attached h port = true ∧ .devStop port ∉ sinceStart port h
  | .devClose port => attached h port = true ∧ .devClose port ∉ sinceStart port h
  | .devRemove port _ => attached h port = true
  | _ => True

def WellUsed (h : List PortCall) : Prop := ∀ pre c post, h = pre ++ c :: post → Allowed pre c

/-- An object other than `o` refers to the port. -/
def ReferredElsewhere (w : World Obj) (o : Obj) (port : Int) : Prop :=
  ∃ o' p, o' ≠ o ∧ w.objs o' = some p ∧ p.portId = port

/-- The step tears down no port that another object refers to. -/
def SparesOthers (w : World Obj) (op : PortOp Obj) (w' : World Obj) : Prop :=
  ∀ c ∈ w'.calls.drop w.calls.length, ∀ port, c.tearsDown = some port →
    ¬ReferredElsewhere w op.object port

/-- The port was not stopped or closed since it was last started. -/
def Running (h : List PortCall) (port : Int) : Prop :=
  .devStop port ∉ sinceStart port h ∧ .devClose port ∉ sinceStart port h

/-- A member that stops the port finds it running, one that removes it finds it
attached, and either is called on the only object that refers to it. -/
def Proper (w : World Obj) : PortOp Obj → Prop
  | .run o m ans => ∀ p, w.objs o = some p →
      (m.Closes ⟨p, w.calls⟩ ans → Running w.calls p.portId)
      ∧ (m.Removes ⟨p, w.calls⟩ → attached w.calls p.portId = true)
      ∧ (m.Closes ⟨p, w.calls⟩ ans ∨ m.Removes ⟨p, w.calls⟩ →
          ¬ReferredElsewhere w o p.portId)
  | _ => True

/-! ## Histories -/

section Histories

variable {h l : List PortCall} {c : PortCall} {p : OnicPort} {port : Int}

theorem sinceStart_append (hl : .devStart port ∉ l) :
    sinceStart port (h ++ l) = sinceStart port h ++ l := by
  induction l using List.reverseRecOn with
  | nil => simp
  | append_singleton l c ih =>
      rw [List.mem_append, not_or, List.mem_singleton] at hl
      have hstep : sinceStart port (h ++ l ++ [c]) = sinceStart port (h ++ l) ++ [c] := by
        rw [sinceStart, List.foldl_append]
        exact if_neg (Ne.symm hl.2)
      rw [← List.append_assoc, hstep, ih hl.1, List.append_assoc]

theorem attached_append (hl : .devRemove port 0 ∉ l) :
    attached (h ++ l) port = attached h port := by
  simp [attached, hl]

theorem wellUsed_iff : WellUsed h ↔ Justified Allowed h := Iff.rfl

theorem wellUsed_nil : WellUsed [] := wellUsed_iff.mpr justified_nil

theorem wellUsed_snoc : WellUsed (h ++ [c]) ↔ WellUsed h ∧ Allowed h c := by
  rw [wellUsed_iff, justified_snoc_iff, wellUsed_iff]

theorem allowed_of_quiet (hc : Quiet c) : Allowed h c := by
  cases c with
  | devStop | devClose | devRemove => cases hc
  | _ => trivial

theorem wellUsed_append_quiet (hl : ∀ c ∈ l, Quiet c) : WellUsed (h ++ l) ↔ WellUsed h := by
  rw [wellUsed_iff, justified_append_iff, wellUsed_iff]
  exact and_iff_left (justified_of_forall fun pre c hc => allowed_of_quiet (hl c hc))

/-- Around the stop and the close there are only quiet calls, and no start. -/
theorem closeCalls_eq (p : OnicPort) (ans : Answers) : ∃ marker pool,
    closeCalls p ans = marker ++ [.devStop p.portId] ++ [.devClose p.portId] ++ pool
      ∧ (∀ c ∈ marker, Quiet c) ∧ (∀ c ∈ pool, Quiet c) ∧ .devStart p.portId ∉ marker := by
  refine ⟨markerCalls p ans, if ans.poolFound then [.poolFree p.pinfo.memPool] else [],
    by simp [closeCalls], fun c hc => quiet_of_accessed (accessed_markerCalls hc), ?_, ?_⟩
  · intro c hc
    split at hc
    · obtain rfl := List.mem_singleton.mp hc
      rfl
    · cases hc
  · intro hc
    cases accessed_markerCalls hc

theorem Quiet.notMem (hl : ∀ c ∈ l, Quiet c) (hc : c.tearsDown = some port) : c ∉ l := by
  intro hmem
  cases hc.symm.trans (hl c hmem)

/-- Stopping and closing an attached port is well used when it was running. -/
theorem wellUsed_close (hatt : attached h p.portId = true) (ans : Answers) :
    WellUsed (h ++ closeCalls p ans) ↔ WellUsed h ∧ Running h p.portId := by
  obtain ⟨marker, pool, heq, hmarker, hpool, hstart⟩ := closeCalls_eq p ans
  have hsince := sinceStart_append (h := h) hstart
  have hstop : .devStop p.portId ∉ marker := Quiet.notMem hmarker rfl
  have hclose : .devClose p.portId ∉ marker := Quiet.notMem hmarker rfl
  have hremove : .devRemove p.portId 0 ∉ marker := Quiet.notMem hmarker rfl
  have hsince' : sinceStart p.portId (h ++ marker ++ [.devStop p.portId])
      = sinceStart p.portId (h ++ marker) ++ [.devStop p.portId] :=
    sinceStart_append (by simp)
  have hatt' : attached (h ++ marker) p.portId = true := (attached_append hremove).trans hatt
  have hatt'' : attached (h ++ marker ++ [.devStop p.portId]) p.portId = true :=
    (attached_append (by simp)).trans hatt'
  rw [heq, ← List.append_assoc, ← List.append_assoc, ← List.append_assoc,
    wellUsed_append_quiet hpool, wellUsed_snoc, wellUsed_snoc, wellUsed_append_quiet hmarker,
    and_assoc]
  refine and_congr_right fun _ => ?_
  rw [Allowed, Allowed, hatt', hatt'', hsince', hsince, Running]
  simp [hstop, hclose]

theorem attached_close (ans : Answers) :
    attached (h ++ closeCalls p ans) p.portId = attached h p.portId := by
  obtain ⟨marker, pool, heq, hmarker, hpool, -⟩ := closeCalls_eq p ans
  refine attached_append ?_
  have hm : .devRemove p.portId 0 ∉ marker := Quiet.notMem hmarker rfl
  have hp : .devRemove p.portId 0 ∉ pool := Quiet.notMem hpool rfl
  simp [heq, hm, hp]

theorem tearsDown_close {ans : Answers} (hc : c ∈ closeCalls p ans)
    (htears : c.tearsDown = some port) : port = p.portId := by
  obtain ⟨marker, pool, heq, hmarker, hpool, -⟩ := closeCalls_eq p ans
  have hm := Quiet.notMem hmarker htears
  have hp := Quiet.notMem hpool htears
  simp only [heq, List.mem_append, List.mem_singleton, hm, hp, false_or, or_false] at hc
  rcases hc with rfl | rfl
  · exact (Option.some.inj htears).symm
  · exact (Option.some.inj htears).symm

end Histories

/-! ## One step -/

section Steps

variable {w w' : World Obj}

/-- What a step adds to the calls: nothing that tears down, or what its member
does to the port of the live object it is called on. -/
inductive Stepped (w w' : World Obj) : PortOp Obj → Prop
  | quiet {op : PortOp Obj} (hop : ∀ o m ans, op ≠ .run o m ans) (new : List PortCall)
      (hquiet : ∀ c ∈ new, Quiet c) (hcalls : w'.calls = w.calls ++ new) : Stepped w w' op
  | run {o : Obj} {m : Member} {ans : Answers} (p : OnicPort) (hlive : w.objs o = some p)
      (new : List PortCall) (hquiet : ∀ c ∈ new, Quiet c)
      (hcalls : w'.calls = w.calls
        ++ (if m.Closes ⟨p, w.calls⟩ ans then closeCalls p ans else [])
        ++ (if m.Removes ⟨p, w.calls⟩ then [.devRemove p.portId ans.devRemove] else [])
        ++ new) : Stepped w w' (.run o m ans)

theorem step_cases {op : PortOp Obj} (h : step w op = some w') : Stepped w w' op := by
  unfold step at h
  split at h
  · cases h
  · cases op with
    | construct o pinfo portId bdf ans =>
        simp only at h
        split at h
        · cases h
        · have hcalls := congrArg World.calls (Option.some.inj h)
          obtain ⟨new, hnew, hquiet⟩ := emits_construct ans ⟨created pinfo portId bdf, w.calls⟩
          exact .quiet (fun _ _ _ hop => nomatch hop) new hquiet (hcalls.symm.trans hnew)
    | copy src dst =>
        simp only at h
        split at h
        · cases h
        · obtain ⟨p, -, rfl⟩ := Option.map_eq_some_iff.mp h
          exact .quiet (fun _ _ _ hop => nomatch hop) [] nofun (List.append_nil _).symm
    | run o m ans =>
        obtain ⟨p, hlive, rfl⟩ := Option.map_eq_some_iff.mp h
        obtain ⟨new, hquiet, hcalls⟩ := perform_calls ⟨p, w.calls⟩ ans m
        exact .run p hlive new hquiet hcalls

omit [DecidableEq Obj] in
theorem attached_of_closes {m : Member} {p : OnicPort} {ans : Answers}
    (h : m.Closes ⟨p, w.calls⟩ ans) : attached w.calls p.portId = true := by
  have := h.2.1
  rwa [detached, Bool.not_eq_false] at this

omit [DecidableEq Obj] in
/-- A step keeps the calls well used when its member finds the port as it should. -/
theorem wellUsed_run {m : Member} {p : OnicPort} {ans : Answers} {new : List PortCall}
    (hquiet : ∀ c ∈ new, Quiet c)
    (hcalls : w'.calls = w.calls ++ (if m.Closes ⟨p, w.calls⟩ ans then closeCalls p ans else [])
      ++ (if m.Removes ⟨p, w.calls⟩ then [.devRemove p.portId ans.devRemove] else []) ++ new) :
    WellUsed w'.calls ↔ WellUsed w.calls
      ∧ (m.Closes ⟨p, w.calls⟩ ans → Running w.calls p.portId)
      ∧ (m.Removes ⟨p, w.calls⟩ → attached w.calls p.portId = true) := by
  have hclose : WellUsed (w.calls ++ if m.Closes ⟨p, w.calls⟩ ans then closeCalls p ans else [])
      ↔ WellUsed w.calls ∧ (m.Closes ⟨p, w.calls⟩ ans → Running w.calls p.portId) := by
    split
    · rename_i hcl
      rw [wellUsed_close (attached_of_closes hcl)]
      simp [hcl]
    · rename_i hcl
      simp [hcl]
  have hatt : attached (w.calls ++ if m.Closes ⟨p, w.calls⟩ ans then closeCalls p ans else [])
      p.portId = attached w.calls p.portId := by
    split
    · exact attached_close ans
    · rw [List.append_nil]
  rw [hcalls, wellUsed_append_quiet hquiet, ← and_assoc, ← hclose]
  by_cases hrm : m.Removes ⟨p, w.calls⟩
  · rw [if_pos hrm, wellUsed_snoc, Allowed, hatt]
    simp [hrm]
  · rw [if_neg hrm, List.append_nil]
    simp [hrm]

omit [DecidableEq Obj] in
/-- A step tears down the port of its object or none. -/
theorem sparesOthers_run {o : Obj} {m : Member} {p : OnicPort} {ans : Answers}
    {new : List PortCall} (hquiet : ∀ c ∈ new, Quiet c)
    (hcalls : w'.calls = w.calls ++ (if m.Closes ⟨p, w.calls⟩ ans then closeCalls p ans else [])
      ++ (if m.Removes ⟨p, w.calls⟩ then [.devRemove p.portId ans.devRemove] else []) ++ new) :
    SparesOthers w (.run o m ans) w'
      ↔ (m.Closes ⟨p, w.calls⟩ ans ∨ m.Removes ⟨p, w.calls⟩ →
          ¬ReferredElsewhere w o p.portId) := by
  have hnew : w'.calls.drop w.calls.length
      = (if m.Closes ⟨p, w.calls⟩ ans then closeCalls p ans else [])
        ++ (if m.Removes ⟨p, w.calls⟩ then [.devRemove p.portId ans.devRemove] else [])
        ++ new := by
    rw [hcalls, List.append_assoc, List.append_assoc, List.drop_left, List.append_assoc]
  constructor
  · intro hspares hdoes
    rcases hdoes with hcl | hrm
    · refine hspares (.devStop p.portId) ?_ p.portId rfl
      rw [hnew, if_pos hcl]
      simp [closeCalls]
    · refine hspares (.devRemove p.portId ans.devRemove) ?_ p.portId rfl
      rw [hnew, if_pos hrm]
      simp
  · intro halone c hc port htears
    rw [hnew, List.mem_append, List.mem_append] at hc
    rcases hc with (hc | hc) | hc
    · split at hc
      · rename_i hcl
        rw [tearsDown_close hc htears]
        exact halone (Or.inl hcl)
      · cases hc
    · split at hc
      · rename_i hrm
        obtain rfl := List.mem_singleton.mp hc
        obtain rfl := Option.some.inj htears
        exact halone (Or.inr hrm)
      · cases hc
    · cases htears.symm.trans (hquiet c hc)

/-- Proper steps, and only they, keep the calls well used and spare the others. -/
theorem step_iff {op : PortOp Obj} (h : step w op = some w') :
    WellUsed w'.calls ∧ SparesOthers w op w' ↔ WellUsed w.calls ∧ Proper w op := by
  cases step_cases h with
  | quiet hop new hquiet hcalls =>
      have hproper : Proper w op := by
        cases op with
        | run o m ans => exact absurd rfl (hop o m ans)
        | _ => trivial
      have hspares : SparesOthers w op w' := by
        intro c hc port htears
        rw [hcalls, List.drop_left] at hc
        cases htears.symm.trans (hquiet c hc)
      rw [hcalls, wellUsed_append_quiet hquiet]
      exact ⟨fun hboth => ⟨hboth.1, hproper⟩, fun hboth => ⟨hboth.1, hspares⟩⟩
  | @run o m ans p hlive new hquiet hcalls =>
      rw [wellUsed_run hquiet hcalls, sparesOthers_run hquiet hcalls, and_assoc]
      refine and_congr_right fun _ => ?_
      constructor
      · rintro ⟨⟨hcloses, hremoves⟩, halone⟩ q hq
        obtain rfl := Option.some.inj (hlive.symm.trans hq)
        exact ⟨hcloses, hremoves, halone⟩
      · intro hproper
        obtain ⟨hcloses, hremoves, halone⟩ := hproper p hlive
        exact ⟨⟨hcloses, hremoves⟩, halone⟩

end Steps

/-! ## Runs -/

theorem lifeCycle_decides : Decides (step : World Obj → PortOp Obj → Option (World Obj))
    (fun _ => True) (fun w => WellUsed w.calls) SparesOthers Proper := by
  refine ⟨fun _ _ _ _ _ => trivial, fun w op w' _ hused hproper h => ?_,
    fun w op w' _ hused hbad h hboth => ?_⟩
  · exact ((step_iff h).mpr ⟨hused, hproper⟩).symm
  · exact hbad ((step_iff h).mp hboth.symm).2

/-- Every run keeps the life cycle of the ports exactly when all its steps are
proper. -/
theorem lifeCycle_iff {w : World Obj} {tr : List (Taken (World Obj) (PortOp Obj))}
    (hrun : Run step start tr w) :
    Always (fun w => WellUsed w.calls) SparesOthers tr w ↔ ∀ t ∈ tr, Proper t.pre t.act :=
  hrun.always_iff lifeCycle_decides trivial wellUsed_nil

/-! ## Port 0, as `main` configures it -/

def mainPort : PortInfo where
  queueBase := 0#32
  numQueues := 2#32
  nbDescs := 1024#32
  stQueues := 2#32
  buffSize := 4096#32
  configBarIdx := 0
  userBarIdx := 2
  socketId := 0#32
  portUpdateLock := 0#32
  memPool := ""

/-- Every call succeeds. -/
def succeeding : Answers where
  barDetails := (0, 0, 2, 4)
  queueBase := (0, 0#32)
  bdf := (0#32, 0#32, 0#32)
  softEqdma := false

def constructPort (o : Obj) : PortOp Obj := .construct o mainPort 0 (0#32, 0#32, 0#32) succeeding

/-- A stats producer's copy is destroyed while the card's own object lives: the
port is stopped, closed and removed under it. And a port that was removed is
removed again when its object is destroyed. -/
theorem copy_and_removed_destroyed :
    (∃ tr w, Run step start tr w ∧ tr.map Taken.act
          = [constructPort (0 : Fin 2), .copy 0 1, .run 1 .destructor succeeding]
        ∧ ¬Always (fun w => WellUsed w.calls) SparesOthers tr w)
      ∧ ∃ tr w, Run step start tr w ∧ tr.map Taken.act
          = [constructPort (0 : Fin 2), .run 0 .portRemove succeeding,
            .run 0 .destructor succeeding]
        ∧ ¬Always (fun w => WellUsed w.calls) SparesOthers tr w := by
  constructor
  · have hrun : Run step start _ _ := ((Run.start.snoc (a := constructPort (0 : Fin 2)) rfl).snoc
      (a := .copy 0 1) rfl).snoc (a := .run 1 .destructor succeeding) rfl
    refine ⟨_, _, hrun, rfl, fun h => ?_⟩
    obtain ⟨-, hspares⟩ := h.1 _ (List.mem_append_right _ (List.mem_singleton_self _))
    exact hspares (.devStop 0) (by decide +kernel) 0 rfl ⟨0, _, by decide, rfl, rfl⟩
  · have hrun : Run step start _ _ := ((Run.start.snoc (a := constructPort (0 : Fin 2)) rfl).snoc
      (a := .run 0 .portRemove succeeding) rfl).snoc (a := .run 0 .destructor succeeding) rfl
    refine ⟨_, _, hrun, rfl, fun h => ?_⟩
    have hremove : attached _ 0 = true := h.2 _ (.devRemove 0 0) [] rfl
    exact absurd hremove (by decide +kernel)

/-- One object, constructed and destroyed. -/
theorem lifeCycle_iff_alone :
    ∃ tr w, Run step start tr w ∧ tr.map Taken.act
        = [constructPort (0 : Fin 2), .run 0 .destructor succeeding]
      ∧ Always (fun w => WellUsed w.calls) SparesOthers tr w := by
  have hrun : Run step start _ _ := (Run.start.snoc (a := constructPort (0 : Fin 2)) rfl).snoc
    (a := .run 0 .destructor succeeding) rfl
  refine ⟨_, _, hrun, rfl, (lifeCycle_iff hrun).mpr fun t ht => ?_⟩
  simp only [List.nil_append, List.cons_append, List.mem_cons, List.not_mem_nil, or_false] at ht
  obtain rfl | rfl := ht
  · trivial
  · intro p hlive
    obtain rfl := Option.some.inj hlive
    refine ⟨fun _ => ⟨by decide +kernel, by decide +kernel⟩, fun _ => by decide +kernel,
      fun _ helse => ?_⟩
    obtain ⟨o, q, hne, hq, -⟩ := helse
    obtain rfl : o = 1 := by omega
    cases hq

end PortLifeCycle

end P2pInspection
