import P2pInspection.PortLifeCycle

/-!
# The lock of a port

Every operation that takes the lock of its object finds it free or waits for
ever, and releases it on every path that returns. So the lock is free between
the operations if it is free behind the constructor, which initialises the lock
of its parameter and not that of the object (`created`).
-/

namespace P2pInspection

open CallTrace OnicPort

namespace PortLock

/-- The lock of the object holds `v`. -/
def Holds (v : BitVec 32) (p : OnicPort) : Prop := p.pinfo.portUpdateLock = v

/-- It ends the process, if it ends at all without returning. -/
def NotSpinning (e : Ending) : Prop := e ≠ .spins

section Operations

variable {v : BitVec 32} (ans : Answers)

theorem triple_check (diag : Int) : Triple (Holds v) (check diag) (Holds v) NotSpinning :=
  .ite (.throw (by rintro ⟨⟩)) (.pure ())

theorem triple_setInfo {f : PortInfo → PortInfo}
    (hf : ∀ i, (f i).portUpdateLock = i.portUpdateLock) :
    Triple (Holds v) (setInfo f) (Holds v) NotSpinning :=
  .update fun p hv => (hf p.pinfo).trans hv

theorem triple_setupQueue (x : Nat) :
    Triple (Holds v) (setupQueue ans x) (Holds v) NotSpinning := by
  refine .bind .get fun s => .bind (.call _) fun _ => ?_
  refine .bind (triple_check _) fun _ => .bind (.call _) fun _ => ?_
  refine .bind (triple_check _) fun _ => .bind (.call _) fun _ => ?_
  exact triple_check _

theorem triple_configure : Triple (Holds v) (configure ans) (Holds v) NotSpinning := by
  refine .bind (triple_setInfo fun _ => rfl) fun _ => .bind (triple_check _) fun _ => ?_
  refine .bind .get fun s => .bind (.call _) fun _ => ?_
  refine .bind (triple_check _) fun _ => .bind (triple_check _) fun _ => ?_
  refine .bind (triple_setInfo fun _ => rfl) fun _ => ?_
  exact .forM _ fun x _ => triple_setupQueue ans x

theorem triple_launch : Triple (Holds v) (launch ans) (Holds v) NotSpinning := by
  refine .bind .get fun s => .bind (.call _) fun _ => .bind (triple_check _) fun _ => ?_
  exact .update fun _ hv => hv

theorem triple_portInit : Triple (Holds v) (portInit ans) (Holds v) NotSpinning := by
  refine .bind .get fun s => .ite (.pure _) ?_
  refine .bind (triple_setInfo fun _ => rfl) fun _ => .bind (.call _) fun _ => ?_
  refine .bind (triple_check _) fun _ => .bind (triple_configure ans) fun _ => ?_
  exact .bind (triple_launch ans) fun _ => .pure _

theorem triple_portClose : Triple (Holds v) (portClose ans) (Holds v) NotSpinning := by
  refine .of_run fun s hv => ?_
  by_cases hopen : ¬detached s ∧ 0 ≤ ans.capabilities
  · exact ⟨(), _, portClose_run hopen, hv⟩
  · exact ⟨(), s, portClose_skip hopen, hv⟩

theorem triple_construct : Triple (Holds v) (construct ans) (Holds v) NotSpinning :=
  .bind (triple_portInit ans) fun _ => .pure _

theorem triple_lock : Triple (Holds 0#32) lock (Holds 1#32) NotSpinning :=
  .of_run fun _ hfree => ⟨(), _, lock_run hfree, rfl⟩

theorem triple_unlock : Triple (Holds v) unlock (Holds 0#32) NotSpinning :=
  .of_run fun _ _ => ⟨(), _, rfl, rfl⟩

theorem triple_portReset : Triple (Holds 0#32) (portReset ans) (Holds 0#32) NotSpinning := by
  refine .bind .get fun s => .ite (.pure _) ?_
  refine .bind triple_lock fun _ => .bind (triple_portClose ans) fun _ => ?_
  refine .bind (.call _) fun _ => .ite ?_ ?_
  · exact .bind triple_unlock fun _ => .pure _
  · exact .bind (triple_portInit ans) fun _ => .bind triple_unlock fun _ => .pure _

theorem triple_portRemove : Triple (Holds 0#32) (portRemove ans) (Holds 0#32) NotSpinning := by
  refine .bind .get fun s => .ite (.pure _) ?_
  refine .bind triple_lock fun _ => .bind (triple_portClose ans) fun _ => ?_
  exact .bind (.call _) fun _ => .bind triple_unlock fun _ => .pure _

theorem triple_destruct : Triple (Holds 0#32) (destruct ans) (Holds 0#32) NotSpinning := by
  refine .bind .get fun s => ?_
  dsimp only
  exact .ite (.bind (triple_portClose ans) fun _ => .call _) (.call _)

theorem triple_perform (m : Member) :
    Triple (Holds 0#32) (m.perform ans) (Holds 0#32) NotSpinning := by
  cases m with
  | portReset => exact .bind (triple_portReset ans) fun _ => .pure _
  | portRemove => exact .bind (triple_portRemove ans) fun _ => .pure _
  | devResetCallback type =>
      exact .bind (.ite (.pure _) (triple_portReset ans)) fun _ => .pure _
  | devRemoveCallback type =>
      refine .bind (.ite (.pure _) ?_) fun _ => .pure _
      exact .bind (triple_portRemove ans) fun _ => .pure _
  | destructor => exact triple_destruct ans

end Operations

/-! ## Sequences of operations -/

/-- The constructor, and then these members, each with the answers of its calls. -/
def history (ans₀ : Answers) (seq : List (Member × Answers)) : Op Unit := do
  construct ans₀
  seq.forM fun x => x.1.perform x.2

theorem triple_history (ans₀ : Answers) (seq : List (Member × Answers)) :
    Triple (Holds 0#32) (history ans₀ seq) (Holds 0#32) NotSpinning :=
  .bind (triple_construct ans₀) fun _ => .forM seq fun x _ => triple_perform x.2 x.1

/-- The lock is free before every call of the sequence and behind every call
that returns, and no call waits for it for ever. -/
def FreeBetween (s : Logged OnicPort PortCall) (ans₀ : Answers)
    (seq : List (Member × Answers)) : Prop :=
  ∀ pre x post, seq = pre ++ x :: post →
    (∀ s', history ans₀ pre s = .ok () s' → s'.state.LockFree)
      ∧ (∀ s', history ans₀ (pre ++ [x]) s = .ok () s' → s'.state.LockFree)
      ∧ ∀ s', history ans₀ (pre ++ [x]) s ≠ .error .spins s'

section Sequences

variable (pinfo : PortInfo) (portId : Int) (bdf : BitVec 32 × BitVec 32 × BitVec 32)
variable (calls : List PortCall) (ans₀ : Answers) (seq : List (Member × Answers))

/-- On a constructed port, a sequence of calls finds the lock free exactly when
the `PortInfo` that was passed has a free lock. -/
theorem freeBetween_iff :
    FreeBetween ⟨created pinfo portId bdf, calls⟩ ans₀ seq ↔ seq = []
      ∨ (∃ e s, construct ans₀ ⟨created pinfo portId bdf, calls⟩ = .error e s)
      ∨ pinfo.portUpdateLock = 0#32 := by
  have hheld : Holds pinfo.portUpdateLock (created pinfo portId bdf) := rfl
  obtain ⟨hok, herror⟩ := triple_construct ans₀ ⟨created pinfo portId bdf, calls⟩ hheld
  constructor
  · intro hfree
    cases seq with
    | nil => exact Or.inl rfl
    | cons x seq =>
        refine Or.inr ?_
        cases hrun : construct ans₀ ⟨created pinfo portId bdf, calls⟩ with
        | error e s => exact Or.inl ⟨e, s, rfl⟩
        | ok a s =>
            have hbefore : s.state.LockFree :=
              (hfree [] x seq rfl).1 s ((bind_ok hrun).trans rfl)
            exact Or.inr ((hok a s hrun).symm.trans hbefore)
  · intro hcases pre x post heq
    rcases hcases with rfl | ⟨e, s, hrun⟩ | hzero
    · simp at heq
    · have hended : ∀ seq, history ans₀ seq ⟨created pinfo portId bdf, calls⟩ = .error e s :=
        fun seq => bind_error hrun
      refine ⟨fun s' hs' => ?_, fun s' hs' => ?_, fun s' hs' => ?_⟩
      · cases (hended pre).symm.trans hs'
      · cases (hended (pre ++ [x])).symm.trans hs'
      · cases (hended (pre ++ [x])).symm.trans hs'
        exact herror .spins s hrun rfl
    · have hpre := triple_history ans₀ pre ⟨created pinfo portId bdf, calls⟩ hzero
      have hpost := triple_history ans₀ (pre ++ [x]) ⟨created pinfo portId bdf, calls⟩ hzero
      refine ⟨hpre.1 (), hpost.1 (), fun s' hs' => ?_⟩
      exact hpost.2 .spins s' hs' rfl

end Sequences

/-- A port built from a `PortInfo` whose lock bytes were not cleared: its first
reset waits for ever. -/
theorem uncleared_spins :
    ¬FreeBetween ⟨created { PortLifeCycle.mainPort with portUpdateLock := 1#32 } 0
      (0#32, 0#32, 0#32), []⟩ PortLifeCycle.succeeding
      [(.portReset, PortLifeCycle.succeeding)] := by
  intro hfree
  have hbefore := (hfree [] (.portReset, PortLifeCycle.succeeding) [] rfl).1 _ rfl
  exact absurd hbefore (by decide +kernel)

end PortLock

end P2pInspection
