/-!
# Runs of a transition system

A system is a partial step function: `step s a` is the state after action `a`,
or `none` where the action is not possible. A run keeps its transitions, so a
property can be asked of every state reached and of every step taken
(`Always`). `Run.always_iff` reduces such a question to single steps: if the
allowed steps keep the property and every other step breaks it, then it holds
along a run exactly when all steps of the run are allowed.
-/

namespace Transition

variable {S A : Type}

structure Taken (S A : Type) where
  pre : S
  act : A
  post : S

/-- The runs from `s₀`, with the steps they took, oldest first. -/
inductive Run (step : S → A → Option S) (s₀ : S) : List (Taken S A) → S → Prop
  | start : Run step s₀ [] s₀
  | snoc {tr : List (Taken S A)} {s : S} (h : Run step s₀ tr s) {a : A} {s' : S}
      (hstep : step s a = some s') : Run step s₀ (tr ++ [⟨s, a, s'⟩]) s'

/-- `P` in every state of the run, `Q` of every step. -/
def Always (P : S → Prop) (Q : S → A → S → Prop) (tr : List (Taken S A)) (s : S) : Prop :=
  (∀ t ∈ tr, P t.pre ∧ Q t.pre t.act t.post) ∧ P s

variable {step : S → A → Option S} {s₀ s : S} {tr : List (Taken S A)}

theorem Run.invariant {I : S → Prop} (h0 : I s₀)
    (hstep : ∀ s a s', I s → step s a = some s' → I s') (hrun : Run step s₀ tr s) : I s := by
  induction hrun with
  | start => exact h0
  | snoc _ hs ih => exact hstep _ _ _ ih hs

theorem forall_mem_snoc {α : Type} {R : α → Prop} {l : List α} {x : α} :
    (∀ y ∈ l ++ [x], R y) ↔ (∀ y ∈ l, R y) ∧ R x := by
  constructor
  · intro h
    exact ⟨fun y hy => h y (List.mem_append_left _ hy),
      h x (List.mem_append_right _ (List.mem_singleton_self x))⟩
  · rintro ⟨hl, hx⟩ y hy
    rcases List.mem_append.mp hy with hy | hy
    · exact hl y hy
    · obtain rfl := List.mem_singleton.mp hy
      exact hx

/-- What is known of a step: the invariant `I`, and `P` before it. The allowed
steps (`Ok`) keep `P` and have `Q`; every other step loses one of the two. -/
structure Decides (step : S → A → Option S) (I P : S → Prop) (Q : S → A → S → Prop)
    (Ok : S → A → Prop) : Prop where
  invariant : ∀ s a s', I s → step s a = some s' → I s'
  good : ∀ s a s', I s → P s → Ok s a → step s a = some s' → Q s a s' ∧ P s'
  bad : ∀ s a s', I s → P s → ¬Ok s a → step s a = some s' → ¬(Q s a s' ∧ P s')

theorem Run.always_iff {I P : S → Prop} {Q : S → A → S → Prop} {Ok : S → A → Prop}
    (hd : Decides step I P Q Ok) (hI : I s₀) (hP : P s₀) (hrun : Run step s₀ tr s) :
    Always P Q tr s ↔ ∀ t ∈ tr, Ok t.pre t.act := by
  induction hrun with
  | start =>
      constructor
      · rintro - t ht
        cases ht
      · intro _
        exact ⟨fun t ht => absurd ht List.not_mem_nil, hP⟩
  | @snoc tr s hrun a s' hs ih =>
      have hIs : I s := hrun.invariant hI hd.invariant
      constructor
      · rintro ⟨htr, hPs'⟩
        obtain ⟨hpre, hPs, hQ⟩ := forall_mem_snoc.mp htr
        refine forall_mem_snoc.mpr ⟨ih.mp ⟨hpre, hPs⟩, ?_⟩
        by_cases hok : Ok s a
        · exact hok
        · exact absurd ⟨hQ, hPs'⟩ (hd.bad s a s' hIs hPs hok hs)
      · intro hok
        obtain ⟨hpre, hlast⟩ := forall_mem_snoc.mp hok
        obtain ⟨hbefore, hPs⟩ := ih.mpr hpre
        obtain ⟨hQ, hPs'⟩ := hd.good s a s' hIs hPs hlast hs
        exact ⟨forall_mem_snoc.mpr ⟨hbefore, hPs, hQ⟩, hPs'⟩

end Transition
