import P2pInspection.CallTrace

/-!
# Programs that follow a script

A program that makes its calls one after the other and ends as soon as one of
them fails has a script: the calls of the run in which none fails. Any other run
has made the first of these calls when it ends. `Scripted` says so of a program
begun in one state, with the condition under which nothing fails; its rules put
the scripts of the parts behind each other.
-/

namespace CallTrace

variable {ε σ κ α β : Type}

/-- From `s` the program makes the calls of the script. If nothing fails it
returns `a` in the state `st` behind all of them, otherwise it ends behind the
first of them. -/
inductive Scripted (m : Prog ε σ κ α) (s : Logged σ κ) (ok : Prop) (script : List κ) (a : α)
    (st : σ) : Prop
  | returns (hok : ok) (hrun : m s = .ok a ⟨st, s.calls ++ script⟩)
  | ends (hfails : ¬ok) {e : ε} {st' : σ} {made : List κ} (hmade : made <+: script)
      (hrun : m s = .error e ⟨st', s.calls ++ made⟩)

section Rules

variable {m : Prog ε σ κ α} {s : Logged σ κ} {script script' : List κ} {a : α} {st st' : σ}
variable {ok ok' : Prop}

theorem Scripted.pure (a : α) : Scripted (Pure.pure a : Prog ε σ κ α) s True [] a s.state :=
  .returns trivial (by rw [List.append_nil]; rfl)

theorem Scripted.throw (e : ε) (hfails : ¬ok) :
    Scripted (MonadExcept.throw e : Prog ε σ κ α) s ok script a st :=
  .ends hfails List.nil_prefix (by rw [List.append_nil]; rfl)

theorem Scripted.get : Scripted (MonadState.get : Prog ε σ κ (Logged σ κ)) s True [] s s.state :=
  .returns trivial (by rw [List.append_nil]; rfl)

theorem Scripted.call (c : κ) :
    Scripted (CallTrace.call c : Prog ε σ κ Unit) s True [c] () s.state := .returns trivial rfl

theorem Scripted.update (f : σ → σ) :
    Scripted (CallTrace.update f : Prog ε σ κ Unit) s True [] () (f s.state) :=
  .returns trivial (by rw [List.append_nil]; rfl)

theorem Scripted.bind {f : α → Prog ε σ κ β} {b : β} (hm : Scripted m s ok script a st)
    (hf : Scripted (f a) ⟨st, s.calls ++ script⟩ ok' script' b st') :
    Scripted (m >>= f) s (ok ∧ ok') (script ++ script') b st' := by
  cases hm with
  | ends hfails hmade hrun =>
      exact .ends (fun hok => hfails hok.1) (hmade.trans (List.prefix_append script script'))
        (bind_error hrun)
  | returns hok hrun =>
      cases hf with
      | returns hok' hrun' =>
          refine .returns ⟨hok, hok'⟩ ?_
          rw [bind_ok hrun, hrun', List.append_assoc]
      | @ends hfails e st'' made hmade' hrun' =>
          have hend : (m >>= f) s = .error e ⟨st'', s.calls ++ (script ++ made)⟩ := by
            rw [bind_ok hrun, hrun', List.append_assoc]
          exact .ends (fun hok => hfails hok.2)
            ((List.prefix_append_right_inj script).mpr hmade') hend

/-- Another program with the same run. -/
theorem Scripted.of_run {m' : Prog ε σ κ α} (h : Scripted m' s ok script a st)
    (hrun : m s = m' s) : Scripted m s ok script a st := by
  cases h with
  | returns hok hrun' => exact .returns hok (hrun.trans hrun')
  | ends hfails hmade hrun' => exact .ends hfails hmade (hrun.trans hrun')

/-- With the condition, the script and the state written in another way. -/
theorem Scripted.congr (h : Scripted m s ok script a st) (hok : ok ↔ ok')
    (hscript : script = script') (hst : st = st') : Scripted m s ok' script' a st' := by
  obtain rfl := propext hok
  subst hscript hst
  exact h

/-- A loop whose rounds leave the state as it is. -/
theorem Scripted.forM {body : β → Prog ε σ κ Unit} {made : β → List κ} {succeeds : β → Prop}
    {calls : List κ}
    (h : ∀ b calls, Scripted (body b) ⟨st, calls⟩ (succeeds b) (made b) () st) (l : List β) :
    Scripted (l.forM body) ⟨st, calls⟩ (∀ b ∈ l, succeeds b) (l.flatMap made) () st := by
  induction l generalizing calls with
  | nil => exact (Scripted.pure ()).congr (by simp) rfl rfl
  | cons b l ih => exact ((h b calls).bind ih).congr List.forall_mem_cons.symm rfl rfl

/-- The calls of any run are the first of the script. -/
theorem Scripted.calls (h : Scripted m s ok script a st) :
    ∃ new, (after (m s)).calls = s.calls ++ new ∧ new <+: script := by
  cases h with
  | returns hok hrun => exact ⟨script, by rw [hrun]; rfl, List.prefix_rfl⟩
  | @ends hfails e st' made hmade hrun => exact ⟨made, by rw [hrun]; rfl, hmade⟩

theorem Scripted.ok_iff (h : Scripted m s ok script a st) {b : α} {s' : Logged σ κ} :
    m s = .ok b s' ↔ ok ∧ b = a ∧ s' = ⟨st, s.calls ++ script⟩ := by
  cases h with
  | returns hok hrun =>
      rw [hrun]
      constructor
      · intro heq
        cases heq
        exact ⟨hok, rfl, rfl⟩
      · rintro ⟨-, rfl, rfl⟩
        rfl
  | ends hfails hmade hrun =>
      rw [hrun]
      exact ⟨nofun, fun hok => absurd hok.1 hfails⟩

end Rules

end CallTrace
