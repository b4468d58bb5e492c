import P2pInspection.CallTrace

/-!
# Programs whose calls depend on the calls before

`Guarded J P m Q` follows the calls made since some point. Begun where they have
`P`, the program makes only calls that `J` allows behind those before them; where
it returns `a`, the calls have `Q a`. It says nothing about a program that ends,
beyond the calls it made until then.

`pollUntil` is a loop that reads until what it reads is `ready`, and does
something else in between. Such a loop need not end: the number of reads that a
run gets is an argument, `stuck` the ending of a run that needs more.
`Guarded.poll` says what is known behind the loop however often it reads, and
`Returns.poll` is the rule by which it returns.
-/

namespace CallTrace

variable {ε σ κ α β : Type}

def Guarded (J : List κ → κ → Prop) (P : List κ → Prop) (m : Prog ε σ κ α)
    (Q : α → List κ → Prop) : Prop :=
  ∀ s pre, P pre → ∃ new, (after (m s)).calls = s.calls ++ new
    ∧ Justified (fun l => J (pre ++ l)) new ∧ ∀ a s', m s = .ok a s' → Q a (pre ++ new)

/-! ## Rules -/

section Rules

variable {J : List κ → κ → Prop} {P P' : List κ → Prop} {Q Q' : α → List κ → Prop}
variable {m : Prog ε σ κ α}

theorem Guarded.pure {a : α} (h : ∀ l, P l → Q a l) :
    Guarded J P (Pure.pure a : Prog ε σ κ α) Q := by
  intro s pre hP
  refine ⟨[], (List.append_nil _).symm, justified_nil, fun a' s' hrun => ?_⟩
  cases hrun
  rw [List.append_nil]
  exact h pre hP

theorem Guarded.throw (e : ε) : Guarded J P (MonadExcept.throw e : Prog ε σ κ α) Q := by
  intro s pre _
  refine ⟨[], (List.append_nil _).symm, justified_nil, fun a s' hrun => ?_⟩
  cases hrun

theorem Guarded.get :
    Guarded J P (MonadState.get : Prog ε σ κ (Logged σ κ)) fun _ => P := by
  intro s pre hP
  refine ⟨[], (List.append_nil _).symm, justified_nil, fun a s' hrun => ?_⟩
  rw [List.append_nil]
  exact hP

theorem Guarded.call {c : κ} {Q : Unit → List κ → Prop} (hJ : ∀ l, P l → J l c)
    (hQ : ∀ l, P l → Q () (l ++ [c])) :
    Guarded J P (CallTrace.call c : Prog ε σ κ Unit) Q := by
  intro s pre hP
  refine ⟨[c], rfl, ?_, fun a s' hrun => ?_⟩
  · rw [justified_cons_iff, List.append_nil]
    exact ⟨hJ pre hP, justified_nil⟩
  · exact hQ pre hP

theorem Guarded.bind {f : α → Prog ε σ κ β} {R : β → List κ → Prop} (hm : Guarded J P m Q)
    (hf : ∀ a, Guarded J (Q a) (f a) R) : Guarded J P (m >>= f) R := by
  intro s pre hP
  obtain ⟨new, hnew, hjust, hres⟩ := hm s pre hP
  cases hrun : m s with
  | error e s' =>
      rw [bind_error hrun]
      rw [hrun] at hnew
      refine ⟨new, hnew, hjust, fun b s'' hb => ?_⟩
      cases hb
  | ok a s' =>
      rw [bind_ok hrun]
      rw [hrun] at hnew
      obtain ⟨new', hnew', hjust', hres'⟩ := hf a s' (pre ++ new) (hres a s' hrun)
      refine ⟨new ++ new', ?_, ?_, fun b s'' hb => ?_⟩
      · rw [hnew', show s'.calls = s.calls ++ new from hnew, List.append_assoc]
      · refine justified_append_iff.mpr ⟨hjust, hjust'.mono fun l c hJ => ?_⟩
        rw [← List.append_assoc]
        exact hJ
      · rw [← List.append_assoc]
        exact hres' b s'' hb

theorem Guarded.ite {p : Prop} [Decidable p] {m m' : Prog ε σ κ α}
    (h : p → Guarded J P m Q) (h' : ¬p → Guarded J P m' Q) :
    Guarded J P (if p then m else m') Q := by
  split
  · exact h ‹_›
  · exact h' ‹_›

theorem Guarded.conseq (h : Guarded J P m Q) (hP : ∀ l, P' l → P l)
    (hQ : ∀ a l, Q a l → Q' a l) : Guarded J P' m Q' := by
  intro s pre hP'
  obtain ⟨new, hnew, hjust, hres⟩ := h s pre (hP pre hP')
  exact ⟨new, hnew, hjust, fun a s' hrun => hQ a _ (hres a s' hrun)⟩

/-- A loop invariant. -/
theorem Guarded.forM {body : β → Prog ε σ κ Unit} (l : List β)
    (h : ∀ b ∈ l, Guarded J P (body b) fun _ => P) :
    Guarded J P (l.forM body) fun _ => P := by
  induction l with
  | nil => exact Guarded.pure fun _ hP => hP
  | cons b l ih =>
      refine Guarded.bind (h b List.mem_cons_self) fun _ => ih fun b' hb' => ?_
      exact h b' (List.mem_cons_of_mem b hb')

/-- What the calls of a program were allowed for, from where it began. -/
theorem Guarded.justified (h : Guarded J P m Q) (hP : P []) (s : Logged σ κ) :
    ∃ new, (after (m s)).calls = s.calls ++ new ∧ Justified J new := by
  obtain ⟨new, hnew, hjust, -⟩ := h s [] hP
  exact ⟨new, hnew, hjust⟩

end Rules

/-! ## Polling -/

section Polling

variable (stuck : ε) (read : Prog ε σ κ α) (ready : α → Prop) [DecidablePred ready]
variable (wait : Prog ε σ κ Unit)

/-- `while (!ready(read())) wait();`, as far as `tries` reads go. -/
def pollUntil : Nat → Prog ε σ κ Unit
  | 0 => throw stuck
  | tries + 1 => do
      let a ← read
      if ready a then return ()
      else
        wait
        pollUntil tries

variable {stuck read ready wait}

/-- Behind the loop, what was read last was ready. -/
theorem Guarded.poll {J : List κ → κ → Prop} {I : List κ → Prop} {R : α → List κ → Prop}
    {Q : Unit → List κ → Prop} (hread : Guarded J I read R)
    (hdone : ∀ a l, ready a → R a l → Q () l)
    (hwait : ∀ a, ¬ready a → Guarded J (R a) wait fun _ => I) (tries : Nat) :
    Guarded J I (pollUntil stuck read ready wait tries) Q := by
  induction tries with
  | zero => exact Guarded.throw stuck
  | succ tries ih =>
      refine hread.bind fun a => Guarded.ite (fun hready => ?_) fun hready => ?_
      · exact Guarded.pure fun l hR => hdone a l hready hR
      · exact (hwait a hready).bind fun _ => ih

theorem Obeys.poll {R : σ → List κ → σ → Prop} (hR : Composes R) (hread : Obeys R read)
    (hwait : Obeys R wait) (tries : Nat) : Obeys R (pollUntil stuck read ready wait tries) := by
  induction tries with
  | zero => exact .throw hR stuck
  | succ tries ih => exact .bind hR hread fun a => .ite (.pure hR ()) (.bind hR hwait fun _ => ih)

theorem Returns.conseq {P P' Q Q' : List κ → Prop} {m : Prog ε σ κ α} {a : α}
    (h : Returns P m a Q) (hP : ∀ l, P' l → P l) (hQ : ∀ l, Q l → Q' l) :
    Returns P' m a Q' := by
  intro s hP'
  obtain ⟨s', hrun, hs'⟩ := h s (hP s.calls hP')
  exact ⟨s', hrun, hQ _ hs'⟩

/-- `I n` holds where at most `n` reads are answered by something else. -/
theorem Returns.poll {I : Nat → List κ → Prop} {Q : List κ → Prop}
    (hround : ∀ n s, I n s.calls → ∃ a s', read s = .ok a s'
      ∧ (ready a ∧ Q s'.calls
        ∨ ¬ready a ∧ ∃ s'' k, wait s' = .ok () s'' ∧ n = k + 1 ∧ I k s''.calls))
    {n tries : Nat} (hlt : n < tries) :
    Returns (I n) (pollUntil stuck read ready wait tries) () Q := by
  induction tries generalizing n with
  | zero => exact absurd hlt (Nat.not_lt_zero n)
  | succ tries ih =>
      intro s hI
      obtain ⟨a, s', hread, ⟨hready, hQ⟩ | ⟨hready, s'', k, hwait, rfl, hk⟩⟩ := hround n s hI
      · refine ⟨s', ?_, hQ⟩
        rw [pollUntil, bind_ok hread, if_pos hready]
        rfl
      · obtain ⟨s₃, hrun, hQ⟩ := ih (Nat.lt_of_succ_lt_succ hlt) s'' hk
        refine ⟨s₃, ?_, hQ⟩
        rw [pollUntil, bind_ok hread, if_neg hready, bind_ok hwait]
        exact hrun

end Polling

end CallTrace
