/-!
# Programs that record their calls

A program works on a state of its own, records the calls it makes on something
outside, and may end everything instead of returning. `Obeys R` says that `R`
holds between the states before and behind it and the calls it makes, whichever
way it ends; the rules follow the constructs a program is built from, for any
`R` that composes. `Emits P` (all calls have `P`) and `Preserves f` (the state
is the same as far as `f` sees it) are of this kind. `Triple P m Q E` is about
the states before and behind a program that returns, and the endings of one
that does not; `Returns P m a Q` about its result and the calls on both sides of it.
-/

namespace CallTrace

/-- The program's own state, and the calls made so far, oldest first. -/
structure Logged (σ κ : Type) where
  state : σ
  calls : List κ

/-- `ε` says how a program ends that does not return. -/
abbrev Prog (ε σ κ α : Type) := EStateM ε (Logged σ κ) α

variable {ε σ κ α β : Type}

def call (c : κ) : Prog ε σ κ Unit := modify fun s => { s with calls := s.calls ++ [c] }

def update (f : σ → σ) : Prog ε σ κ Unit := modify fun s => { s with state := f s.state }

/-- Where the program returned or ended. -/
def after : EStateM.Result ε (Logged σ κ) α → Logged σ κ
  | .ok _ s => s
  | .error _ s => s

def ending : EStateM.Result ε (Logged σ κ) α → Option ε
  | .ok _ _ => none
  | .error e _ => some e

/-! ## Running one construct -/

section Running

variable (s : Logged σ κ)

@[simp] theorem run_pure (a : α) : (pure a : Prog ε σ κ α) s = .ok a s := rfl

@[simp] theorem run_throw (e : ε) : (throw e : Prog ε σ κ α) s = .error e s := rfl

@[simp] theorem run_get : (get : Prog ε σ κ (Logged σ κ)) s = .ok s s := rfl

@[simp] theorem run_call (c : κ) :
    (call c : Prog ε σ κ Unit) s = .ok () { s with calls := s.calls ++ [c] } := rfl

@[simp] theorem run_update (f : σ → σ) :
    (update f : Prog ε σ κ Unit) s = .ok () { s with state := f s.state } := rfl

theorem run_bind (m : Prog ε σ κ α) (f : α → Prog ε σ κ β) :
    (m >>= f) s = match m s with
      | .ok a s' => f a s'
      | .error e s' => .error e s' := by
  cases hrun : m s with
  | ok a s' => simp only [bind, EStateM.bind, hrun]
  | error e s' => simp only [bind, EStateM.bind, hrun]

theorem bind_ok {m : Prog ε σ κ α} {f : α → Prog ε σ κ β} {a : α} {s s' : Logged σ κ}
    (h : m s = .ok a s') : (m >>= f) s = f a s' := by
  rw [run_bind, h]

theorem bind_error {m : Prog ε σ κ α} {f : α → Prog ε σ κ β} {e : ε} {s s' : Logged σ κ}
    (h : m s = .error e s') : (m >>= f) s = .error e s' := by
  rw [run_bind, h]

theorem forM_cons_ok {body : β → Prog ε σ κ Unit} {b : β} {l : List β} {s s' : Logged σ κ}
    (h : body b s = .ok () s') : (b :: l).forM body s = l.forM body s' :=
  bind_ok h

/-- A loop whose rounds only make calls. -/
theorem forM_calls {body : β → Prog ε σ κ Unit} {made : β → List κ} {s : Logged σ κ}
    (h : ∀ b calls, body b ⟨s.state, calls⟩ = .ok () ⟨s.state, calls ++ made b⟩) (l : List β) :
    l.forM body s = .ok () ⟨s.state, s.calls ++ l.flatMap made⟩ := by
  obtain ⟨state, calls⟩ := s
  induction l generalizing calls with
  | nil => simp
  | cons b l ih =>
      rw [forM_cons_ok (h b calls), ih]
      · simp
      · exact h

/-- A program that can only return. -/
theorem run_of_empty (m : Prog Empty σ κ Unit) : m s = .ok () (after (m s)) := by
  cases m s with
  | ok u s' => rfl
  | error e s' => cases e

/-- Another result in place of the program's own. -/
theorem after_bind_pure (m : Prog ε σ κ α) (b : β) :
    after ((m >>= fun _ => pure b) s) = after (m s) := by
  rw [run_bind]
  cases m s <;> rfl

end Running

/-! ## What a program does, as a relation -/

/-- `R` relates a state, calls made from it on and the state behind them. It
holds where nothing was done, and of one stretch behind another. -/
structure Composes (R : σ → List κ → σ → Prop) : Prop where
  refl : ∀ s, R s [] s
  trans : ∀ {s s' s'' l l'}, R s l s' → R s' l' s'' → R s (l ++ l') s''

/-- Whichever way the program ends, `R` holds of the calls it made. -/
def Obeys (R : σ → List κ → σ → Prop) (m : Prog ε σ κ α) : Prop :=
  ∀ s, ∃ new, (after (m s)).calls = s.calls ++ new ∧ R s.state new (after (m s)).state

section Rules

variable {R : σ → List κ → σ → Prop} {m : Prog ε σ κ α}

theorem Obeys.pure (hR : Composes R) (a : α) : Obeys R (Pure.pure a : Prog ε σ κ α) :=
  fun s => ⟨[], (List.append_nil s.calls).symm, hR.refl s.state⟩

theorem Obeys.throw (hR : Composes R) (e : ε) :
    Obeys R (MonadExcept.throw e : Prog ε σ κ α) :=
  fun s => ⟨[], (List.append_nil s.calls).symm, hR.refl s.state⟩

theorem Obeys.get (hR : Composes R) : Obeys R (MonadState.get : Prog ε σ κ (Logged σ κ)) :=
  fun s => ⟨[], (List.append_nil s.calls).symm, hR.refl s.state⟩

theorem Obeys.update {f : σ → σ} (h : ∀ s, R s [] (f s)) :
    Obeys R (CallTrace.update f : Prog ε σ κ Unit) :=
  fun s => ⟨[], (List.append_nil s.calls).symm, h s.state⟩

theorem Obeys.call {c : κ} (h : ∀ s, R s [c] s) :
    Obeys R (CallTrace.call c : Prog ε σ κ Unit) :=
  fun s => ⟨[c], rfl, h s.state⟩

theorem Obeys.ite {p : Prop} [Decidable p] {m m' : Prog ε σ κ α} (h : Obeys R m)
    (h' : Obeys R m') : Obeys R (if p then m else m') := by
  split
  · exact h
  · exact h'

theorem Obeys.bind (hR : Composes R) {f : α → Prog ε σ κ β} (hm : Obeys R m)
    (hf : ∀ a, Obeys R (f a)) : Obeys R (m >>= f) := by
  intro s
  obtain ⟨new, hnew, hrel⟩ := hm s
  cases hrun : m s with
  | error e s' =>
      rw [bind_error hrun]
      rw [hrun] at hnew hrel
      exact ⟨new, hnew, hrel⟩
  | ok a s' =>
      rw [bind_ok hrun]
      rw [hrun] at hnew hrel
      obtain ⟨new', hnew', hrel'⟩ := hf a s'
      refine ⟨new ++ new', ?_, hR.trans hrel hrel'⟩
      rw [hnew', show s'.calls = s.calls ++ new from hnew, List.append_assoc]

theorem Obeys.forM (hR : Composes R) {body : β → Prog ε σ κ Unit} (l : List β)
    (h : ∀ b ∈ l, Obeys R (body b)) : Obeys R (l.forM body) := by
  induction l with
  | nil => exact Obeys.pure hR ()
  | cons b l ih =>
      refine Obeys.bind hR (h b List.mem_cons_self) fun _ => ih fun b' hb' => ?_
      exact h b' (List.mem_cons_of_mem b hb')

end Rules

/-! ## The calls a program makes -/

/-- Behind the calls made before, the program makes only calls with `P`. -/
def Emits (P : κ → Prop) (m : Prog ε σ κ α) : Prop :=
  ∀ s, ∃ new, (after (m s)).calls = s.calls ++ new ∧ ∀ c ∈ new, P c

theorem composes_calls (P : κ → Prop) :
    Composes (fun (_ : σ) new _ => ∀ c ∈ new, P c) := by
  refine ⟨fun _ => nofun, fun hl hl' c hc => ?_⟩
  rcases List.mem_append.mp hc with hc | hc
  · exact hl c hc
  · exact hl' c hc

section Rules

variable {P : κ → Prop} {m : Prog ε σ κ α}

theorem emits_iff : Emits P m ↔ Obeys (fun _ new _ => ∀ c ∈ new, P c) m := Iff.rfl

theorem Emits.pure (a : α) : Emits P (Pure.pure a : Prog ε σ κ α) :=
  emits_iff.mpr (.pure (composes_calls P) a)

theorem Emits.throw (e : ε) : Emits P (MonadExcept.throw e : Prog ε σ κ α) :=
  emits_iff.mpr (.throw (composes_calls P) e)

theorem Emits.get : Emits P (MonadState.get : Prog ε σ κ (Logged σ κ)) :=
  emits_iff.mpr (.get (composes_calls P))

theorem Emits.update (f : σ → σ) : Emits P (CallTrace.update f : Prog ε σ κ Unit) :=
  emits_iff.mpr (.update fun _ => nofun)

theorem Emits.call {c : κ} (h : P c) : Emits P (CallTrace.call c : Prog ε σ κ Unit) :=
  emits_iff.mpr (.call fun _ _ hc' => List.mem_singleton.mp hc' ▸ h)

theorem Emits.ite {p : Prop} [Decidable p] {m m' : Prog ε σ κ α} (h : Emits P m)
    (h' : Emits P m') : Emits P (if p then m else m') :=
  emits_iff.mpr (.ite (emits_iff.mp h) (emits_iff.mp h'))

theorem Emits.bind {f : α → Prog ε σ κ β} (hm : Emits P m) (hf : ∀ a, Emits P (f a)) :
    Emits P (m >>= f) :=
  emits_iff.mpr (.bind (composes_calls P) (emits_iff.mp hm) fun a => emits_iff.mp (hf a))

theorem Emits.forM {body : β → Prog ε σ κ Unit} (l : List β) (h : ∀ b ∈ l, Emits P (body b)) :
    Emits P (l.forM body) :=
  emits_iff.mpr (.forM (composes_calls P) l fun b hb => emits_iff.mp (h b hb))

end Rules

/-! ## What a program leaves as it is -/

/-- As far as `f` sees the state, the program leaves it as it was. -/
def Preserves {γ : Type} (f : σ → γ) (m : Prog ε σ κ α) : Prop :=
  Obeys (fun s _ s' => f s' = f s) m

section Rules

variable {γ : Type} {f : σ → γ} {m : Prog ε σ κ α}

theorem composes_kept (f : σ → γ) : Composes (fun s (_ : List κ) s' => f s' = f s) :=
  ⟨fun _ => rfl, fun h h' => h'.trans h⟩

theorem Preserves.state (h : Preserves f m) (s : Logged σ κ) :
    f (after (m s)).state = f s.state := by
  obtain ⟨-, -, hkept⟩ := h s
  exact hkept

end Rules

/-! ## Pre- and postconditions -/

/-- Begun where `P` holds, the program returns where `Q` holds or ends as `E` says. -/
def Triple (P : σ → Prop) (m : Prog ε σ κ α) (Q : σ → Prop) (E : ε → Prop) : Prop :=
  ∀ s, P s.state → (∀ a s', m s = .ok a s' → Q s'.state) ∧ ∀ e s', m s = .error e s' → E e

section Rules

variable {P Q R : σ → Prop} {E : ε → Prop} {m : Prog ε σ κ α}

theorem Triple.pure (a : α) : Triple P (Pure.pure a : Prog ε σ κ α) P E := by
  intro s hP
  refine ⟨fun a' s' hrun => ?_, fun e s' hrun => ?_⟩
  · cases hrun
    exact hP
  · cases hrun

theorem Triple.throw {e : ε} (h : E e) : Triple P (MonadExcept.throw e : Prog ε σ κ α) Q E := by
  intro s hP
  refine ⟨fun a s' hrun => ?_, fun e' s' hrun => ?_⟩
  · cases hrun
  · cases hrun
    exact h

theorem Triple.get : Triple P (MonadState.get : Prog ε σ κ (Logged σ κ)) P E := by
  intro s hP
  refine ⟨fun a s' hrun => ?_, fun e s' hrun => ?_⟩
  · cases hrun
    exact hP
  · cases hrun

theorem Triple.update {f : σ → σ} (h : ∀ s, P s → Q (f s)) :
    Triple P (CallTrace.update f : Prog ε σ κ Unit) Q E := by
  intro s hP
  refine ⟨fun a s' hrun => ?_, fun e s' hrun => ?_⟩
  · cases hrun
    exact h s.state hP
  · cases hrun

theorem Triple.call (c : κ) : Triple P (CallTrace.call c : Prog ε σ κ Unit) P E := by
  intro s hP
  refine ⟨fun a s' hrun => ?_, fun e s' hrun => ?_⟩
  · cases hrun
    exact hP
  · cases hrun

theorem Triple.ite {p : Prop} [Decidable p] {m m' : Prog ε σ κ α} (h : Triple P m Q E)
    (h' : Triple P m' Q E) : Triple P (if p then m else m') Q E := by
  split
  · exact h
  · exact h'

theorem Triple.bind {f : α → Prog ε σ κ β} (hm : Triple P m R E)
    (hf : ∀ a, Triple R (f a) Q E) : Triple P (m >>= f) Q E := by
  intro s hP
  obtain ⟨hok, herror⟩ := hm s hP
  cases hrun : m s with
  | ok a s' =>
      rw [bind_ok hrun]
      exact hf a s' (hok a s' hrun)
  | error e s' =>
      rw [bind_error hrun]
      refine ⟨fun b s'' hb => ?_, fun e' s'' he => ?_⟩
      · cases hb
      · cases he
        exact herror e s' hrun

theorem Triple.of_run (h : ∀ s, P s.state → ∃ a s', m s = .ok a s' ∧ Q s'.state) :
    Triple P m Q E := by
  intro s hP
  obtain ⟨a, s', hrun, hQ⟩ := h s hP
  rw [hrun]
  refine ⟨fun a' s'' hok => ?_, fun e s'' herror => ?_⟩
  · cases hok
    exact hQ
  · cases herror

/-- A loop invariant. -/
theorem Triple.forM {body : β → Prog ε σ κ Unit} (l : List β)
    (h : ∀ b ∈ l, Triple P (body b) P E) : Triple P (l.forM body) P E := by
  induction l with
  | nil => exact Triple.pure ()
  | cons b l ih =>
      refine Triple.bind (h b List.mem_cons_self) fun _ => ih fun b' hb' => ?_
      exact h b' (List.mem_cons_of_mem b hb')

end Rules

/-! ## Calls and those before them -/

/-- Every call has `P` together with the calls made before it. -/
def Justified (P : List κ → κ → Prop) (calls : List κ) : Prop :=
  ∀ pre c post, calls = pre ++ c :: post → P pre c

section Rules

variable {P : List κ → κ → Prop} {l l' : List κ} {c : κ}

@[simp] theorem justified_nil : Justified P [] := by
  intro pre c post heq
  simp at heq

@[simp] theorem justified_cons_iff :
    Justified P (c :: l) ↔ P [] c ∧ Justified (fun pre => P (c :: pre)) l := by
  constructor
  · intro h
    exact ⟨h [] c l rfl, fun pre c' post heq => h (c :: pre) c' post (by rw [heq]; rfl)⟩
  · rintro ⟨hc, hl⟩ pre c' post heq
    cases pre with
    | nil =>
        obtain ⟨rfl, -⟩ := List.cons.inj heq
        exact hc
    | cons c'' pre =>
        obtain ⟨rfl, htail⟩ := List.cons.inj heq
        exact hl pre c' post htail

theorem justified_append_iff :
    Justified P (l ++ l') ↔ Justified P l ∧ Justified (fun pre => P (l ++ pre)) l' := by
  induction l generalizing P with
  | nil => simp
  | cons c l ih => simp [ih, and_assoc]

theorem justified_snoc_iff : Justified P (l ++ [c]) ↔ Justified P l ∧ P l c := by
  simp [justified_append_iff]

theorem justified_of_forall (h : ∀ pre, ∀ c ∈ l, P pre c) : Justified P l := by
  rintro pre c post rfl
  exact h pre c (by simp)

theorem Justified.first (h : Justified P l) (hl : l' <+: l) : Justified P l' := by
  obtain ⟨post, rfl⟩ := hl
  exact (justified_append_iff.mp h).1

theorem Justified.mono {Q : List κ → κ → Prop} (h : Justified P l)
    (hPQ : ∀ pre c, P pre c → Q pre c) : Justified Q l :=
  fun pre c post heq => hPQ pre c (h pre c post heq)

end Rules

/-! ## Results -/

/-- Behind calls with `P` the program returns `a`, and the calls then have `Q`. -/
def Returns (P : List κ → Prop) (m : Prog ε σ κ α) (a : α) (Q : List κ → Prop) : Prop :=
  ∀ s, P s.calls → ∃ s', m s = .ok a s' ∧ Q s'.calls

section Rules

variable {P Q R : List κ → Prop} {m : Prog ε σ κ α}

theorem Returns.pure (a : α) : Returns P (Pure.pure a : Prog ε σ κ α) a P :=
  fun s hP => ⟨s, rfl, hP⟩

theorem Returns.call {c : κ} (h : ∀ calls, P calls → Q (calls ++ [c])) :
    Returns P (CallTrace.call c : Prog ε σ κ Unit) () Q :=
  fun s hP => ⟨_, rfl, h s.calls hP⟩

theorem Returns.bind {f : α → Prog ε σ κ β} {a : α} {b : β} (hm : Returns P m a Q)
    (hf : Returns Q (f a) b R) : Returns P (m >>= f) b R := by
  intro s hP
  obtain ⟨s', hrun, hQ⟩ := hm s hP
  obtain ⟨s'', hrun', hR⟩ := hf s' hQ
  exact ⟨s'', by rw [bind_ok hrun, hrun'], hR⟩

end Rules

end CallTrace
