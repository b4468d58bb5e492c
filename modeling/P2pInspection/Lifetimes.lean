import P2pInspection.CallTrace

/-!
# The lifetimes of things that calls make and free

Some calls make a thing, some free one, and a call may use things that were made
before; freeing is a use as well. A history is well used when every use is of a
thing that is live then: made, and not freed. It is clean when besides nothing
that was made is left.
-/

namespace CallTrace

/-- What a call makes, what it frees, and what it uses, that included. -/
structure Lifetimes (κ ρ : Type) where
  makes : κ → Option ρ
  frees : κ → Option ρ
  uses : κ → List ρ
  frees_uses : ∀ c, ∀ r ∈ frees c, r ∈ uses c

namespace Lifetimes

variable {κ ρ : Type} (L : Lifetimes κ ρ)

def made (l : List κ) : List ρ := l.filterMap L.makes
def freed (l : List κ) : List ρ := l.filterMap L.frees

def Live (l : List κ) (r : ρ) : Prop := r ∈ L.made l ∧ r ∉ L.freed l

instance [DecidableEq ρ] (l : List κ) (r : ρ) : Decidable (L.Live l r) :=
  inferInstanceAs (Decidable (_ ∧ _))

def WellUsed (l : List κ) : Prop := Justified (fun pre c => ∀ r ∈ L.uses c, L.Live pre r) l

def Clean (l : List κ) : Prop := L.WellUsed l ∧ ∀ r, ¬L.Live l r

section Rules

variable {L} {l l' : List κ} {r : ρ}

@[simp] theorem made_append : L.made (l ++ l') = L.made l ++ L.made l' := List.filterMap_append

@[simp] theorem freed_append : L.freed (l ++ l') = L.freed l ++ L.freed l' := List.filterMap_append

/-- Behind calls that neither make it nor free it. -/
theorem live_append_iff (hmade : r ∉ L.made l') (hfreed : r ∉ L.freed l') :
    L.Live (l ++ l') r ↔ L.Live l r := by
  simp [Live, hmade, hfreed]

theorem not_live_of_freed (h : r ∈ L.freed l') : ¬L.Live (l ++ l') r := by
  rintro ⟨-, hfreed⟩
  exact hfreed (by simp [h])

theorem wellUsed_append_iff : L.WellUsed (l ++ l')
    ↔ L.WellUsed l ∧ Justified (fun pre c => ∀ r ∈ L.uses c, L.Live (l ++ pre) r) l' :=
  justified_append_iff

theorem WellUsed.left (h : L.WellUsed (l ++ l')) : L.WellUsed l := (wellUsed_append_iff.mp h).1

/-- What is freed was made. -/
theorem WellUsed.made_of_freed (h : L.WellUsed l) (hr : r ∈ L.freed l) : r ∈ L.made l := by
  obtain ⟨c, hc, hfrees⟩ := List.mem_filterMap.mp hr
  obtain ⟨pre, post, rfl⟩ := List.append_of_mem hc
  have hlive := h pre c post rfl r (L.frees_uses c r hfrees)
  rw [made_append]
  exact List.mem_append_left _ hlive.1

/-- What is new is not freed either. -/
theorem WellUsed.live_new (h : L.WellUsed l) (hnew : r ∉ L.made l) (hmade : r ∈ L.made l')
    (hfreed : r ∉ L.freed l') : L.Live (l ++ l') r := by
  refine ⟨?_, ?_⟩
  · rw [made_append]
    exact List.mem_append_right _ hmade
  · rw [freed_append, List.mem_append]
    rintro (hold | hold)
    · exact hnew (h.made_of_freed hold)
    · exact hfreed hold

/-- Behind a well-used history, calls that free nothing and use only what they
have made themselves. -/
theorem WellUsed.append_new (h : L.WellUsed l) (hfresh : ∀ r ∈ L.made l', r ∉ L.made l)
    (hfreed : L.freed l' = [])
    (hordered : Justified (fun pre c => ∀ r ∈ L.uses c, r ∈ L.made pre) l') :
    L.WellUsed (l ++ l') := by
  refine wellUsed_append_iff.mpr ⟨h, ?_⟩
  rintro pre c post rfl r hr
  have hmade := hordered pre c post rfl r hr
  rw [freed_append] at hfreed
  refine h.live_new (hfresh r ?_) hmade ?_
  · rw [made_append]
    exact List.mem_append_left _ hmade
  · rw [(List.append_eq_nil_iff.mp hfreed).1]
    exact List.not_mem_nil

end Rules

end Lifetimes

end CallTrace
