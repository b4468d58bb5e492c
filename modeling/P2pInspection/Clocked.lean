/-!
# Clocked machines

A synchronous circuit with one clock: `step` is what an edge does to the
registers, given the inputs of that cycle. `stateAt` is the state after `n`
edges of an input stream.
-/

namespace Clocked

variable {S I : Type}

def stateAt (step : S → I → S) (s : S) (ins : Nat → I) : Nat → S
  | 0 => s
  | n + 1 => step (stateAt step s ins n) (ins n)

/-- What holds at the start and survives every edge holds after any number of
edges; the property may mention how many there were. -/
theorem stateAt_induct {step : S → I → S} {s : S} {ins : Nat → I} {P : Nat → S → Prop}
    (h0 : P 0 s) (hstep : ∀ n t, P n t → P (n + 1) (step t (ins n))) :
    ∀ n, P n (stateAt step s ins n)
  | 0 => h0
  | n + 1 => hstep n _ (stateAt_induct h0 hstep n)

theorem foldl_fixed {step : S → I → S} {t : S} (hfix : ∀ i, step t i = t) (l : List I) :
    l.foldl step t = t := by
  induction l with
  | nil => rfl
  | cons i rest ih => rw [List.foldl_cons, hfix, ih]

/-- A state reached after the first `k` edges that no edge leaves is the state
at the end. -/
theorem foldl_settles {step : S → I → S} {t : S} (hfix : ∀ i, step t i = t)
    {s : S} {l : List I} {k : Nat} (h : (l.take k).foldl step s = t) :
    l.foldl step s = t := by
  rw [← List.take_append_drop k l, List.foldl_append, h]
  exact foldl_fixed hfix _

end Clocked
