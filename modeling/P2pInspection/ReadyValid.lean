import Mathlib.Logic.Basic

/-!
# Ready/valid channels over time

A channel is given by what its wires carry in each cycle. `Holds` is the rule
of a source: what is offered and not taken is offered again, unchanged.
`stable_iff` reduces "a word does not change while it waits" to two successive
cycles.

`rewritten` is a channel whose data wires pass through combinational logic that
looks at the handshake. `Holds.stable_rewritten_iff` says when the stability of
the source survives this.
-/

namespace ReadyValid

variable {β γ : Type}

@[ext]
structure Channel (β : Type) where
  tvalid : Nat → Bool
  tready : Nat → Bool
  tdata : Nat → β

namespace Channel

def stalled (c : Channel β) (n : Nat) : Bool := c.tvalid n && !c.tready n

def accepted (c : Channel β) (n : Nat) : Bool := c.tvalid n && c.tready n

def Holds (c : Channel β) : Prop :=
  ∀ n, c.stalled n = true → c.tvalid (n + 1) = true ∧ c.tdata (n + 1) = c.tdata n

/-- A word offered in cycle `n` and stalled for `k` cycles is still the same
word in the cycle behind these, in which it may be accepted. -/
def Stable (c : Channel β) : Prop :=
  ∀ n k, (∀ j < k, c.stalled (n + j) = true) → c.tdata (n + k) = c.tdata n

theorem stable_iff (c : Channel β) :
    c.Stable ↔ ∀ n, c.stalled n = true → c.tdata (n + 1) = c.tdata n := by
  constructor
  · intro h n hn
    refine h n 1 fun j hj => ?_
    obtain rfl := Nat.lt_one_iff.mp hj
    exact hn
  · intro h n k
    induction k with
    | zero => exact fun _ => rfl
    | succ k ih =>
        intro hstalled
        have hlast := h (n + k) (hstalled k (Nat.lt_succ_self k))
        exact hlast.trans (ih fun j hj => hstalled j (Nat.lt_succ_of_lt hj))

/-- The data of `c` behind logic that passes `g b` on, but `f n b` in the cycle
of the transfer. -/
def rewritten (c : Channel β) (g : β → γ) (f : Nat → β → γ) : Channel γ where
  tvalid := c.tvalid
  tready := c.tready
  tdata n := if c.accepted n then f n (c.tdata n) else g (c.tdata n)

variable {c : Channel β} (g : β → γ) (f : Nat → β → γ)

theorem rewritten_stalled {n : Nat} (h : c.stalled n = true) :
    (c.rewritten g f).tdata n = g (c.tdata n) := by
  simp only [stalled, Bool.and_eq_true, Bool.not_eq_true'] at h
  simp [rewritten, accepted, h.2]

theorem Holds.stable_rewritten_iff (h : c.Holds) :
    (c.rewritten g f).Stable
      ↔ ∀ n, c.stalled n = true → c.tready (n + 1) = true →
          f (n + 1) (c.tdata (n + 1)) = g (c.tdata (n + 1)) := by
  rw [stable_iff]
  refine forall_congr' fun n => ⟨fun hst hn hready => ?_, fun hst hn => ?_⟩
  · obtain ⟨hvalid, hsame⟩ := h n hn
    have hnext : (c.rewritten g f).tdata (n + 1) = f (n + 1) (c.tdata (n + 1)) :=
      if_pos (by rw [accepted, hvalid, hready]; rfl)
    rw [← hnext, hst hn, rewritten_stalled g f hn, hsame]
  · obtain ⟨-, hsame⟩ := h n hn
    rw [rewritten_stalled g f hn, ← hsame]
    by_cases hacc : c.accepted (n + 1) = true
    · have hready : c.tready (n + 1) = true := (Bool.and_eq_true_iff.mp hacc).2
      exact (if_pos hacc).trans (hst hn hready)
    · exact if_neg hacc

end Channel

end ReadyValid
