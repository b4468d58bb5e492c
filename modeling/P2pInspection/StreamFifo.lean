/-!
# Elements between two ready/valid channels

A `Slice` is a clocked element with a slave and a master channel, known only
by what it stores: the beats stored before an edge and the one that came in
are the one that went out and the beats stored after it. It never stalls its
source while its own output has always been taken (`flows`). One that in
addition does not take an offer back (`KeepsValid`) offers the same beat until
it is taken.

`skid` is one such element, two beats deep.
-/

namespace StreamFifo

variable {β γ : Type}

def moved (tvalid tready : Bool) (b : β) : List β := if tvalid && tready then [b] else []

theorem map_moved (f : β → γ) (tvalid tready : Bool) (b : β) :
    (moved tvalid tready b).map f = moved tvalid tready (f b) := by
  unfold moved
  split <;> rfl

theorem length_moved_le (tvalid tready : Bool) (b : β) : (moved tvalid tready b).length ≤ 1 := by
  unfold moved
  split <;> simp

/-- Only the beat of an actual transfer matters. -/
theorem moved_congr {tvalid tready : Bool} {b b' : β}
    (h : tvalid = true → tready = true → b = b') :
    moved tvalid tready b = moved tvalid tready b' := by
  unfold moved
  split
  · rename_i hboth
    rw [Bool.and_eq_true] at hboth
    rw [h hboth.1 hboth.2]
  · rfl

/-- A FIFO on a stream. `step s valid b ready` is an edge with `valid` and `b`
on the slave channel and `ready` on the master channel. -/
structure Slice (β : Type) where
  State : Type
  init : State
  tready : State → Bool
  tvalid : State → Bool
  tdata : State → β
  step : State → Bool → β → Bool → State
  queue : State → List β
  queue_init : queue init = []
  conserves : ∀ s valid b ready,
    queue s ++ moved valid (tready s) b
      = moved (tvalid s) ready (tdata s) ++ queue (step s valid b ready)
  flows : ∀ ins : List (Bool × β),
    tready (ins.foldl (fun s i => step s i.1 i.2 true) init) = true

def Slice.Drained (f : Slice β) (s : f.State) : Prop :=
  ∃ ins : List (Bool × β), ins.foldl (fun s i => f.step s i.1 i.2 true) f.init = s

namespace Slice

variable {f : Slice β}

theorem Drained.init : f.Drained f.init := ⟨[], rfl⟩

theorem Drained.step {s : f.State} (h : f.Drained s) (valid : Bool) (b : β) :
    f.Drained (f.step s valid b true) := by
  obtain ⟨ins, rfl⟩ := h
  exact ⟨ins ++ [(valid, b)], by rw [List.foldl_append]; rfl⟩

theorem Drained.tready {s : f.State} (h : f.Drained s) : f.tready s = true := by
  obtain ⟨ins, rfl⟩ := h
  exact f.flows ins

/-- What is on the data wires is the first of the stored beats. -/
theorem queue_head {s : f.State} (h : f.tvalid s = true) :
    (f.queue s).head? = some (f.tdata s) := by
  have hout := f.conserves s false (f.tdata s) true
  simp only [moved, h, Bool.false_and, Bool.and_self, if_true, Bool.false_eq_true, if_false,
    List.append_nil] at hout
  rw [hout]
  rfl

/-- The element does not take an offer back. -/
def KeepsValid (f : Slice β) : Prop :=
  ∀ s valid b, f.tvalid s = true → f.tvalid (f.step s valid b false) = true

/-- An offer that was not taken is made again with the same beat. -/
theorem KeepsValid.offers_again (hkeep : f.KeepsValid) {s : f.State} (h : f.tvalid s = true)
    (valid : Bool) (b : β) :
    f.tvalid (f.step s valid b false) = true
      ∧ f.tdata (f.step s valid b false) = f.tdata s := by
  have hvalid := hkeep s valid b h
  refine ⟨hvalid, ?_⟩
  have hstored : f.queue (f.step s valid b false) = f.queue s ++ moved valid (f.tready s) b := by
    have hin := f.conserves s valid b false
    simp only [moved, Bool.and_false, Bool.false_eq_true, if_false, List.nil_append] at hin
    exact hin.symm
  have hhead := f.queue_head hvalid
  rw [hstored, List.head?_append, f.queue_head h] at hhead
  exact (Option.some.inj hhead).symm

end Slice

/-! ## A two-beat element -/

structure SkidState (β : Type) where
  beats : List β
  fits : beats.length ≤ 2

def SkidState.tready (s : SkidState β) : Bool := decide (s.beats.length < 2)

def SkidState.tvalid (s : SkidState β) : Bool := !s.beats.isEmpty

def SkidState.next (s : SkidState β) (valid : Bool) (b : β) (ready : Bool) : List β :=
  (if ready then s.beats.tail else s.beats) ++ moved valid s.tready b

theorem SkidState.next_fits (s : SkidState β) (valid : Bool) (b : β) (ready : Bool) :
    (s.next valid b ready).length ≤ 2 := by
  have hkeep : (if ready then s.beats.tail else s.beats).length ≤ s.beats.length := by
    split
    · rw [List.length_tail]
      omega
    · exact Nat.le_refl _
  have hfits := s.fits
  rw [SkidState.next, List.length_append]
  by_cases hroom : s.beats.length < 2
  · have hin := length_moved_le valid s.tready b
    omega
  · have hin : moved valid s.tready b = [] := by simp [moved, SkidState.tready, hroom]
    rw [hin, List.length_nil]
    omega

/-- Once drained, at most one beat is stored. -/
theorem SkidState.next_drained {s : SkidState β} (h : s.beats.length ≤ 1) (valid : Bool) (b : β) :
    (s.next valid b true).length ≤ 1 := by
  have htail : s.beats.tail.length = 0 := by
    rw [List.length_tail]
    omega
  rw [SkidState.next, if_pos rfl, List.length_append, htail, Nat.zero_add]
  exact length_moved_le ..

def SkidState.step (s : SkidState β) (valid : Bool) (b : β) (ready : Bool) : SkidState β :=
  ⟨s.next valid b ready, s.next_fits valid b ready⟩

theorem SkidState.drained_length (ins : List (Bool × β)) {s : SkidState β}
    (h : s.beats.length ≤ 1) :
    (ins.foldl (fun s i => s.step i.1 i.2 true) s).beats.length ≤ 1 := by
  induction ins generalizing s with
  | nil => exact h
  | cons i rest ih => exact ih (s.next_drained h i.1 i.2)

/-- The two-beat element; `idle` is on its data wires while it is empty. -/
def skid (idle : β) : Slice β where
  State := SkidState β
  init := ⟨[], by simp⟩
  tready := SkidState.tready
  tvalid := SkidState.tvalid
  tdata s := s.beats.headD idle
  step := SkidState.step
  queue := SkidState.beats
  queue_init := rfl
  conserves s valid b ready := by
    obtain ⟨beats, hfits⟩ := s
    cases beats with
    | nil => simp [SkidState.step, SkidState.next, SkidState.tvalid, moved]
    | cons x rest =>
        cases ready <;>
          simp [SkidState.step, SkidState.next, SkidState.tvalid, moved]
  flows ins := by
    have hlen := SkidState.drained_length ins (s := ⟨[], by simp⟩) (by simp)
    exact decide_eq_true (Nat.lt_succ_of_le hlen)

theorem skid_keepsValid (idle : β) : (skid idle).KeepsValid := by
  intro s valid b h
  obtain ⟨beats, hfits⟩ := s
  cases beats with
  | nil => cases h
  | cons x rest => rfl

end StreamFifo
