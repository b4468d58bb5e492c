import P2pInspection.Custodians
import P2pInspection.MainContexts

/-!
# Statistics against forwarding

The forwarding threads of one context and its latency consumer, on the two
rings of the context. Forwarding is undisturbed when all that the RX thread
stored behind the first contents of `mbuf_ring` was taken by the TX thread or
is still in the ring, and the consumer takes from `stats_ring` alone.
`undisturbed_iff`: this holds along a run exactly when every call of the
consumer finds `mbuf_ring` empty, because that is the ring it dequeues from.
-/

namespace P2pInspection

open Transition

namespace Pipeline

variable {Ctx Onic Mbuf : Type} [DecidableEq Ctx] [DecidableEq Onic]

def forwardersAndStats (c : Ctx) (t : Thread Ctx) : Bool :=
  t == .rx c || t == .tx c || t == .stats c

@[simp] def storedBy (t : Thread Ctx) (r : RingId Onic) : Event Ctx Onic Mbuf → List Mbuf
  | .enqueued t' r' mbufs => if t' = t ∧ r' = r then mbufs else []
  | _ => []

@[simp] def takenBy (t : Thread Ctx) (r : RingId Onic) : Event Ctx Onic Mbuf → List Mbuf
  | .dequeued t' r' mbufs => if t' = t ∧ r' = r then mbufs else []
  | _ => []

/-- Behind `first`, the ring's contents before the run, everything the RX thread
stored was taken by the TX thread or is in the ring, in order. -/
def Accounted (K : Setup Ctx Onic Mbuf) (c : Ctx) (first : List Mbuf) (s : Sys Ctx Onic Mbuf) :
    Prop :=
  first ++ s.log.flatMap (storedBy (.rx c) (K.mbufRing c))
    = s.log.flatMap (takenBy (.tx c) (K.mbufRing c)) ++ (s.rings (K.mbufRing c)).entries

/-- A step of the consumer leaves `mbuf_ring` alone, and what it holds more than
before comes from `stats_ring`. -/
structure StatsApart (K : Setup Ctx Onic Mbuf) (c : Ctx) (s : Sys Ctx Onic Mbuf)
    (s' : Sys Ctx Onic Mbuf) : Prop where
  ring : (s'.rings (K.mbufRing c)).entries = (s.rings (K.mbufRing c)).entries
  source : ∀ m ∈ (s'.stats c).owned,
    m ∈ (s.stats c).owned ∨ m ∈ (s.rings (K.statsRing c)).entries

/-- No dequeue of the consumer finds an entry in `mbuf_ring`. -/
def CallsOnEmpty (K : Setup Ctx Onic Mbuf) (s : Sys Ctx Onic Mbuf) : Action Ctx Mbuf → Prop
  | .stats c _ => s.stats c = .poll → (s.rings (K.mbufRing c)).entries = []
  | _ => True

variable [DecidableEq Mbuf] {K : Setup Ctx Onic Mbuf} {c : Ctx} {s s' : Sys Ctx Onic Mbuf}
  {first : List Mbuf}

theorem RxStep.accounted {burst : List (Mbuf × RteMbuf)} (h : RxStep K c burst s s')
    (hacc : Accounted K c first s) : Accounted K c first s' := by
  unfold Accounted at hacc ⊢
  cases h with
  | @store x rest hpc hroom => simpa using congrArg (· ++ (x :: rest)) hacc
  | _ => simpa [Sys.received] using hacc

omit [DecidableEq Mbuf] in
theorem TxStep.accounted (h : TxStep K c s s') (hacc : Accounted K c first s) :
    Accounted K c first s' := by
  unfold Accounted at hacc ⊢
  cases h with
  | take hpc hmbufs => simp [hacc, hmbufs]
  | _ => simpa [Sys.handedToNic] using hacc

theorem StatsStep.undisturbed (h : StatsStep K c s s')
    (hok : s.stats c = .poll → (s.rings (K.mbufRing c)).entries = [])
    (hacc : Accounted K c first s) : StatsApart K c s s' ∧ Accounted K c first s' := by
  unfold Accounted at hacc ⊢
  cases h with
  | stop hpc => exact ⟨⟨rfl, by simp⟩, hacc⟩
  | enter hpc => exact ⟨⟨rfl, by simp⟩, hacc⟩
  | call hpc =>
      have hempty := hok hpc
      exact ⟨⟨by simp [hempty], by simp [hempty]⟩, by simpa [hempty] using hacc⟩
  | done hpc => exact ⟨⟨rfl, by simp⟩, hacc⟩
  | abort hpc => exact ⟨⟨rfl, fun m hm => Or.inl hm⟩, hacc⟩
  | read hpc => exact ⟨⟨rfl, fun m hm => Or.inl (by simpa [hpc] using hm)⟩, by simpa using hacc⟩

theorem StatsStep.not_apart (h : StatsStep K c s s')
    (hbad : ¬(s.stats c = .poll → (s.rings (K.mbufRing c)).entries = [])) :
    ¬StatsApart K c s s' := by
  rintro ⟨hring, -⟩
  refine hbad fun hpoll => ?_
  cases h with
  | call hpc =>
      -- a list that loses its first entries keeps its length only if it is empty
      have hlen := congrArg List.length hring
      simp only [Sys.setStats, Sys.logged, Sys.setRing, Function.update_self, RteRing.pop_entries,
        List.length_drop, burstSize] at hlen
      exact List.eq_nil_of_length_eq_zero (by omega)
  | stop hpc | enter hpc | done hpc | abort hpc | read hpc =>
      rw [hpoll] at hpc
      cases hpc

theorem stats_decides (K : Setup Ctx Onic Mbuf) (c : Ctx) (first : List Mbuf) :
    Decides (step K (forwardersAndStats c)) (fun _ => True) (Accounted K c first)
      (fun s a s' => ∀ obj, a = .stats c obj → StatsApart K c s s') (CallsOnEmpty K) := by
  refine ⟨fun _ _ _ _ _ => trivial, fun s a s' _ hacc hok hstep => ?_,
    fun s a s' _ hacc hbad hstep => ?_⟩
  · cases step_cases hstep with
    | rx hl h =>
        obtain rfl : _ = c := by simpa [forwardersAndStats] using hl
        exact ⟨nofun, h.accounted hacc⟩
    | tx hl h =>
        obtain rfl : _ = c := by simpa [forwardersAndStats] using hl
        exact ⟨nofun, h.accounted hacc⟩
    | final hl => simp [forwardersAndStats] at hl
    | stats hl h =>
        obtain rfl : _ = c := by simpa [forwardersAndStats] using hl
        obtain ⟨hapart, hacc'⟩ := h.undisturbed hok hacc
        exact ⟨fun _ _ => hapart, hacc'⟩
    | transmitted hm => exact ⟨nofun, hacc⟩
    | stop => exact ⟨nofun, hacc⟩
  · cases step_cases hstep with
    | stats hl h =>
        obtain rfl : _ = c := by simpa [forwardersAndStats] using hl
        exact fun hboth => h.not_apart hbad (hboth.1 _ rfl)
    | rx | tx | final | transmitted | stop => exact absurd trivial hbad

/-- Forwarding is undisturbed along a run exactly when every call of the
consumer finds `mbuf_ring` empty. -/
theorem undisturbed_iff (K : Setup Ctx Onic Mbuf) (c : Ctx) {s₀ s : Sys Ctx Onic Mbuf}
    {tr : List (Taken (Sys Ctx Onic Mbuf) (Action Ctx Mbuf))} (hlog : s₀.log = [])
    (hrun : Run (step K (forwardersAndStats c)) s₀ tr s) :
    Always (Accounted K c (s₀.rings (K.mbufRing c)).entries)
        (fun s a s' => ∀ obj, a = .stats c obj → StatsApart K c s s') tr s
      ↔ ∀ t ∈ tr, CallsOnEmpty K t.pre t.act :=
  hrun.always_iff (stats_decides K c _) trivial (by simp [Accounted, hlog])

/-! ## Context 3 with its consumer -/

open MainContexts

/-- The consumer takes the packet the RX thread has stored for the TX thread. -/
theorem storedPacket_consumed :
    ∃ tr s, Run (step (setup Fin.val) (forwardersAndStats 3)) fourBuffers tr s
      ∧ Event.dequeued (.stats 3) (.mbufRing .onic1) [3] ∈ s.log
      ∧ ¬Accounted (setup Fin.val) 3 (fourBuffers.rings (.mbufRing .onic1)).entries s := by
  refine ⟨_, _, ((((Run.start.snoc (a := .rx 3 []) rfl).snoc (a := .rx 3 [(3, blankFrame)])
    rfl).snoc (a := .rx 3 []) rfl).snoc (a := .stats 3 ⟨fun _ => 0#64, fun _ => 0#64⟩) rfl).snoc
      (a := .stats 3 ⟨fun _ => 0#64, fun _ => 0#64⟩) rfl, by decide, ?_⟩
  unfold Accounted
  decide

/-- The TX thread takes the packet before the consumer looks. -/
theorem undisturbed_iff_forwarded :
    ∃ tr s, Run (step (setup Fin.val) (forwardersAndStats 3)) fourBuffers tr s
      ∧ Event.dequeued (.tx 3) (.mbufRing .onic1) [3] ∈ s.log
      ∧ Always (Accounted (setup Fin.val) 3 (fourBuffers.rings (.mbufRing .onic1)).entries)
        (fun s a s' => ∀ obj, a = .stats 3 obj → StatsApart (setup Fin.val) 3 s s') tr s := by
  have hrun : Run (step (setup Fin.val) (forwardersAndStats 3)) fourBuffers _ _ :=
    ((((((Run.start.snoc (a := .rx 3 []) rfl).snoc (a := .rx 3 [(3, blankFrame)]) rfl).snoc
      (a := .rx 3 []) rfl).snoc (a := .tx 3 0) rfl).snoc (a := .tx 3 0) rfl).snoc
        (a := .stats 3 ⟨fun _ => 0#64, fun _ => 0#64⟩) rfl).snoc
          (a := .stats 3 ⟨fun _ => 0#64, fun _ => 0#64⟩) rfl
  refine ⟨_, _, hrun, by decide, (undisturbed_iff (setup Fin.val) 3 rfl hrun).mpr ?_⟩
  intro t ht
  simp only [List.nil_append, List.cons_append, List.mem_cons, List.not_mem_nil, or_false] at ht
  rcases ht with rfl | rfl | rfl | rfl | rfl | rfl | rfl
  · trivial
  · trivial
  · trivial
  · trivial
  · trivial
  · intro hpc
    cases hpc
  · exact fun _ => rfl

end Pipeline

end P2pInspection
