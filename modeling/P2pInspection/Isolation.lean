import P2pInspection.Custodians
import P2pInspection.MainContexts

/-!
# Isolation of the forwarding contexts

Any set of `main`'s contexts, each with its two forwarding threads, in any
order of steps. Nothing in a ring says which context a packet belongs to: what
keeps contexts apart is that the contexts of the set use different rings
(`OwnRings`) and that a buffer returns to the mempool of the port it came from.
The invariant `Apart` says whose packet is in each buffer on its way;
`isolation_iff` is the exact condition on the set, which fails for the two
contexts of one card.
-/

namespace P2pInspection

open Transition

namespace Pipeline

variable {Ctx Onic Mbuf : Type}

/-- The RX and TX threads of the contexts in `S`, as `launch_software_forwarder`
starts them. -/
def started [DecidableEq Ctx] (S : Finset Ctx) : Thread Ctx → Bool
  | .rx c => c ∈ S
  | .tx c => c ∈ S
  | _ => false

/-- A transmitted burst holds packets of its own context alone, and leaves on
the context's port. -/
def IsolatedCall (K : Setup Ctx Onic Mbuf) : Event Ctx Onic Mbuf → Prop
  | .sent c port _ packets => port = K.txPortId c ∧ ∀ p ∈ packets, ∃ n, p.2 = some (c, n)
  | _ => True

/-- Each `mbuf_ring` has one producer and one consumer. -/
structure SingleEnds (log : List (Event Ctx Onic Mbuf)) : Prop where
  producer : ∀ o t t' ms ms', Event.enqueued t (.mbufRing o) ms ∈ log →
    Event.enqueued t' (.mbufRing o) ms' ∈ log → t = t'
  consumer : ∀ o t t' ms ms', Event.dequeued t (.mbufRing o) ms ∈ log →
    Event.dequeued t' (.mbufRing o) ms' ∈ log → t = t'

def OwnRings (K : Setup Ctx Onic Mbuf) (S : Finset Ctx) : Prop :=
  ∀ c ∈ S, ∀ c' ∈ S, (K.ctx c).rxOnic = (K.ctx c').rxOnic → c = c'

def carried (K : Setup Ctx Onic Mbuf) (c : Ctx) (s : Sys Ctx Onic Mbuf) : List Mbuf :=
  (s.rx c).pc.owned ++ (s.rings (K.mbufRing c)).entries ++ (s.tx c).pc.owned

/-- The buffer is of the pool of `c`'s port, and its contents were received by `c`. -/
def FromCtx (K : Setup Ctx Onic Mbuf) (c : Ctx) (s : Sys Ctx Onic Mbuf) (m : Mbuf) : Prop :=
  K.home m = K.rxPortId c ∧ ∃ n, s.tag m = some (c, n)

/-- What the history says of a call by a started thread. -/
def ApartCall (K : Setup Ctx Onic Mbuf) (S : Finset Ctx) : Event Ctx Onic Mbuf → Prop
  | .enqueued t r _ => ∃ c ∈ S, t = .rx c ∧ r = K.mbufRing c
  | .dequeued t r _ => ∃ c ∈ S, t = .tx c ∧ r = K.mbufRing c
  | e => IsolatedCall K e

/-- What every context of the set carries is its own. -/
structure Apart (K : Setup Ctx Onic Mbuf) (S : Finset Ctx) (s : Sys Ctx Onic Mbuf) : Prop where
  carries : ∀ c ∈ S, ∀ m ∈ carried K c s, FromCtx K c s m
  calls : ∀ e ∈ s.log, ApartCall K S e

theorem Apart.isolated {K : Setup Ctx Onic Mbuf} {S : Finset Ctx} {s : Sys Ctx Onic Mbuf}
    (h : Apart K S s) : ∀ e ∈ s.log, IsolatedCall K e := by
  intro e he
  have happart := h.calls e he
  cases e with
  | sent => exact happart
  | _ => trivial

theorem OwnRings.eq_of_ring {K : Setup Ctx Onic Mbuf} {S : Finset Ctx} (h : OwnRings K S)
    {c c' : Ctx} (hc : c ∈ S) (hc' : c' ∈ S) {r : RingId Onic} (hr : r = K.mbufRing c)
    (hr' : r = K.mbufRing c') : c = c' :=
  h c hc c' hc' (RingId.mbufRing.inj (hr.symm.trans hr'))

theorem Apart.singleEnds {K : Setup Ctx Onic Mbuf} {S : Finset Ctx} {s : Sys Ctx Onic Mbuf}
    (h : Apart K S s) (hown : OwnRings K S) : SingleEnds s.log := by
  constructor
  · intro o t t' ms ms' he he'
    obtain ⟨c, hc, rfl, hr⟩ := h.calls _ he
    obtain ⟨c', hc', rfl, hr'⟩ := h.calls _ he'
    rw [hown.eq_of_ring hc hc' hr hr']
  · intro o t t' ms ms' he he'
    obtain ⟨c, hc, rfl, hr⟩ := h.calls _ he
    obtain ⟨c', hc', rfl, hr'⟩ := h.calls _ he'
    rw [hown.eq_of_ring hc hc' hr hr']

/-! ## Tags after a reception -/

section Tags

variable [DecidableEq Mbuf] {c : Ctx}

/-- Tagging a burst leaves every other buffer's tag, and names `c` for each of its own. -/
theorem foldl_tagReception (l : List ((Mbuf × RteMbuf) × Nat)) (tag : Mbuf → Option (Ctx × Nat))
    (m : Mbuf) :
    (l.foldl (Sys.tagReception c) tag m = tag m ∧ ∀ x ∈ l, x.1.1 ≠ m)
      ∨ ∃ x ∈ l, x.1.1 = m ∧ l.foldl (Sys.tagReception c) tag m = some (c, x.2) := by
  induction l using List.reverseRecOn with
  | nil => exact Or.inl ⟨rfl, nofun⟩
  | append_singleton l x ih =>
      rw [List.foldl_append, List.foldl_cons, List.foldl_nil, Sys.tagReception]
      by_cases hx : x.1.1 = m
      · exact Or.inr ⟨x, List.mem_append_right _ (List.mem_singleton_self x), hx,
          by rw [hx, Function.update_self]⟩
      · rw [Function.update_of_ne (Ne.symm hx)]
        rcases ih with ⟨hkept, hout⟩ | ⟨y, hy, hym, htag⟩
        · exact Or.inl ⟨hkept, forall_mem_snoc.mpr ⟨hout, hx⟩⟩
        · exact Or.inr ⟨y, List.mem_append_left _ hy, hym, htag⟩

theorem received_tag (s : Sys Ctx Onic Mbuf) (t : Thread Ctx) (port : Nat) (queue : BitVec 16)
    (burst : List (Mbuf × RteMbuf)) (m : Mbuf) :
    ((s.received t c port queue burst).tag m = s.tag m ∧ m ∉ burst.map Prod.fst)
      ∨ ∃ x ∈ burst, x.1 = m ∧ ∃ n, (s.received t c port queue burst).tag m = some (c, n) := by
  rcases foldl_tagReception (c := c) (burst.zipIdx s.nbReceived) s.tag m with
    ⟨hkept, hout⟩ | ⟨x, hx, hxm, htag⟩
  · refine Or.inl ⟨hkept, fun hm => ?_⟩
    rw [← List.zipIdx_map_fst s.nbReceived burst, List.map_map] at hm
    obtain ⟨x, hx, hxm⟩ := List.mem_map.mp hm
    exact hout x hx hxm
  · exact Or.inr ⟨x.1, List.fst_mem_of_mem_zipIdx hx, hxm, x.2, htag⟩

end Tags

/-! ## One step -/

section Steps

variable [DecidableEq Ctx] [DecidableEq Onic] [DecidableEq Mbuf] {K : Setup Ctx Onic Mbuf}
  {S : Finset Ctx} {c c' : Ctx} {s s' : Sys Ctx Onic Mbuf} {burst : List (Mbuf × RteMbuf)}
  {m : Mbuf}

/-- A reception changes only buffers of its own port. -/
theorem RxStep.fromCtx (h : RxStep K c burst s s')
    (hport : K.rxPortId c = K.rxPortId c' → c = c') (hm : FromCtx K c' s m) :
    FromCtx K c' s' m := by
  cases h with
  | @receive x rest hpc _ hcan =>
      refine ⟨hm.1, ?_⟩
      rcases received_tag (c := c) s (.rx c) (K.rxPortId c) 0#16 (x :: rest) m with
        ⟨hkept, -⟩ | ⟨y, hy, rfl, htag⟩
      · obtain ⟨n, hn⟩ := hm.2
        exact ⟨n, hkept.trans hn⟩
      · obtain rfl := hport ((hcan.2.2 y hy).symm.trans hm.1)
        exact htag
  | _ => exact hm

omit [DecidableEq Mbuf] in
theorem TxStep.fromCtx (h : TxStep K c s s') (hm : FromCtx K c' s m) : FromCtx K c' s' m := by
  cases h <;> exact hm

theorem RxStep.carried_other (h : RxStep K c burst s s') (hne : c' ≠ c)
    (hring : K.mbufRing c' ≠ K.mbufRing c) : carried K c' s' = carried K c' s := by
  cases h <;> simp [carried, Sys.received, hne, hring]

omit [DecidableEq Mbuf] in
theorem TxStep.carried_other (h : TxStep K c s s') (hne : c' ≠ c)
    (hring : K.mbufRing c' ≠ K.mbufRing c) : carried K c' s' = carried K c' s := by
  cases h <;> simp [carried, Sys.handedToNic, hne, hring]

/-- What is on its way through the context after a step of its RX thread was so
before, or has just been received. -/
theorem RxStep.carries (h : RxStep K c burst s s')
    (hall : ∀ m ∈ carried K c s, FromCtx K c s m) : ∀ m ∈ carried K c s', FromCtx K c s' m := by
  intro m hm
  have hkept : m ∈ carried K c s → FromCtx K c s' m := fun hm => h.fromCtx (fun _ => rfl) (hall m hm)
  cases h with
  | @receive x rest hpc _ hcan =>
      rcases received_tag (c := c) s (.rx c) (K.rxPortId c) 0#16 (x :: rest) m with
        ⟨-, hout⟩ | ⟨y, hy, rfl, htag⟩
      · refine hkept ?_
        simp only [carried, Sys.received, Sys.setRx, Function.update_self, RxPc.owned,
          List.map_cons, List.mem_cons, List.mem_append, hpc, not_or] at hm hout ⊢
        grind
      · exact ⟨hcan.2.2 y hy, htag⟩
  | store hpc hroom =>
      refine hkept ?_
      simp only [carried, Sys.setRx, Sys.logged, Sys.setRing, Function.update_self, RxPc.owned,
        RteRing.push_entries, List.mem_append, hpc] at hm ⊢
      grind
  | reject hpc =>
      refine hkept ?_
      simp [carried, hpc] at hm ⊢
      grind
  | stop hpc | enter hpc | done hpc | free hpc => exact hkept (by simpa [carried, hpc] using hm)
  | idle hpc => exact hkept (by simpa [carried, Sys.received, hpc] using hm)

omit [DecidableEq Mbuf] in
theorem TxStep.carries (h : TxStep K c s s')
    (hall : ∀ m ∈ carried K c s, FromCtx K c s m) : ∀ m ∈ carried K c s', FromCtx K c s' m := by
  intro m hm
  refine h.fromCtx (hall m ?_)
  cases h with
  | @take hpc mbufs hmbufs =>
      have htaken : m ∈ mbufs → m ∈ (s.rings (K.mbufRing c)).entries := fun h =>
        List.mem_of_mem_take (hmbufs ▸ h)
      have hkept : m ∈ (s.rings (K.mbufRing c)).entries.drop burstSize
          → m ∈ (s.rings (K.mbufRing c)).entries := List.mem_of_mem_drop
      simp only [carried, Sys.setTx, Sys.logged, Sys.setRing, Function.update_self,
        TxPc.owned_afterTake, RteRing.pop_entries, List.mem_append, hpc] at hm ⊢
      grind
  | @send mbufs nbTx hpc hle =>
      have hleft : m ∈ mbufs.drop nbTx → m ∈ mbufs := List.mem_of_mem_drop
      simp only [carried, Sys.setTx, Sys.handedToNic, Function.update_self, TxPc.owned,
        List.mem_append, hpc] at hm ⊢
      grind
  | stop hpc | enter hpc | done hpc => simpa [carried, hpc] using hm
  | free hpc =>
      simp [carried, hpc] at hm ⊢
      grind

theorem RxStep.calls (h : RxStep K c burst s s') (hc : c ∈ S)
    (hcalls : ∀ e ∈ s.log, ApartCall K S e) : ∀ e ∈ s'.log, ApartCall K S e := by
  cases h with
  | stop | enter | done => exact hcalls
  | idle | receive | free => exact forall_mem_snoc.mpr ⟨hcalls, trivial⟩
  | store | reject => exact forall_mem_snoc.mpr ⟨hcalls, c, hc, rfl, rfl⟩

omit [DecidableEq Mbuf] in
theorem TxStep.calls (h : TxStep K c s s') (hc : c ∈ S)
    (hall : ∀ m ∈ carried K c s, FromCtx K c s m)
    (hcalls : ∀ e ∈ s.log, ApartCall K S e) : ∀ e ∈ s'.log, ApartCall K S e := by
  cases h with
  | stop | enter | done => exact hcalls
  | free => exact forall_mem_snoc.mpr ⟨hcalls, trivial⟩
  | take => exact forall_mem_snoc.mpr ⟨hcalls, c, hc, rfl, rfl⟩
  | @send mbufs nbTx hpc hle =>
      refine forall_mem_snoc.mpr ⟨hcalls, rfl, fun p hp => ?_⟩
      obtain ⟨m, hm, rfl⟩ := List.mem_map.mp hp
      have hcarried : m ∈ carried K c s := by
        simp [carried, hpc, List.mem_of_mem_take hm]
      exact (hall m hcarried).2

/-- Different contexts of the set receive on different ports and use different rings. -/
structure Separate (K : Setup Ctx Onic Mbuf) (S : Finset Ctx) : Prop where
  rings : OwnRings K S
  ports : ∀ c ∈ S, ∀ c' ∈ S, K.rxPortId c = K.rxPortId c' → c = c'

omit [DecidableEq Ctx] [DecidableEq Onic] [DecidableEq Mbuf] in
theorem Separate.mbufRing_ne (h : Separate K S) (hc : c ∈ S) (hc' : c' ∈ S) (hne : c' ≠ c) :
    K.mbufRing c' ≠ K.mbufRing c :=
  fun heq => hne (h.rings.eq_of_ring hc' hc rfl heq)

theorem Apart.step (hsep : Separate K S) {a : Action Ctx Mbuf} (h : Apart K S s)
    (hstep : step K (started S) s a = some s') : Apart K S s' := by
  cases step_cases hstep with
  | @rx c burst _ hl hrx =>
      have hc : c ∈ S := by simpa [started] using hl
      refine ⟨fun c' hc' m hm => ?_, hrx.calls hc h.calls⟩
      by_cases hcc : c' = c
      · subst hcc
        exact hrx.carries (h.carries c' hc') m hm
      · rw [hrx.carried_other hcc (hsep.mbufRing_ne hc hc' hcc)] at hm
        exact hrx.fromCtx (hsep.ports c hc c' hc') (h.carries c' hc' m hm)
  | @tx c nbTx _ hl htx =>
      have hc : c ∈ S := by simpa [started] using hl
      refine ⟨fun c' hc' m hm => ?_, htx.calls hc (h.carries c hc) h.calls⟩
      by_cases hcc : c' = c
      · subst hcc
        exact htx.carries (h.carries c' hc') m hm
      · rw [htx.carried_other hcc (hsep.mbufRing_ne hc hc' hcc)] at hm
        exact htx.fromCtx (h.carries c' hc' m hm)
  | final hl => cases hl
  | stats hl => cases hl
  | transmitted => exact ⟨h.carries, h.calls⟩
  | stop => exact ⟨h.carries, h.calls⟩

/-- A TX thread at its loop head can go on to dequeue from the ring of its
receiving card, which leaves the other TX threads where they are. -/
theorem exists_tx_dequeue {s₀ : Sys Ctx Onic Mbuf}
    {tr : List (Taken (Sys Ctx Onic Mbuf) (Action Ctx Mbuf))}
    (hreach : Run (step K (started S)) s₀ tr s) (hc : c ∈ S) (halive : s.aborted = false)
    (hpc : (s.tx c).pc = .head) (hrun : s.stopFlag c = false) :
    ∃ tr' s', Run (step K (started S)) s₀ tr' s'
      ∧ (∃ mbufs, s'.log = s.log ++ [.dequeued (.tx c) (K.mbufRing c) mbufs])
      ∧ s'.aborted = false ∧ s'.stopFlag = s.stopFlag ∧ ∀ c' ≠ c, s'.tx c' = s.tx c' := by
  have henter : step K (started S) s (.tx c 0) = some (s.setTx c ⟨.poll, (s.tx c).currQ⟩) := by
    simp [step, perform, Action.thread, started, fpgaTxThread, halive, hc, hpc, hrun]
  obtain ⟨s', htake⟩ : ∃ s', step K (started S) (s.setTx c ⟨.poll, (s.tx c).currQ⟩) (.tx c 0)
      = some s' := by
    simp [step, perform, Action.thread, started, fpgaTxThread, halive, hc]
  refine ⟨_, s', (hreach.snoc henter).snoc htake, ?_⟩
  cases step_cases htake with
  | tx _ h =>
      cases h with
      | take =>
          refine ⟨⟨_, rfl⟩, halive, rfl, fun c' hne => ?_⟩
          simp [Function.update_of_ne hne]
      | stop h' | enter h' | send h' | done h' | free h' => simp at h'

end Steps

/-! ## The contexts of `main` -/

open MainContexts

section Main

variable {home : Mbuf → Nat} {S : Finset (Fin 4)}

/-- Context `c` receives on DPDK port `c`. -/
theorem rxPortId_setup (home : Mbuf → Nat) (c : Fin 4) : (setup home).rxPortId c = c.val := by
  match c with
  | 0 | 1 | 2 | 3 => rfl

theorem separate_setup (h : OwnRings (setup home) S) : Separate (setup home) S := by
  refine ⟨h, fun c _ c' _ hport => Fin.ext ?_⟩
  rw [← rxPortId_setup home c, hport, rxPortId_setup]

theorem apart_start (pool : Multiset Mbuf) (buf : Mbuf → RteMbuf) :
    Apart (setup home) S (start pool buf) := by
  refine ⟨fun c _ m hm => ?_, nofun⟩
  simp [carried, start, Setup.mbufRing, RteRing.rteRingCreate] at hm

variable [DecidableEq Mbuf]

/-- Every run of the started contexts keeps them apart exactly when no two of
them belong to one card. -/
theorem isolation_iff (home : Mbuf → Nat) (S : Finset (Fin 4)) (pool : Multiset Mbuf)
    (buf : Mbuf → RteMbuf) :
    (∀ tr s, Run (step (setup home) (started S)) (start pool buf) tr s →
        (∀ e ∈ s.log, IsolatedCall (setup home) e) ∧ SingleEnds s.log)
      ↔ OwnRings (setup home) S := by
  constructor
  · intro hall c hc c' hc' honic
    by_contra hne
    -- both TX threads dequeue from the ring they share
    obtain ⟨tr₁, s₁, hrun₁, ⟨ms, hlog⟩, halive, hflag, hothers⟩ :=
      exists_tx_dequeue (K := setup home) (s := start pool buf) .start hc rfl rfl rfl
    have hpc : (s₁.tx c').pc = .head := by rw [hothers c' (Ne.symm hne)]; rfl
    obtain ⟨tr₂, s₂, hrun₂, ⟨ms', hlog'⟩, -⟩ :=
      exists_tx_dequeue hrun₁ hc' halive hpc (by rw [hflag]; rfl)
    have hends := (hall _ s₂ hrun₂).2
    have hring : (setup home).mbufRing c = (setup home).mbufRing c' :=
      congrArg RingId.mbufRing honic
    have hthread := hends.consumer ((setup home).ctx c).rxOnic (.tx c) (.tx c') ms ms'
      (by rw [hlog', hlog]; simp [Setup.mbufRing])
      (by rw [hlog', ← hring]; simp [Setup.mbufRing])
    exact hne (Thread.tx.inj hthread)
  · intro hown tr s hrun
    have hapart : Apart (setup home) S s :=
      hrun.invariant (apart_start pool buf) fun _ _ _ h hs => h.step (separate_setup hown) hs
    exact ⟨hapart.isolated, hapart.singleEnds hown⟩

end Main

/-- The packet context 0 received on port 0 leaves on port 0 again, sent by context 1. -/
theorem sharedRing_crosses :
    ∃ tr s, Run (step (setup Fin.val) (started {0, 1})) fourBuffers tr s
      ∧ Event.sent 1 0 0#16 [(0, some (0, 0))] ∈ s.log
      ∧ ¬((∀ e ∈ s.log, IsolatedCall (setup Fin.val) e) ∧ SingleEnds s.log) := by
  have hrun : Run (step (setup Fin.val) (started {0, 1})) fourBuffers _ _ :=
    (((((Run.start.snoc (a := .rx 0 []) rfl).snoc (a := .rx 0 [(0, blankFrame)]) rfl).snoc
      (a := .rx 0 []) rfl).snoc (a := .tx 1 0) rfl).snoc (a := .tx 1 0) rfl).snoc
        (a := .tx 1 1) rfl
  refine ⟨_, _, hrun, by decide, fun h => ?_⟩
  obtain ⟨-, hpackets⟩ := h.1 (.sent 1 0 0#16 [(0, some (0, 0))]) (by decide)
  obtain ⟨n, hn⟩ := hpackets _ (List.mem_singleton_self _)
  cases hn

end Pipeline

end P2pInspection
