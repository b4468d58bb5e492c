import P2pInspection.Custodians
import P2pInspection.MainContexts

/-!
# Ownership of forwarded packets

The forwarding threads of one context and the NIC, in any order of steps. The
TX thread keeps the ledger whatever the NIC accepts; the RX thread keeps it up
to its enqueue, and breaks it in either outcome: it frees the burst when the
ring has stored it, and drops it when the ring had no room. `ownership_iff`
says that these are the only steps that do.
-/

namespace P2pInspection

open Custody Transition

namespace Pipeline

variable {Ctx Onic Mbuf : Type} [DecidableEq Ctx] [DecidableEq Onic] [DecidableEq Mbuf]
  {K : Setup Ctx Onic Mbuf} {c : Ctx} {hs : Finset Holder} {s s' : Sys Ctx Onic Mbuf}

/-- The RX thread is not before an enqueue that will fail, nor before a free of
its loop behind an enqueue that succeeded. -/
structure RxSpares (K : Setup Ctx Onic Mbuf) (c : Ctx) (s : Sys Ctx Onic Mbuf) : Prop where
  room : ∀ first rest, (s.rx c).pc = .enqueue first rest →
    (s.rings (K.mbufRing c)).HasRoom (first :: rest).length
  noFree : ∀ m rest, (s.rx c).pc ≠ .overflow (m :: rest)

theorem RxStep.owned {burst : List (Mbuf × RteMbuf)} (h : RxStep K c burst s s')
    (hok : RxSpares K c s) (hrx : .rx ∈ hs) (hring : .mbufRing ∈ hs) (hpool : .mempool ∈ hs)
    (hown : Owned K c hs s) : Owned K c hs s' := by
  cases h with
  | stop hpc => exact hown.same fun x => by cases x <;> simp [hpc]
  | enter hpc => exact hown.same fun x => by cases x <;> simp [hpc]
  | idle hpc => exact hown.same fun x => by cases x <;> simp [Sys.received, hpc]
  | @receive x rest hpc _ hcan =>
      refine hown.handOver ((x :: rest).map Prod.fst) hpool hrx fun y => ?_
      cases y with
      | mempool => simpa [Sys.received, entry] using Multiset.sub_add_cancel hcan.2.1
      | _ => simp [Sys.received, entry, hpc]
  | @store first rest hpc hroom =>
      refine hown.handOver (first :: rest : List Mbuf) hrx hring fun y => ?_
      cases y <;> simp [entry, hpc]
  | @reject first rest hpc hfull => exact absurd (hok.room first rest hpc) hfull
  | done hpc => exact hown.same fun x => by cases x <;> simp [hpc]
  | @free m rest hpc => exact absurd hpc (hok.noFree m rest)

/-- A failed enqueue loses the burst; a free behind a successful one mints a
second claim on a buffer that the ring, or whoever took it from there, holds. -/
theorem RxStep.not_owned {burst : List (Mbuf × RteMbuf)} (h : RxStep K c burst s s')
    (hbad : ¬RxSpares K c s) (hrx : .rx ∈ hs) (hpool : .mempool ∈ hs)
    (hown : Owned K c hs s) : ¬Owned K c hs s' := by
  cases h with
  | @reject first rest hpc hfull =>
      refine hown.not_lost (m := first) (first :: rest : List Mbuf) hrx (by simp) fun y => ?_
      cases y <;> simp [entry, hpc]
  | @free m rest hpc =>
      refine hown.not_minted (m := m) {m} hpool (by simp) fun y => ?_
      cases y <;> simp [entry, hpc, cons_eq_add]
  | store hpc hroom =>
      refine absurd ⟨fun first rest h => ?_, fun m rest h => by simp [hpc] at h⟩ hbad
      obtain ⟨rfl, rfl⟩ := RxPc.enqueue.inj (hpc.symm.trans h)
      exact hroom
  | stop hpc | enter hpc | idle hpc | receive hpc | done hpc =>
      exact absurd ⟨fun _ _ h => by simp [hpc] at h, fun _ _ h => by simp [hpc] at h⟩ hbad

theorem TxStep.owned (h : TxStep K c s s') (hring : .mbufRing ∈ hs) (htx : .tx ∈ hs)
    (hnic : .nicTx ∈ hs) (hpool : .mempool ∈ hs) (hown : Owned K c hs s) : Owned K c hs s' := by
  cases h with
  | stop hpc => exact hown.same fun x => by cases x <;> simp [hpc]
  | enter hpc => exact hown.same fun x => by cases x <;> simp [hpc]
  | @take hpc mbufs hmbufs =>
      refine hown.handOver mbufs hring htx fun y => ?_
      cases y with
      | mbufRing => simpa [entry, hmbufs] using coe_drop_add_take _ burstSize
      | tx => cases mbufs <;> simp [entry, hpc]
      | _ => simp [entry]
  | @send mbufs nbTx hpc hle =>
      refine hown.handOver (mbufs.take nbTx) htx hnic fun y => ?_
      cases y with
      | tx => simpa [entry, hpc, Sys.handedToNic] using coe_drop_add_take mbufs nbTx
      | _ => simp [entry, Sys.handedToNic]
  | done hpc => exact hown.same fun x => by cases x <;> simp [hpc]
  | @free m rest hpc =>
      refine hown.handOver {m} htx hpool fun y => ?_
      cases y <;> simp [entry, hpc, cons_eq_add, ← Multiset.cons_coe]

/-! ## One context's forwarding threads -/

def forwarders (c : Ctx) (t : Thread Ctx) : Bool := t == .rx c || t == .tx c

def forwardPath : Finset Holder := {.rx, .mbufRing, .tx, .nicTx, .mempool}

/-- The step is not one of the two the RX thread breaks the ledger with. -/
def RxOk (K : Setup Ctx Onic Mbuf) (s : Sys Ctx Onic Mbuf) : Action Ctx Mbuf → Prop
  | .rx c _ => RxSpares K c s
  | _ => True

omit [DecidableEq Ctx] [DecidableEq Onic] [DecidableEq Mbuf] in
theorem freesOwn_rx (hok : RxSpares K c s) (burst : List (Mbuf × RteMbuf)) :
    FreesOwn K c s (.rx c burst) := by
  rintro h m hfree
  simp only [freeing] at hfree
  split at hfree
  · rename_i hpc
    exact absurd hpc (hok.noFree _ _)
  · cases hfree

theorem forward_decides (K : Setup Ctx Onic Mbuf) (c : Ctx) :
    Decides (step K (forwarders c)) (fun _ => True) (Owned K c forwardPath)
      (fun s a _ => FreesOwn K c s a) (RxOk K) := by
  refine ⟨fun _ _ _ _ _ => trivial, fun s a s' _ hown hok hstep => ?_,
    fun s a s' _ hown hbad hstep => ?_⟩
  · cases step_cases hstep with
    | rx hl h =>
        obtain rfl : _ = c := by simpa [forwarders] using hl
        exact ⟨freesOwn_rx hok _, h.owned hok (by decide) (by decide) (by decide) hown⟩
    | tx hl h =>
        obtain rfl : _ = c := by simpa [forwarders] using hl
        exact ⟨freesOwn_tx _, h.owned (by decide) (by decide) (by decide) (by decide) hown⟩
    | final hl => simp [forwarders] at hl
    | stats hl => simp [forwarders] at hl
    | transmitted hm => exact ⟨nofun, hown.transmitted hm (by decide) (by decide)⟩
    | stop => exact ⟨nofun, hown.same fun x => by cases x <;> rfl⟩
  · cases step_cases hstep with
    | rx hl h =>
        obtain rfl : _ = c := by simpa [forwarders] using hl
        exact fun hboth => h.not_owned hbad (by decide) (by decide) hown hboth.2
    | tx | final | stats | transmitted | stop => exact absurd trivial hbad

theorem ownership_iff (K : Setup Ctx Onic Mbuf) (c : Ctx) {s₀ s : Sys Ctx Onic Mbuf}
    {tr : List (Taken (Sys Ctx Onic Mbuf) (Action Ctx Mbuf))}
    (hown : Owned K c forwardPath s₀) (hrun : Run (step K (forwarders c)) s₀ tr s) :
    Always (Owned K c forwardPath) (fun s a _ => FreesOwn K c s a) tr s
      ↔ ∀ t ∈ tr, RxOk K t.pre t.act :=
  hrun.always_iff (forward_decides K c) trivial hown

/-- The RX thread is at its loop head or before its poll, or has left the loop. -/
def RxOutside (c : Ctx) (s : Sys Ctx Onic Mbuf) : Prop :=
  (s.rx c).pc = .head ∨ (s.rx c).pc = .poll ∨ (s.rx c).pc = .stopped

omit [DecidableEq Ctx] [DecidableEq Onic] [DecidableEq Mbuf] in
theorem RxOutside.spares (h : RxOutside c s) : RxSpares K c s := by
  rcases h with hpc | hpc | hpc <;> exact ⟨by simp [hpc], by simp [hpc]⟩

theorem RxStep.outside (h : RxStep K c [] s s') (hout : RxOutside c s) : RxOutside c s' := by
  cases h with
  | stop => exact Or.inr (Or.inr (by simp))
  | enter => exact Or.inr (Or.inl (by simp))
  | idle => exact Or.inl (by simp)
  | receive _ hburst => cases hburst
  | done => exact Or.inl (by simp)
  | store hpc | reject hpc | free hpc => rcases hout with h | h | h <;> simp [h] at hpc

/-- A run that starts with the RX thread at its loop head, and in which it never
receives anything, has no step that breaks the ledger. -/
theorem rxOk_of_empty_polls {s₀ : Sys Ctx Onic Mbuf}
    {tr : List (Taken (Sys Ctx Onic Mbuf) (Action Ctx Mbuf))}
    (hrun : Run (step K (forwarders c)) s₀ tr s) (hstart : RxOutside c s₀)
    (hempty : ∀ t ∈ tr, ∀ burst, t.act = .rx c burst → burst = []) :
    (∀ t ∈ tr, RxOk K t.pre t.act) ∧ RxOutside c s := by
  induction hrun with
  | start => exact ⟨nofun, hstart⟩
  | @snoc tr s _ a s' hs ih =>
      obtain ⟨hbefore, hlast⟩ := forall_mem_snoc.mp hempty
      obtain ⟨hok, hout⟩ := ih hbefore
      cases step_cases hs with
      | @rx c' burst _ hl h =>
          obtain rfl : c' = c := by simpa [forwarders] using hl
          obtain rfl := hlast burst rfl
          exact ⟨forall_mem_snoc.mpr ⟨hok, hout.spares⟩, h.outside hout⟩
      | tx hl h => exact ⟨forall_mem_snoc.mpr ⟨hok, trivial⟩, by cases h <;> exact hout⟩
      | final hl => simp [forwarders] at hl
      | stats hl => simp [forwarders] at hl
      | transmitted | stop => exact ⟨forall_mem_snoc.mpr ⟨hok, trivial⟩, hout⟩

/-! ## One burst through context 3 -/

open MainContexts

theorem storedBurst_freed :
    ∃ tr s, Run (step (setup Fin.val) (forwarders 3)) fourBuffers tr s
      ∧ Owned (setup Fin.val) 3 forwardPath fourBuffers
      ∧ ¬Owned (setup Fin.val) 3 forwardPath s := by
  refine ⟨_, _, (((Run.start.snoc (a := .rx 3 []) rfl).snoc (a := .rx 3 [(3, blankFrame)])
    rfl).snoc (a := .rx 3 []) rfl).snoc (a := .rx 3 []) rfl, fun m => ?_, fun h => ?_⟩
  · rw [heldOnce_iff]
    decide +revert
  · have h3 := heldOnce_iff.mp (h 3)
    exact absurd h3 (by decide)

/-- An empty poll, and a burst the NIC refuses. -/
theorem ownership_iff_refused :
    ∃ tr s, Run (step (setup Fin.val) (forwarders 3)) queuedBuffer tr s ∧ 3 ∈ s.mempool
      ∧ Always (Owned (setup Fin.val) 3 forwardPath)
          (fun s a _ => FreesOwn (setup Fin.val) 3 s a) tr s := by
  have hrun : Run (step (setup Fin.val) (forwarders 3)) queuedBuffer _ _ :=
    (((((Run.start.snoc (a := .rx 3 []) rfl).snoc (a := .rx 3 []) rfl).snoc (a := .tx 3 0)
      rfl).snoc (a := .tx 3 0) rfl).snoc (a := .tx 3 0) rfl).snoc (a := .tx 3 0) rfl
  refine ⟨_, _, hrun, by decide, (ownership_iff (setup Fin.val) 3 (fun m => ?_) hrun).mpr ?_⟩
  · rw [heldOnce_iff]
    decide +revert
  · intro t ht
    simp only [List.nil_append, List.cons_append, List.mem_cons, List.not_mem_nil, or_false] at ht
    rcases ht with rfl | rfl | rfl | rfl | rfl | rfl
    · exact ⟨nofun, nofun⟩
    · exact ⟨nofun, nofun⟩
    · trivial
    · trivial
    · trivial
    · trivial

end Pipeline

end P2pInspection
