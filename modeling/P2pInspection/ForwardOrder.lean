import P2pInspection.ForwardOwnership
import P2pInspection.Isolation

/-!
# The order of forwarded packets

One context with its own ring. Every reception is a packet of its own: the
packets received are the buffers the RX thread polled, numbered, and the
packets accepted are what the buffers held when the NIC took them. A buffer in
the ring can change what it holds, because the RX thread frees the burst it has
stored and the next poll may return it again. As long as no poll does, the
accepted packets are a subsequence of the received ones (`forwarded_inOrder`);
of the buffers alone this is always true (`buffers_inOrder`).
-/

namespace P2pInspection

open Transition

namespace Pipeline

variable {Ctx Onic Mbuf : Type} [DecidableEq Ctx]

/-! ## What was received and what was accepted -/

/-- What the context's RX thread got from a poll. -/
def polledBy (c : Ctx) : Event Ctx Onic Mbuf → List Mbuf
  | .polled (.rx c') _ _ mbufs => if c' = c then mbufs else []
  | _ => []

/-- What the NIC accepted from the context's TX thread. -/
def acceptedFrom (c : Ctx) : Event Ctx Onic Mbuf → List (Mbuf × Option (Ctx × Nat))
  | .sent c' _ _ packets => if c' = c then packets else []
  | _ => []

def receivedMbufs (c : Ctx) (log : List (Event Ctx Onic Mbuf)) : List Mbuf :=
  log.flatMap (polledBy c)

/-- The packets received, each with its buffer, oldest first. -/
def receivedPackets (c : Ctx) (log : List (Event Ctx Onic Mbuf)) :
    List (Mbuf × Option (Ctx × Nat)) :=
  (receivedMbufs c log).zipIdx.map fun x => (x.1, some (c, x.2))

/-- The packets the NIC accepted, each with its buffer, oldest first. -/
def acceptedPackets (c : Ctx) (log : List (Event Ctx Onic Mbuf)) :
    List (Mbuf × Option (Ctx × Nat)) :=
  log.flatMap (acceptedFrom c)

/-- Same order, each at most once. -/
def InOrder (c : Ctx) (log : List (Event Ctx Onic Mbuf)) : Prop :=
  (acceptedPackets c log).Sublist (receivedPackets c log)

instance [DecidableEq Mbuf] (c : Ctx) (log : List (Event Ctx Onic Mbuf)) :
    Decidable (InOrder c log) :=
  inferInstanceAs (Decidable (List.Sublist _ _))

/-- The buffers on their way to the NIC, the next one first. -/
def onTheWay (K : Setup Ctx Onic Mbuf) (c : Ctx) (s : Sys Ctx Onic Mbuf) : List Mbuf :=
  (s.tx c).pc.owned ++ (s.rings (K.mbufRing c)).entries ++ (s.rx c).pc.owned

/-- The packets accepted, and behind them what is in the buffers on their way. -/
def line (K : Setup Ctx Onic Mbuf) (c : Ctx) (s : Sys Ctx Onic Mbuf) :
    List (Mbuf × Option (Ctx × Nat)) :=
  acceptedPackets c s.log ++ (onTheWay K c s).map fun m => (m, s.tag m)

/-- The context before its threads have done anything. -/
structure AtStart (K : Setup Ctx Onic Mbuf) (c : Ctx) (s : Sys Ctx Onic Mbuf) : Prop where
  rx : (s.rx c).pc = .head
  tx : (s.tx c).pc = .head
  ring : (s.rings (K.mbufRing c)).entries = []
  log : s.log = []
  count : s.nbReceived = 0

/-- No poll of the RX thread returns a buffer that is still in `mbuf_ring` or in
the array of the TX thread, or one buffer twice. -/
def PollsUnused (K : Setup Ctx Onic Mbuf) (c : Ctx) (s : Sys Ctx Onic Mbuf) :
    Action Ctx Mbuf → Prop
  | .rx _ burst => (s.rx c).pc = .poll →
      (burst.map Prod.fst).Nodup ∧ ∀ m ∈ burst.map Prod.fst,
        m ∉ (s.rings (K.mbufRing c)).entries ∧ m ∉ (s.tx c).pc.owned
  | _ => True

/-! ## Histories -/

section Histories

variable (c : Ctx) (log : List (Event Ctx Onic Mbuf)) (e : Event Ctx Onic Mbuf)

theorem receivedMbufs_snoc :
    receivedMbufs c (log ++ [e]) = receivedMbufs c log ++ polledBy c e := by
  simp [receivedMbufs]

theorem acceptedPackets_snoc :
    acceptedPackets c (log ++ [e]) = acceptedPackets c log ++ acceptedFrom c e := by
  simp [acceptedPackets]

end Histories

/-! ## The tags of a burst -/

section Tags

variable [DecidableEq Mbuf] {c : Ctx}

omit [DecidableEq Ctx] in
theorem foldl_tagReception_mem {l : List ((Mbuf × RteMbuf) × Nat)}
    (hnodup : (l.map fun x => x.1.1).Nodup) (tag : Mbuf → Option (Ctx × Nat))
    {x : (Mbuf × RteMbuf) × Nat} (hx : x ∈ l) :
    l.foldl (Sys.tagReception c) tag x.1.1 = some (c, x.2) := by
  rcases foldl_tagReception (c := c) l tag x.1.1 with ⟨-, hout⟩ | ⟨y, hy, hyx, htag⟩
  · exact absurd rfl (hout x hx)
  · obtain rfl := List.inj_on_of_nodup_map hnodup hy hx hyx
    exact htag

omit [DecidableEq Ctx] in
/-- A burst of different buffers is tagged with the numbers of its receptions. -/
theorem map_tag_received {burst : List (Mbuf × RteMbuf)} (hnodup : (burst.map Prod.fst).Nodup)
    (s : Sys Ctx Onic Mbuf) (t : Thread Ctx) (port : Nat) (queue : BitVec 16) :
    ((burst.map Prod.fst).map fun m => (m, (s.received t c port queue burst).tag m))
      = ((burst.map Prod.fst).zipIdx s.nbReceived).map fun x => (x.1, some (c, x.2)) := by
  have hkeys : ((burst.zipIdx s.nbReceived).map fun x => x.1.1) = burst.map Prod.fst := by
    conv_rhs => rw [← List.zipIdx_map_fst s.nbReceived burst, List.map_map]
    rfl
  rw [List.zipIdx_map, ← hkeys, List.map_map, List.map_map]
  refine List.map_congr_left fun x hx => ?_
  have htag := foldl_tagReception_mem (c := c) (hkeys ▸ hnodup) s.tag hx
  simpa [Sys.received] using htag

end Tags

/-! ## One step -/

section Steps

variable [DecidableEq Onic] [DecidableEq Mbuf] {K : Setup Ctx Onic Mbuf} {c : Ctx}
  {s s' : Sys Ctx Onic Mbuf} {burst : List (Mbuf × RteMbuf)}

/-- Nothing new was received, and the line is as it was or lost some packets. -/
structure Shrinks (K : Setup Ctx Onic Mbuf) (c : Ctx) (s s' : Sys Ctx Onic Mbuf) : Prop where
  line : (line K c s').Sublist (line K c s)
  received : receivedMbufs c s'.log = receivedMbufs c s.log
  count : s'.nbReceived = s.nbReceived

/-- A reception puts the burst at the end of the line. -/
structure Grows (K : Setup Ctx Onic Mbuf) (c : Ctx) (burst : List (Mbuf × RteMbuf))
    (s s' : Sys Ctx Onic Mbuf) : Prop where
  way : onTheWay K c s' = onTheWay K c s ++ burst.map Prod.fst
  accepted : acceptedPackets c s'.log = acceptedPackets c s.log
  received : receivedMbufs c s'.log = receivedMbufs c s.log ++ burst.map Prod.fst
  count : s'.nbReceived = s.nbReceived + burst.length
  tag : s'.tag = (s.received (.rx c) c (K.rxPortId c) 0#16 burst).tag

omit [DecidableEq Onic] [DecidableEq Mbuf] in
/-- A step that accepts and receives nothing, and leaves the tags, shrinks the
line when the buffers on their way are some of those before. -/
theorem Shrinks.of_onTheWay {e : Event Ctx Onic Mbuf} (hlog : s'.log = s.log ++ [e])
    (hsent : acceptedFrom c e = []) (hpolled : polledBy c e = []) (htag : s'.tag = s.tag)
    (hcount : s'.nbReceived = s.nbReceived)
    (hway : (onTheWay K c s').Sublist (onTheWay K c s)) : Shrinks K c s s' := by
  refine ⟨?_, ?_, hcount⟩
  · rw [Pipeline.line, Pipeline.line, hlog, acceptedPackets_snoc, hsent, List.append_nil, htag]
    exact (hway.map _).append_left _
  · rw [hlog, receivedMbufs_snoc, hpolled, List.append_nil]

theorem RxStep.line (h : RxStep K c burst s s') :
    Shrinks K c s s' ∨ (s.rx c).pc = .poll ∧ Grows K c burst s s' := by
  cases h with
  | stop hpc => exact Or.inl ⟨by simp [Pipeline.line, onTheWay, hpc], rfl, rfl⟩
  | enter hpc => exact Or.inl ⟨by simp [Pipeline.line, onTheWay, hpc], rfl, rfl⟩
  | idle hpc hburst =>
      refine Or.inl (Shrinks.of_onTheWay rfl rfl ?_ rfl rfl ?_)
      · simp [polledBy]
      · simp [onTheWay, Sys.received, hpc]
  | @receive x rest hpc hburst hcan =>
      subst hburst
      refine Or.inr ⟨hpc, ?_, ?_, ?_, rfl, rfl⟩
      · simp [onTheWay, Sys.received, hpc]
      · simp [Sys.received, acceptedPackets_snoc, acceptedFrom]
      · simp [Sys.received, receivedMbufs_snoc, polledBy]
  | store hpc hroom =>
      refine Or.inl (Shrinks.of_onTheWay rfl rfl rfl rfl rfl ?_)
      simp [onTheWay, hpc]
  | reject hpc hfull =>
      refine Or.inl (Shrinks.of_onTheWay rfl rfl rfl rfl rfl ?_)
      simp [onTheWay]
  | done hpc => exact Or.inl ⟨by simp [Pipeline.line, onTheWay, hpc], rfl, rfl⟩
  | free hpc =>
      refine Or.inl (Shrinks.of_onTheWay rfl rfl rfl rfl rfl ?_)
      simp [onTheWay, hpc]

omit [DecidableEq Mbuf] in
theorem TxStep.line (h : TxStep K c s s') : Shrinks K c s s' := by
  cases h with
  | stop hpc => exact ⟨by simp [Pipeline.line, onTheWay, hpc], rfl, rfl⟩
  | enter hpc => exact ⟨by simp [Pipeline.line, onTheWay, hpc], rfl, rfl⟩
  | @take hpc mbufs hmbufs =>
      refine Shrinks.of_onTheWay rfl rfl rfl rfl rfl ?_
      have hsplit : mbufs ++ (s.rings (K.mbufRing c)).entries.drop burstSize
          = (s.rings (K.mbufRing c)).entries := hmbufs ▸ List.take_append_drop _ _
      have hpoll : (s.tx c).pc.owned = [] := by rw [hpc]; rfl
      simp only [onTheWay, Sys.setTx, Sys.logged, Sys.setRing, Function.update_self,
        TxPc.owned_afterTake, RteRing.pop_entries, hpoll, List.nil_append]
      rw [hsplit]
  | @send mbufs nbTx hpc hle =>
      refine ⟨?_, ?_, rfl⟩
      · -- what the NIC accepts was next in the line
        have hsplit := List.take_append_drop nbTx mbufs
        simp only [Pipeline.line, onTheWay, Sys.handedToNic, Sys.setTx, Function.update_self,
          acceptedPackets_snoc, acceptedFrom, TxPc.owned, hpc, if_true]
        rw [List.append_assoc, ← List.map_append]
        simp only [← List.append_assoc, hsplit]
        exact List.Sublist.refl _
      · simp [Sys.handedToNic, receivedMbufs_snoc, polledBy]
  | done hpc => exact ⟨by simp [Pipeline.line, onTheWay, hpc], rfl, rfl⟩
  | @free m rest hpc =>
      refine Shrinks.of_onTheWay rfl rfl rfl rfl rfl ?_
      simp [onTheWay, hpc]

/-- What a step of the context's forwarding threads does to its packets. -/
theorem step_line {a : Action Ctx Mbuf} (h : step K (forwarders c) s a = some s') :
    Shrinks K c s s' ∨ ∃ burst, a = .rx c burst ∧ (s.rx c).pc = .poll
      ∧ Grows K c burst s s' := by
  cases step_cases h with
  | @rx c' burst _ hl hrx =>
      obtain rfl : c' = c := by simpa [forwarders] using hl
      rcases hrx.line with hshrinks | ⟨hpc, hgrows⟩
      · exact Or.inl hshrinks
      · exact Or.inr ⟨burst, rfl, hpc, hgrows⟩
  | @tx c' _ _ hl htx =>
      obtain rfl : c' = c := by simpa [forwarders] using hl
      exact Or.inl htx.line
  | final hl => simp [forwarders] at hl
  | stats hl => simp [forwarders] at hl
  | transmitted => exact Or.inl ⟨List.Sublist.refl _, rfl, rfl⟩
  | stop => exact Or.inl ⟨List.Sublist.refl _, rfl, rfl⟩

end Steps

/-! ## Runs -/

section Runs

variable [DecidableEq Onic] [DecidableEq Mbuf] {K : Setup Ctx Onic Mbuf} {c : Ctx}
  {s₀ s s' : Sys Ctx Onic Mbuf} {tr : List (Taken (Sys Ctx Onic Mbuf) (Action Ctx Mbuf))}

/-- The line is in the order of reception, and receptions are counted. -/
structure InLine (K : Setup Ctx Onic Mbuf) (c : Ctx) (s : Sys Ctx Onic Mbuf) : Prop where
  line : (line K c s).Sublist (receivedPackets c s.log)
  count : s.nbReceived = (receivedMbufs c s.log).length

omit [DecidableEq Onic] [DecidableEq Mbuf] in
theorem AtStart.line_eq (h : AtStart K c s) : line K c s = [] := by
  simp [line, onTheWay, acceptedPackets, h.log, h.tx, h.ring, h.rx]

omit [DecidableEq Onic] [DecidableEq Mbuf] in
theorem AtStart.inLine (h : AtStart K c s) : InLine K c s := by
  refine ⟨?_, ?_⟩
  · rw [h.line_eq]
    exact List.nil_sublist _
  · simp [receivedMbufs, h.log, h.count]

omit [DecidableEq Onic] [DecidableEq Mbuf] in
theorem Shrinks.inLine (h : Shrinks K c s s') (hin : InLine K c s) : InLine K c s' := by
  refine ⟨?_, ?_⟩
  · rw [receivedPackets, h.received]
    exact h.line.trans hin.line
  · rw [h.count, h.received, hin.count]

omit [DecidableEq Onic] in
/-- A burst of unused buffers leaves the packets in line what they are. -/
theorem Grows.inLine {burst : List (Mbuf × RteMbuf)} (h : Grows K c burst s s')
    (hnodup : (burst.map Prod.fst).Nodup)
    (hunused : ∀ m ∈ burst.map Prod.fst, m ∉ onTheWay K c s) (hin : InLine K c s) :
    InLine K c s' := by
  have hkept : ∀ m ∈ onTheWay K c s, s'.tag m = s.tag m := by
    intro m hm
    rw [h.tag]
    rcases received_tag (c := c) s (.rx c) (K.rxPortId c) 0#16 burst m with
      ⟨hkept, -⟩ | ⟨x, hx, rfl, -⟩
    · exact hkept
    · exact absurd hm (hunused x.1 (List.mem_map_of_mem hx))
  have hold : (onTheWay K c s).map (fun m => (m, s'.tag m))
      = (onTheWay K c s).map fun m => (m, s.tag m) :=
    List.map_congr_left fun m hm => by rw [hkept m hm]
  have hnew : (burst.map Prod.fst).map (fun m => (m, s'.tag m))
      = ((burst.map Prod.fst).zipIdx (receivedMbufs c s.log).length).map
          fun x => (x.1, some (c, x.2)) := by
    rw [h.tag, ← hin.count]
    exact map_tag_received hnodup s _ _ _
  refine ⟨?_, ?_⟩
  · rw [line, h.way, h.accepted, List.map_append, hold, hnew, receivedPackets, h.received,
      List.zipIdx_append, List.map_append, ← List.append_assoc, Nat.zero_add]
    exact hin.line.append_right _
  · rw [h.count, h.received, hin.count, List.length_append, List.length_map]

theorem InLine.step {a : Action Ctx Mbuf} (hin : InLine K c s) (hok : PollsUnused K c s a)
    (h : step K (forwarders c) s a = some s') : InLine K c s' := by
  rcases step_line h with hshrinks | ⟨burst, rfl, hpc, hgrows⟩
  · exact hshrinks.inLine hin
  · obtain ⟨hnodup, hunused⟩ := hok hpc
    refine hgrows.inLine hnodup (fun m hm => ?_) hin
    obtain ⟨hring, htx⟩ := hunused m hm
    simp only [onTheWay, hpc, RxPc.owned, List.append_nil, List.mem_append, not_or]
    exact ⟨htx, hring⟩

/-- Without a poll that returns a buffer still in use, what is accepted in any
run is a subsequence of what is received. -/
theorem forwarded_inOrder (hstart : AtStart K c s₀) (hrun : Run (step K (forwarders c)) s₀ tr s)
    (hok : ∀ t ∈ tr, PollsUnused K c t.pre t.act) : InOrder c s.log := by
  have hin : InLine K c s := by
    induction hrun with
    | start => exact hstart.inLine
    | snoc _ hs ih =>
        obtain ⟨hbefore, hlast⟩ := forall_mem_snoc.mp hok
        exact (ih hbefore).step hlast hs
  exact (List.sublist_append_left _ _).trans hin.line

/-- The buffers accepted are a subsequence of the buffers received, whatever is
in them by then. -/
theorem buffers_inOrder (hstart : AtStart K c s₀)
    (hrun : Run (step K (forwarders c)) s₀ tr s) :
    ((acceptedPackets c s.log).map Prod.fst).Sublist (receivedMbufs c s.log) := by
  have hline : ((line K c s).map Prod.fst).Sublist (receivedMbufs c s.log) := by
    refine hrun.invariant (I := fun s => ((line K c s).map Prod.fst).Sublist
      (receivedMbufs c s.log)) ?_ ?_
    · rw [hstart.line_eq]
      exact List.nil_sublist _
    · intro s a s' hin h
      rcases step_line h with hshrinks | ⟨burst, -, -, hgrows⟩
      · rw [hshrinks.received]
        exact (hshrinks.line.map _).trans hin
      · have hmap : ∀ t : Mbuf → Option (Ctx × Nat), ∀ l : List Mbuf,
            (l.map fun m => (m, t m)).map Prod.fst = l := by
          intro t l
          simp [List.map_map, Function.comp_def]
        simp only [line, List.map_append, hmap] at hin ⊢
        rw [hgrows.way, hgrows.accepted, hgrows.received, ← List.append_assoc]
        exact hin.append_right _
  refine List.Sublist.trans ?_ hline
  exact (List.sublist_append_left _ _).map _

end Runs

/-! ## Two packets through context 3 -/

open MainContexts

/-- Buffer 3 is stored, freed, and received again before the TX thread gets it:
the second packet is sent twice, the first one never. -/
theorem refilledBuffer_duplicates :
    ∃ tr s, Run (step (setup Fin.val) (forwarders 3)) fourBuffers tr s
      ∧ AtStart (setup Fin.val) 3 fourBuffers
      ∧ receivedPackets 3 s.log = [(3, some (3, 0)), (3, some (3, 1))]
      ∧ acceptedPackets 3 s.log = [(3, some (3, 1)), (3, some (3, 1))]
      ∧ ¬InOrder 3 s.log := by
  have hrun : Run (step (setup Fin.val) (forwarders 3)) fourBuffers _ _ :=
    ((((((((((Run.start.snoc (a := .rx 3 []) rfl).snoc (a := .rx 3 [(3, blankFrame)]) rfl).snoc
      (a := .rx 3 []) rfl).snoc (a := .rx 3 []) rfl).snoc (a := .rx 3 []) rfl).snoc
        (a := .rx 3 []) rfl).snoc (a := .rx 3 [(3, blankFrame)]) rfl).snoc (a := .rx 3 [])
          rfl).snoc (a := .tx 3 0) rfl).snoc (a := .tx 3 0) rfl).snoc (a := .tx 3 2) rfl
  exact ⟨_, _, hrun, ⟨rfl, rfl, rfl, rfl, rfl⟩, rfl, rfl, by decide⟩

/-- A burst of two, of which the NIC accepts the first. -/
theorem forwarded_inOrder_partly :
    ∃ tr s, Run (step (setup fun _ : Fin 4 => 3) (forwarders 3)) fourBuffers tr s
      ∧ acceptedPackets 3 s.log = [(1, some (3, 0))] ∧ InOrder 3 s.log := by
  have hrun : Run (step (setup fun _ : Fin 4 => 3) (forwarders 3)) fourBuffers _ _ :=
    (((((Run.start.snoc (a := .rx 3 []) rfl).snoc
      (a := .rx 3 [(1, blankFrame), (0, blankFrame)]) rfl).snoc (a := .rx 3 [])
        rfl).snoc (a := .tx 3 0) rfl).snoc (a := .tx 3 0) rfl).snoc (a := .tx 3 1) rfl
  refine ⟨_, _, hrun, rfl, forwarded_inOrder ⟨rfl, rfl, rfl, rfl, rfl⟩ hrun fun t ht => ?_⟩
  simp only [List.nil_append, List.cons_append, List.mem_cons, List.not_mem_nil, or_false] at ht
  obtain rfl | rfl | rfl | rfl | rfl | rfl := ht
  · intro hpc
    cases hpc
  · exact fun _ => ⟨by decide, fun m _ => ⟨List.not_mem_nil, List.not_mem_nil⟩⟩
  · intro hpc
    cases hpc
  · trivial
  · trivial
  · trivial

end Pipeline

end P2pInspection
