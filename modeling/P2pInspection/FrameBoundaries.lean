import P2pInspection.PacketDetect

/-!
# Frames as `packet_detect` sees them

With the reset released, `sync_detected_o` is the header test of the first
transfer of every frame and low in every other cycle. `frames` cuts the
accepted beats behind each `tlast`, without regard to the cycles in which they
were accepted; `observed_eq` compares this with what the detector does cycle by
cycle, for both values its register can have.
-/

namespace P2pInspection

namespace PacketDetect

/-! ## Frames -/

/-- The beats cut behind each `tlast`; the last frame may be unfinished. -/
def frames : List Beat → List (List Beat)
  | [] => []
  | b :: rest =>
      if b.tlast then [b] :: frames rest
      else
        match frames rest with
        | [] => [[b]]
        | f :: fs => (b :: f) :: fs

/-- Only the first beat of a frame can be reported, and is when its header matches. -/
def reportFrame : List Beat → List (Beat × Bool)
  | [] => []
  | b :: rest => (b, headerMatches b.tdata) :: rest.map fun b => (b, false)

def transfers (hist : List Cycle) : List Beat := (hist.filter Cycle.accepted).map Cycle.beat

/-! ## What the detector reports -/

/-- The accepted beats of these cycles, each with `sync_detected_o` in its cycle,
from `in_packet = q` with the reset released. -/
def observed (q : Bool) : List Cycle → List (Beat × Bool)
  | [] => []
  | c :: rest =>
      if c.accepted then
        (c.beat, syncDetectedO (inPacketQ true q) c) :: observed (inPacketNext true q c) rest
      else observed (inPacketNext true q c) rest

theorem observed_cons (q : Bool) (c : Cycle) (rest : List Cycle) :
    observed q (c :: rest)
      = if c.accepted then
          (c.beat, !q && headerMatches c.beat.tdata) :: observed (!c.beat.tlast) rest
        else observed q rest := by
  rw [observed, inPacketNext_released]
  cases hacc : c.accepted with
  | false => rfl
  | true =>
      have hfirst : firstBeat (inPacketQ true q) c = !q := by
        rw [firstBeat, ← Cycle.accepted, hacc]
        rfl
      simp only [syncDetectedO_eq, hfirst, if_true]

/-- Inside a frame the rest of it goes by unreported, whatever its beats hold. -/
def reportInside : List (List Beat) → List (Beat × Bool)
  | [] => []
  | f :: fs => (f.map fun b => (b, false)) ++ fs.flatMap reportFrame

theorem observed_eq (hist : List Cycle) :
    observed false hist = (frames (transfers hist)).flatMap reportFrame
      ∧ observed true hist = reportInside (frames (transfers hist)) := by
  induction hist with
  | nil => exact ⟨rfl, rfl⟩
  | cons c rest ih =>
      obtain ⟨hstart, hinside⟩ := ih
      rw [observed_cons, observed_cons]
      cases hacc : c.accepted with
      | false =>
          have hsame : transfers (c :: rest) = transfers rest := by
            simp [transfers, hacc]
          rw [hsame]
          exact ⟨hstart, hinside⟩
      | true =>
          have hcons : transfers (c :: rest) = c.beat :: transfers rest := by
            simp [transfers, hacc]
          rw [hcons, frames]
          cases hlast : c.beat.tlast with
          | true => simp [hstart, reportFrame, reportInside]
          | false =>
              rw [Bool.not_false, hinside]
              cases frames (transfers rest) <;> simp [reportFrame, reportInside]

/-- After a reset `sync_detected_o` is high in a cycle exactly when the cycle
transfers the first beat of a frame and both bit fields match, and so every
matching frame is reported once, however its beats are spread over the cycles. -/
theorem syncDetected_iff_frame_start (hist : List Cycle) (c : Cycle) :
    (syncDetectedO (inPacketQ true (inPacketAfter hist)) c = true
        ↔ c.accepted = true ∧ atFrameStart hist = true ∧ ethType c.beat.tdata = vlanTag
          ∧ c.beat.tdata.extractLsb' vlanIdOffset 12 = vlanId)
      ∧ observed false hist = (frames (transfers hist)).flatMap reportFrame := by
  refine ⟨?_, (observed_eq hist).1⟩
  rw [syncDetectedO, firstBeat, inPacketQ, inPacket_run, ← Cycle.accepted, isVlan, isCorrectVlan]
  simp [and_assoc]

end PacketDetect

end P2pInspection
