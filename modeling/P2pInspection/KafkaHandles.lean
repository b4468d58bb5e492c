import Mathlib.Logic.Function.Basic
import P2pInspection.Lifetimes
import P2pInspection.Transition

/-!
# The Kafka handles of a `StatsLog`

A `StatsLog` makes a producer and a topic when it is constructed, hands its
messages to the topic, and flushes and destroys both in its destructor. The
members that do so are public, so handles can also be made again and destroyed
before. And a `StatsLog` can be copied and assigned like any other object, and
there is a default constructor that makes nothing; the destructor is the same for
all.

`handles_clean_iff` is about every history of such objects, up to the end of the
last one: each handle is used while it is live and destroyed, once, exactly when
every message, cleanup and destructor finds the handles of its object in service,
and no object is given others in place of the last ones that are.
-/

namespace P2pInspection

open CallTrace Transition

/-- A handle of librdkafka, told apart from all others it ever returns. -/
abbrev KafkaHandle := Nat

/-- A member that was never set is no handle at all, and may be used in place of one. -/
inductive KafkaCall where
  | confNew
  | confSet (name value : String) (ok : Bool)
  | topicConfNew
  | topicConfSet (name value : String) (ok : Bool)
  | producerNew (rk : Option KafkaHandle)
  | topicNew (rk : KafkaHandle) (topic : String) (rkt : Option KafkaHandle)
  | produce (rkt : Option KafkaHandle) (payload : String) (key : Option String) (queued : Bool)
  | flush (rk : Option KafkaHandle) (timeoutMs : Nat)
  | topicDestroy (rkt : Option KafkaHandle)
  | destroy (rk : Option KafkaHandle)
deriving Repr, DecidableEq

/-- What `gethostname` and librdkafka return while handles are made. -/
structure KafkaAnswers where
  hostname : Option String
  clientId : Bool := true
  brokers : Bool := true
  acks : Bool := true
  producer : Option KafkaHandle
  topic : Option KafkaHandle

/-- `rk` and `rkt`. -/
structure Handles where
  rk : Option KafkaHandle := none
  rkt : Option KafkaHandle := none
deriving Repr, DecidableEq

namespace KafkaHandles

/-! ## The members -/

/-- The process may exit in place of a return. -/
abbrev Member (α : Type) := Prog Unit Handles KafkaCall α

/-- `exit(1)`. -/
def demand (ok : Bool) : Member Unit := if ok then pure () else throw ()

/-- `create_kafka_topic` up to the configuration of the topic. -/
def configure (ans : KafkaAnswers) : Member Unit := do
  call .confNew
  match ans.hostname with
  | none => throw ()
  | some hostname =>
      call (.confSet "client.id" hostname ans.clientId)
      demand ans.clientId
      call (.confSet "bootstrap.servers" "localhost:9092" ans.brokers)
      demand ans.brokers
      call .topicConfNew
      call (.topicConfSet "acks" "all" ans.acks)
      demand ans.acks

def createKafkaTopic (topic : String) (ans : KafkaAnswers) : Member Unit := do
  configure ans
  call (.producerNew ans.producer)
  match ans.producer with
  | none => throw ()
  | some rk =>
      update fun h => { h with rk := some rk }
      call (.topicNew rk topic ans.topic)
      match ans.topic with
      | none => throw ()
      | some rkt => update fun h => { h with rkt := some rkt }

/-- A message that the queue has no place for is dropped without notice. -/
def produceKafkaMessage (payload : String) (key : Option String) (queued : Bool) : Member Unit := do
  let h := (← get).state
  call (.produce h.rkt payload key queued)

def cleanupKafka : Member Unit := do
  let h := (← get).state
  call (.flush h.rk (10 * 1000))
  call (.topicDestroy h.rkt)
  call (.destroy h.rk)

/-! ## Objects -/

/-- The live objects, the calls so far, and whether the process has exited. -/
structure Logs (Obj : Type) where
  objs : Obj → Option Handles
  calls : List KafkaCall
  exited : Bool

/-- What is done with the objects: constructors, assignment and destructor, and the
members that are called by hand. -/
inductive LogOp (Obj : Type) where
  | construct (o : Obj) (topic : String) (ans : KafkaAnswers)
  | default (o : Obj)
  | copy (src dst : Obj)
  | assign (src dst : Obj)
  | create (o : Obj) (topic : String) (ans : KafkaAnswers)
  | produce (o : Obj) (payload : String) (key : Option String) (queued : Bool)
  | cleanup (o : Obj)
  | destroy (o : Obj)

inductive KafkaThing where
  | producer (rk : Option KafkaHandle)
  | topic (rkt : Option KafkaHandle)
deriving Repr, DecidableEq

def makes : KafkaCall → Option KafkaThing
  | .producerNew rk => rk.map fun rk => .producer (some rk)
  | .topicNew _ _ rkt => rkt.map fun rkt => .topic (some rkt)
  | _ => none

def frees : KafkaCall → Option KafkaThing
  | .topicDestroy rkt => some (.topic rkt)
  | .destroy rk => some (.producer rk)
  | _ => none

def uses : KafkaCall → List KafkaThing
  | .topicNew rk _ _ => [.producer (some rk)]
  | .produce rkt _ _ _ => [.topic rkt]
  | .flush rk _ => [.producer rk]
  | .topicDestroy rkt => [.topic rkt]
  | .destroy rk => [.producer rk]
  | _ => []

def lifetimes : Lifetimes KafkaCall KafkaThing where
  makes := makes
  frees := frees
  uses := uses
  frees_uses := by
    intro c r hr
    cases c with
    | topicDestroy rkt => exact Option.some.inj hr ▸ List.mem_singleton_self _
    | destroy rk => exact Option.some.inj hr ▸ List.mem_singleton_self _
    | _ => cases hr

/-- The handles that are returned were not returned before. -/
def Fresh (calls : List KafkaCall) (ans : KafkaAnswers) : Prop :=
  (∀ rk ∈ ans.producer, .producer (some rk) ∉ lifetimes.made calls)
    ∧ ∀ rkt ∈ ans.topic, .topic (some rkt) ∉ lifetimes.made calls

instance (calls : List KafkaCall) (ans : KafkaAnswers) : Decidable (Fresh calls ans) :=
  inferInstanceAs (Decidable (_ ∧ _))

def Holds (h : Handles) (r : KafkaThing) : Prop := r = .producer h.rk ∨ r = .topic h.rkt

/-- Both handles are live. -/
def InService (calls : List KafkaCall) (h : Handles) : Prop :=
  ∀ r, Holds h r → lifetimes.Live calls r

theorem inService_iff {calls : List KafkaCall} {h : Handles} : InService calls h
    ↔ lifetimes.Live calls (.producer h.rk) ∧ lifetimes.Live calls (.topic h.rkt) := by
  simp only [InService, Holds, forall_eq_or_imp, forall_eq]

instance (calls : List KafkaCall) (h : Handles) : Decidable (InService calls h) :=
  decidable_of_iff _ inService_iff.symm

section Steps

variable {Obj : Type} [DecidableEq Obj]

def start : Logs Obj := ⟨fun _ => none, [], false⟩

/-- The object behind a member, and the calls it made. -/
def Logs.perform (w : Logs Obj) (o : Obj) (h : Handles) (m : Member Unit) : Logs Obj :=
  let r := m ⟨h, w.calls⟩
  ⟨Function.update w.objs o (some (after r).state), (after r).calls, (ending r).isSome⟩

def step (w : Logs Obj) (op : LogOp Obj) : Option (Logs Obj) :=
  if w.exited then none
  else match op with
    | .construct o topic ans =>
        if (w.objs o).isSome ∨ ¬Fresh w.calls ans then none
        else some (w.perform o {} (createKafkaTopic topic ans))
    | .default o =>
        if (w.objs o).isSome then none
        else some { w with objs := Function.update w.objs o (some {}) }
    | .copy src dst =>
        if (w.objs dst).isSome then none
        else (w.objs src).map fun h => { w with objs := Function.update w.objs dst (some h) }
    | .assign src dst =>
        if (w.objs dst).isNone then none
        else (w.objs src).map fun h => { w with objs := Function.update w.objs dst (some h) }
    | .create o topic ans =>
        if ¬Fresh w.calls ans then none
        else (w.objs o).map fun h => w.perform o h (createKafkaTopic topic ans)
    | .produce o payload key queued =>
        (w.objs o).map fun h => w.perform o h (produceKafkaMessage payload key queued)
    | .cleanup o => (w.objs o).map fun h => w.perform o h cleanupKafka
    | .destroy o =>
        (w.objs o).map fun h =>
          { w.perform o h cleanupKafka with objs := Function.update w.objs o none }

/-- The handles of the object are not in service, or another object has them too. -/
def Spare (w : Logs Obj) (o : Obj) : Prop :=
  ∀ h, w.objs o = some h → InService w.calls h → ∃ o', o' ≠ o ∧ w.objs o' = some h

/-- The object may be given other handles, or its own are in service. -/
def Proper (w : Logs Obj) : LogOp Obj → Prop
  | .assign src dst => src = dst ∨ Spare w dst
  | .create o _ _ => Spare w o
  | .produce o _ _ _ => ∀ h, w.objs o = some h → InService w.calls h
  | .cleanup o => ∀ h, w.objs o = some h → InService w.calls h
  | .destroy o => ∀ h, w.objs o = some h → InService w.calls h
  | _ => True

end Steps

/-! ## What a member does to the handles -/

/-- The call has to do with no handle. -/
def Idle (c : KafkaCall) : Prop := makes c = none ∧ frees c = none ∧ uses c = []

section Members

variable {calls : List KafkaCall}

theorem emits_demand (ok : Bool) : Emits Idle (demand ok) := .ite (.pure ()) (.throw ())

theorem emits_configure (ans : KafkaAnswers) : Emits Idle (configure ans) := by
  refine .bind (.call ⟨rfl, rfl, rfl⟩) fun _ => ?_
  cases ans.hostname with
  | none => exact .throw ()
  | some hostname =>
      refine .bind (.call ⟨rfl, rfl, rfl⟩) fun _ => .bind (emits_demand _) fun _ => ?_
      refine .bind (.call ⟨rfl, rfl, rfl⟩) fun _ => .bind (emits_demand _) fun _ => ?_
      refine .bind (.call ⟨rfl, rfl, rfl⟩) fun _ => ?_
      exact .bind (.call ⟨rfl, rfl, rfl⟩) fun _ => emits_demand _

/-- How `create_kafka_topic` ends: with both handles, or with the process. -/
inductive Created (h : Handles) (calls : List KafkaCall) (topic : String) (ans : KafkaAnswers) :
    Prop
  | both {conf : List KafkaCall} {rk rkt : KafkaHandle} (hidle : ∀ c ∈ conf, Idle c)
      (hrk : ans.producer = some rk) (hrkt : ans.topic = some rkt)
      (hrun : createKafkaTopic topic ans ⟨h, calls⟩ = .ok () ⟨⟨some rk, some rkt⟩,
        calls ++ (conf ++ [.producerNew (some rk), .topicNew rk topic (some rkt)])⟩)
  | exits {s : Logged Handles KafkaCall}
      (hrun : createKafkaTopic topic ans ⟨h, calls⟩ = .error () s)

theorem createKafkaTopic_cases (h : Handles) (topic : String) (ans : KafkaAnswers) :
    Created h calls topic ans := by
  obtain ⟨conf, hconf, hidle⟩ := emits_configure ans ⟨h, calls⟩
  cases hrun : configure ans ⟨h, calls⟩ with
  | error e s => exact .exits (bind_error hrun)
  | ok u s =>
      obtain ⟨h', _⟩ := s
      rw [hrun] at hconf
      obtain rfl : _ = calls ++ conf := hconf
      cases hrk : ans.producer with
      | none =>
          have hend : createKafkaTopic topic ans ⟨h, calls⟩
              = .error () ⟨h', calls ++ conf ++ [.producerNew none]⟩ := by
            rw [createKafkaTopic, bind_ok hrun, bind_ok (run_call _ _), hrk]
            rfl
          exact .exits hend
      | some rk =>
          have hproducer : createKafkaTopic topic ans ⟨h, calls⟩ = (do
              call (.topicNew rk topic ans.topic)
              match ans.topic with
              | none => throw ()
              | some rkt => update fun h => { h with rkt := some rkt } : Member Unit)
                ⟨{ h' with rk := some rk }, calls ++ conf ++ [.producerNew (some rk)]⟩ := by
            rw [createKafkaTopic, bind_ok hrun, bind_ok (run_call _ _), hrk]
            rfl
          cases hrkt : ans.topic with
          | none =>
              rw [hrkt, bind_ok (run_call _ _)] at hproducer
              exact .exits hproducer
          | some rkt =>
              rw [hrkt, bind_ok (run_call _ _), List.append_assoc _ [_] [_],
                List.append_assoc calls conf ([_] ++ [_])] at hproducer
              exact .both hidle hrk hrkt hproducer

end Members

/-- The new calls make these handles, and use each one behind that. -/
structure Makes (h : Handles) (new : List KafkaCall) : Prop where
  made : ∀ r, r ∈ lifetimes.made new ↔ Holds h r
  freed : lifetimes.freed new = []
  ordered : Justified (fun pre c => ∀ r ∈ uses c, r ∈ lifetimes.made pre) new

theorem made_idle {conf : List KafkaCall} (h : ∀ c ∈ conf, Idle c) : lifetimes.made conf = [] :=
  List.filterMap_eq_nil_iff.mpr fun c hc => (h c hc).1

theorem freed_idle {conf : List KafkaCall} (h : ∀ c ∈ conf, Idle c) : lifetimes.freed conf = [] :=
  List.filterMap_eq_nil_iff.mpr fun c hc => (h c hc).2.1

theorem makes_create {conf : List KafkaCall} (hidle : ∀ c ∈ conf, Idle c) (rk rkt : KafkaHandle)
    (topic : String) : Makes ⟨some rk, some rkt⟩
      (conf ++ [.producerNew (some rk), .topicNew rk topic (some rkt)]) where
  made := by
    intro r
    rw [Lifetimes.made_append, made_idle hidle]
    simp [Lifetimes.made, lifetimes, makes, Holds]
  freed := by
    rw [Lifetimes.freed_append, freed_idle hidle]
    rfl
  ordered := by
    refine justified_append_iff.mpr ⟨justified_of_forall fun pre c hc r hr => ?_, ?_⟩
    · rw [(hidle c hc).2.2] at hr
      cases hr
    · rw [justified_cons_iff, justified_cons_iff]
      refine ⟨nofun, fun r hr => ?_, justified_nil⟩
      obtain rfl := List.mem_singleton.mp hr
      rw [Lifetimes.made_append]
      exact List.mem_append_right _ (List.mem_singleton_self _)

/-- What was never set. -/
def Unset (r : KafkaThing) : Prop := Holds {} r

theorem not_unset_of_made {calls : List KafkaCall} {r : KafkaThing}
    (hr : r ∈ lifetimes.made calls) : ¬Unset r := by
  obtain ⟨c, -, hmakes⟩ := List.mem_filterMap.mp hr
  rintro (rfl | rfl)
  · cases c with
    | producerNew rk => cases rk <;> cases hmakes
    | topicNew rk topic rkt => cases rkt <;> cases hmakes
    | _ => cases hmakes
  · cases c with
    | producerNew rk => cases rk <;> cases hmakes
    | topicNew rk topic rkt => cases rkt <;> cases hmakes
    | _ => cases hmakes

def cleanupCalls (h : Handles) : List KafkaCall :=
  [.flush h.rk (10 * 1000), .topicDestroy h.rkt, .destroy h.rk]

section Liveness

variable {calls : List KafkaCall} {h : Handles} {r : KafkaThing}

/-- A call that uses a live thing and neither makes nor frees one. -/
theorem wellUsed_snoc_iff {c : KafkaCall} :
    lifetimes.WellUsed (calls ++ [c])
      ↔ lifetimes.WellUsed calls ∧ ∀ r ∈ uses c, lifetimes.Live calls r :=
  justified_snoc_iff

theorem live_produce_iff {rkt : Option KafkaHandle} {payload : String} {key : Option String}
    {queued : Bool} :
    lifetimes.Live (calls ++ [.produce rkt payload key queued]) r ↔ lifetimes.Live calls r :=
  Lifetimes.live_append_iff List.not_mem_nil List.not_mem_nil

theorem mem_freed_cleanupCalls : r ∈ lifetimes.freed (cleanupCalls h) ↔ Holds h r := by
  simp [Lifetimes.freed, lifetimes, cleanupCalls, frees, Holds, or_comm, @eq_comm _ r]

theorem live_cleanup_iff :
    lifetimes.Live (calls ++ cleanupCalls h) r ↔ lifetimes.Live calls r ∧ ¬Holds h r := by
  by_cases hr : Holds h r
  · have hdead := Lifetimes.not_live_of_freed (l := calls) (mem_freed_cleanupCalls.mpr hr)
    simp [hdead, hr]
  · rw [Lifetimes.live_append_iff (by exact List.not_mem_nil)
      (fun hfreed => hr (mem_freed_cleanupCalls.mp hfreed))]
    simp [hr]

/-- The cleanup needs both handles to be live, and nothing else. -/
theorem wellUsed_cleanup_iff :
    lifetimes.WellUsed (calls ++ cleanupCalls h)
      ↔ lifetimes.WellUsed calls ∧ InService calls h := by
  have hflush : ∀ r, lifetimes.Live (calls ++ [.flush h.rk (10 * 1000)]) r
      ↔ lifetimes.Live calls r :=
    fun r => Lifetimes.live_append_iff List.not_mem_nil List.not_mem_nil
  have htopic : lifetimes.Live (calls ++ [.flush h.rk (10 * 1000)] ++ [.topicDestroy h.rkt])
      (.producer h.rk) ↔ lifetimes.Live calls (.producer h.rk) :=
    (Lifetimes.live_append_iff List.not_mem_nil
      (by simp [Lifetimes.freed, lifetimes, frees])).trans (hflush _)
  have hsplit : calls ++ cleanupCalls h
      = calls ++ [.flush h.rk (10 * 1000)] ++ [.topicDestroy h.rkt] ++ [.destroy h.rk] := by
    simp [cleanupCalls]
  rw [hsplit, wellUsed_snoc_iff, wellUsed_snoc_iff, wellUsed_snoc_iff]
  simp only [uses, List.mem_singleton, forall_eq, hflush, htopic, InService, Holds,
    forall_eq_or_imp]
  constructor
  · rintro ⟨⟨⟨hused, hrk⟩, hrkt⟩, -⟩
    exact ⟨hused, hrk, hrkt⟩
  · rintro ⟨hused, hrk, hrkt⟩
    exact ⟨⟨⟨hused, hrk⟩, hrkt⟩, hrk⟩

theorem live_makes_iff {new : List KafkaCall} (hmakes : Makes h new) (hr : ¬Holds h r) :
    lifetimes.Live (calls ++ new) r ↔ lifetimes.Live calls r :=
  Lifetimes.live_append_iff (fun hmade => hr ((hmakes.made r).mp hmade))
    (by rw [hmakes.freed]; exact List.not_mem_nil)

end Liveness

section Histories

variable {Obj : Type} [DecidableEq Obj] {w w' : Logs Obj}

/-- What a step does to the objects and to the calls: it gives an object new
handles, or those of another one, or unset ones, or uses them. -/
inductive Stepped (w : Logs Obj) : LogOp Obj → Logs Obj → Prop
  | constructed {o : Obj} {topic : String} {ans : KafkaAnswers} {h : Handles}
      {new : List KafkaCall} (hfree : w.objs o = none)
      (hfresh : ∀ r, Holds h r → r ∉ lifetimes.made w.calls) (hmakes : Makes h new) :
      Stepped w (.construct o topic ans)
        ⟨Function.update w.objs o (some h), w.calls ++ new, w.exited⟩
  | created {o : Obj} {topic : String} {ans : KafkaAnswers} {h : Handles}
      {new : List KafkaCall} (hfresh : ∀ r, Holds h r → r ∉ lifetimes.made w.calls)
      (hmakes : Makes h new) : Stepped w (.create o topic ans)
        ⟨Function.update w.objs o (some h), w.calls ++ new, w.exited⟩
  | exits {op : LogOp Obj} {w' : Logs Obj} (hexited : w'.exited = true) : Stepped w op w'
  | defaulted {o : Obj} (hfree : w.objs o = none) :
      Stepped w (.default o) { w with objs := Function.update w.objs o (some {}) }
  | copied {src dst : Obj} {h : Handles} (hfree : w.objs dst = none) (hsrc : w.objs src = some h) :
      Stepped w (.copy src dst) { w with objs := Function.update w.objs dst (some h) }
  | assigned {src dst : Obj} {h : Handles} (hsrc : w.objs src = some h) :
      Stepped w (.assign src dst) { w with objs := Function.update w.objs dst (some h) }
  | produced {o : Obj} {payload : String} {key : Option String} {queued : Bool} {h : Handles}
      (hlive : w.objs o = some h) : Stepped w (.produce o payload key queued)
        { w with calls := w.calls ++ [.produce h.rkt payload key queued] }
  | cleaned {o : Obj} {h : Handles} (hlive : w.objs o = some h) : Stepped w (.cleanup o)
      { w with calls := w.calls ++ cleanupCalls h }
  | destroyed {o : Obj} {h : Handles} (hlive : w.objs o = some h) : Stepped w (.destroy o)
      ⟨Function.update w.objs o none, w.calls ++ cleanupCalls h, w.exited⟩

theorem perform_ok {o : Obj} {h h' : Handles} {m : Member Unit} {calls : List KafkaCall}
    (hrun : m ⟨h, w.calls⟩ = .ok () ⟨h', calls⟩) (hrunning : w.exited = false) :
    w.perform o h m = ⟨Function.update w.objs o (some h'), calls, w.exited⟩ := by
  simp only [Logs.perform, hrun, after, ending, Option.isSome_none, hrunning]

theorem perform_error {o : Obj} {h : Handles} {m : Member Unit} {s : Logged Handles KafkaCall}
    (hrun : m ⟨h, w.calls⟩ = .error () s) : (w.perform o h m).exited = true := by
  simp only [Logs.perform, hrun, ending, Option.isSome_some]

/-- Whichever way `create_kafka_topic` ends. -/
theorem perform_create (hrunning : w.exited = false) (o : Obj) (h : Handles) (topic : String)
    {ans : KafkaAnswers} (hfresh : Fresh w.calls ans) :
    (w.perform o h (createKafkaTopic topic ans)).exited = true
      ∨ ∃ h' new, (∀ r, Holds h' r → r ∉ lifetimes.made w.calls) ∧ Makes h' new
        ∧ w.perform o h (createKafkaTopic topic ans)
          = ⟨Function.update w.objs o (some h'), w.calls ++ new, w.exited⟩ := by
  have hcases : Created h w.calls topic ans := createKafkaTopic_cases h topic ans
  cases hcases with
  | exits hrun => exact Or.inl (perform_error hrun)
  | @both conf rk rkt hidle hrk hrkt hrun =>
      refine Or.inr ⟨_, _, ?_, makes_create hidle rk rkt topic, perform_ok hrun hrunning⟩
      rintro r (rfl | rfl)
      · exact hfresh.1 rk hrk
      · exact hfresh.2 rkt hrkt

theorem perform_cleanup (hrunning : w.exited = false) {o : Obj} {h : Handles}
    (hlive : w.objs o = some h) : w.perform o h cleanupKafka
      = { w with calls := w.calls ++ cleanupCalls h } := by
  have hrun : cleanupKafka ⟨h, w.calls⟩ = .ok () ⟨h, w.calls ++ cleanupCalls h⟩ := by
    simp [cleanupKafka, run_bind, cleanupCalls]
  rw [perform_ok hrun hrunning, ← hlive, Function.update_eq_self]

theorem step_cases {op : LogOp Obj} (h : step w op = some w') :
    w.exited = false ∧ Stepped w op w' := by
  unfold step at h
  split at h
  · cases h
  · rename_i hexit
    have hrunning : w.exited = false := (Bool.not_eq_true _).mp hexit
    refine ⟨hrunning, ?_⟩
    cases op with
    | construct o topic ans =>
        simp only at h
        split at h
        · cases h
        · rename_i hguard
          obtain ⟨hfree, hfresh⟩ := not_or.mp hguard
          obtain rfl := Option.some.inj h
          rcases perform_create hrunning o {} topic (not_not.mp hfresh) with
            hexits | ⟨h', new, hnew, hmakes, hperform⟩
          · exact .exits hexits
          · rw [hperform]
            exact .constructed (by simpa using hfree) hnew hmakes
    | default o =>
        simp only at h
        split at h
        · cases h
        · rename_i hfree
          obtain rfl := Option.some.inj h
          exact .defaulted (by simpa using hfree)
    | copy src dst =>
        simp only at h
        split at h
        · cases h
        · rename_i hfree
          obtain ⟨g, hsrc, rfl⟩ := Option.map_eq_some_iff.mp h
          exact .copied (by simpa using hfree) hsrc
    | assign src dst =>
        simp only at h
        split at h
        · cases h
        · obtain ⟨g, hsrc, rfl⟩ := Option.map_eq_some_iff.mp h
          exact .assigned hsrc
    | create o topic ans =>
        simp only at h
        split at h
        · cases h
        · rename_i hfresh
          obtain ⟨g, hlive, rfl⟩ := Option.map_eq_some_iff.mp h
          rcases perform_create hrunning o g topic (not_not.mp hfresh) with
            hexits | ⟨h', new, hnew, hmakes, hperform⟩
          · exact .exits hexits
          · rw [hperform]
            exact .created hnew hmakes
    | produce o payload key queued =>
        obtain ⟨g, hlive, rfl⟩ := Option.map_eq_some_iff.mp h
        have hrun : produceKafkaMessage payload key queued ⟨g, w.calls⟩
            = .ok () ⟨g, w.calls ++ [.produce g.rkt payload key queued]⟩ := rfl
        rw [perform_ok hrun hrunning, ← hlive, Function.update_eq_self]
        exact .produced hlive
    | cleanup o =>
        obtain ⟨g, hlive, rfl⟩ := Option.map_eq_some_iff.mp h
        rw [perform_cleanup hrunning hlive]
        exact .cleaned hlive
    | destroy o =>
        obtain ⟨g, hlive, rfl⟩ := Option.map_eq_some_iff.mp h
        rw [perform_cleanup hrunning hlive]
        exact .destroyed hlive

/-! ## Objects that own their handles -/

/-- Every live handle is held by an object, objects that share one live handle
share both, and none has one handle in service without the other. -/
structure Owned (w : Logs Obj) : Prop where
  wellUsed : lifetimes.WellUsed w.calls
  known : ∀ o h r, w.objs o = some h → Holds h r → r ∈ lifetimes.made w.calls ∨ Unset r
  alike : ∀ o o' h h' r, w.objs o = some h → w.objs o' = some h' → lifetimes.Live w.calls r →
    Holds h r → Holds h' r → h = h'
  whole : ∀ o h r, w.objs o = some h → Holds h r → lifetimes.Live w.calls r →
    InService w.calls h
  kept : ∀ r, lifetimes.Live w.calls r → ∃ o h, w.objs o = some h ∧ Holds h r

theorem update_eq_some {f : Obj → Option Handles} {o o' : Obj} {v : Option Handles} {h : Handles}
    (heq : Function.update f o v o' = some h) : o' = o ∧ v = some h ∨ o' ≠ o ∧ f o' = some h := by
  by_cases hoo : o' = o
  · subst hoo
    rw [Function.update_self] at heq
    exact Or.inl ⟨rfl, heq⟩
  · rw [Function.update_of_ne hoo] at heq
    exact Or.inr ⟨hoo, heq⟩

/-- Nothing live is lost with the handles of `o`. -/
def Dispensable (w : Logs Obj) (o : Obj) : Prop :=
  ∀ r, lifetimes.Live w.calls r → ∃ o' h, o' ≠ o ∧ w.objs o' = some h ∧ Holds h r

omit [DecidableEq Obj] in
theorem Owned.dispensable (hw : Owned w) {o : Obj} (hspare : Spare w o) : Dispensable w o := by
  intro r hr
  obtain ⟨o', h, ho', hh⟩ := hw.kept r hr
  by_cases heq : o' = o
  · subst heq
    obtain ⟨o'', hne, ho''⟩ := hspare h ho' (hw.whole o' h r ho' hh hr)
    exact ⟨o'', h, hne, ho'', hh⟩
  · exact ⟨o', h, heq, ho', hh⟩

omit [DecidableEq Obj] in
theorem spare_of_free {o : Obj} (hfree : w.objs o = none) : Spare w o := by
  intro h ho
  cases hfree.symm.trans ho

/-- New handles, for an object that may lose what it had. -/
theorem Owned.put (hw : Owned w) {o : Obj} {h : Handles} {new : List KafkaCall}
    (hspare : Spare w o) (hfresh : ∀ r, Holds h r → r ∉ lifetimes.made w.calls)
    (hmakes : Makes h new) :
    Owned ⟨Function.update w.objs o (some h), w.calls ++ new, w.exited⟩ := by
  have hnew : InService (w.calls ++ new) h := fun r hr =>
    hw.wellUsed.live_new (hfresh r hr) ((hmakes.made r).mpr hr)
      (by rw [hmakes.freed]; exact List.not_mem_nil)
  have hother : ∀ o' h' r, w.objs o' = some h' → Holds h' r → ¬Holds h r := by
    intro o' h' r ho' hr' hr
    rcases hw.known o' h' r ho' hr' with hmade | hunset
    · exact hfresh r hr hmade
    · exact not_unset_of_made ((hmakes.made r).mpr hr) hunset
  refine ⟨?wellUsed, ?known, ?alike, ?whole, ?kept⟩
  case wellUsed =>
    exact hw.wellUsed.append_new (fun r hr => hfresh r ((hmakes.made r).mp hr)) hmakes.freed
      hmakes.ordered
  case known =>
    intro o' h' r ho' hr
    rw [Lifetimes.made_append, List.mem_append]
    rcases update_eq_some ho' with ⟨-, heq⟩ | ⟨-, hold⟩
    · cases heq
      exact Or.inl (Or.inr ((hmakes.made r).mpr hr))
    · exact (hw.known o' h' r hold hr).imp_left Or.inl
  case alike =>
    intro o₁ o₂ h₁ h₂ r ho₁ ho₂ hlive hr₁ hr₂
    rcases update_eq_some ho₁ with ⟨-, heq₁⟩ | ⟨-, hold₁⟩
    · rcases update_eq_some ho₂ with ⟨-, heq₂⟩ | ⟨-, hold₂⟩
      · exact Option.some.inj (heq₁.symm.trans heq₂)
      · cases heq₁
        exact absurd hr₁ (hother o₂ h₂ r hold₂ hr₂)
    · rcases update_eq_some ho₂ with ⟨-, heq₂⟩ | ⟨-, hold₂⟩
      · cases heq₂
        exact absurd hr₂ (hother o₁ h₁ r hold₁ hr₁)
      · rw [live_makes_iff hmakes (hother o₁ h₁ r hold₁ hr₁)] at hlive
        exact hw.alike o₁ o₂ h₁ h₂ r hold₁ hold₂ hlive hr₁ hr₂
  case whole =>
    intro o' h' r ho' hr hlive r' hr'
    rcases update_eq_some ho' with ⟨-, heq⟩ | ⟨-, hold⟩
    · cases heq
      exact hnew r' hr'
    · rw [live_makes_iff hmakes (hother o' h' r hold hr)] at hlive
      rw [live_makes_iff hmakes (hother o' h' r' hold hr')]
      exact hw.whole o' h' r hold hr hlive r' hr'
  case kept =>
    intro r hlive
    by_cases hr : Holds h r
    · exact ⟨o, h, Function.update_self .., hr⟩
    · rw [live_makes_iff hmakes hr] at hlive
      obtain ⟨o', h', hne, ho', hr'⟩ := hw.dispensable hspare r hlive
      exact ⟨o', h', (Function.update_of_ne hne ..).trans ho', hr'⟩

/-- The handles of another object, or none. -/
theorem Owned.give (hw : Owned w) {dst : Obj} {v : Option Handles} (hspare : Spare w dst)
    (hv : ∀ h, v = some h → h = {} ∨ ∃ src, w.objs src = some h) :
    Owned { w with objs := Function.update w.objs dst v } := by
  have hold : ∀ o h, Function.update w.objs dst v o = some h →
      h = {} ∨ ∃ o', w.objs o' = some h := by
    intro o h ho
    rcases update_eq_some ho with ⟨-, heq⟩ | ⟨-, hrest⟩
    · exact hv h heq
    · exact Or.inr ⟨o, hrest⟩
  have hdead : ∀ r, lifetimes.Live w.calls r → ¬Holds {} r := fun r hlive =>
    not_unset_of_made hlive.1
  refine ⟨hw.wellUsed, ?known, ?alike, ?whole, ?kept⟩
  case known =>
    intro o h r ho hr
    rcases hold o h ho with rfl | ⟨o', ho'⟩
    · exact Or.inr hr
    · exact hw.known o' h r ho' hr
  case alike =>
    intro o₁ o₂ h₁ h₂ r ho₁ ho₂ hlive hr₁ hr₂
    rcases hold o₁ h₁ ho₁ with rfl | ⟨o₁', ho₁'⟩
    · exact absurd hr₁ (hdead r hlive)
    · rcases hold o₂ h₂ ho₂ with rfl | ⟨o₂', ho₂'⟩
      · exact absurd hr₂ (hdead r hlive)
      · exact hw.alike o₁' o₂' h₁ h₂ r ho₁' ho₂' hlive hr₁ hr₂
  case whole =>
    intro o h r ho hr hlive
    rcases hold o h ho with rfl | ⟨o', ho'⟩
    · exact absurd hr (hdead r hlive)
    · exact hw.whole o' h r ho' hr hlive
  case kept =>
    intro r hlive
    obtain ⟨o, h, hne, ho, hr⟩ := hw.dispensable hspare r hlive
    exact ⟨o, h, (Function.update_of_ne hne ..).trans ho, hr⟩

omit [DecidableEq Obj] in
theorem Owned.produced (hw : Owned w) {h : Handles} (hserves : InService w.calls h)
    (payload : String) (key : Option String) (queued : Bool) :
    Owned { w with calls := w.calls ++ [.produce h.rkt payload key queued] } where
  wellUsed := wellUsed_snoc_iff.mpr ⟨hw.wellUsed, fun r hr =>
    hserves r (Or.inr (List.mem_singleton.mp hr))⟩
  known o h r ho hr := (hw.known o h r ho hr).imp_left fun hmade => by
    rw [Lifetimes.made_append]
    exact List.mem_append_left _ hmade
  alike o o' h h' r ho ho' hlive := hw.alike o o' h h' r ho ho' (live_produce_iff.mp hlive)
  whole o h r ho hr hlive r' hr' :=
    live_produce_iff.mpr (hw.whole o h r ho hr (live_produce_iff.mp hlive) r' hr')
  kept r hlive := hw.kept r (live_produce_iff.mp hlive)

omit [DecidableEq Obj] in
/-- All who share the handles lose both. -/
theorem Owned.cleaned (hw : Owned w) {o : Obj} {h : Handles} (ho : w.objs o = some h)
    (hserves : InService w.calls h) : Owned { w with calls := w.calls ++ cleanupCalls h } := by
  refine ⟨wellUsed_cleanup_iff.mpr ⟨hw.wellUsed, hserves⟩, ?known, ?alike, ?whole, ?kept⟩
  case known =>
    intro o' h' r ho' hr
    rw [Lifetimes.made_append]
    exact (hw.known o' h' r ho' hr).imp_left fun hmade => List.mem_append_left _ hmade
  case alike =>
    intro o₁ o₂ h₁ h₂ r ho₁ ho₂ hlive
    exact hw.alike o₁ o₂ h₁ h₂ r ho₁ ho₂ (live_cleanup_iff.mp hlive).1
  case whole =>
    intro o' h' r ho' hr hlive r' hr'
    obtain ⟨hbefore, hkept⟩ := live_cleanup_iff.mp hlive
    have hlive' := hw.whole o' h' r ho' hr hbefore r' hr'
    refine live_cleanup_iff.mpr ⟨hlive', fun hshared => hkept ?_⟩
    rw [hw.alike o o' h h' r' ho ho' hlive' hshared hr']
    exact hr
  case kept =>
    intro r hlive
    exact hw.kept r (live_cleanup_iff.mp hlive).1

/-- A proper step keeps the objects the owners. -/
theorem Owned.step (hw : Owned w) {op : LogOp Obj} (hproper : Proper w op)
    (h : Stepped w op w') : w'.exited = true ∨ Owned w' := by
  cases h with
  | exits hexited => exact Or.inl hexited
  | constructed hfree hfresh hmakes =>
      exact Or.inr (hw.put (spare_of_free hfree) hfresh hmakes)
  | created hfresh hmakes => exact Or.inr (hw.put hproper hfresh hmakes)
  | defaulted hfree =>
      exact Or.inr (hw.give (spare_of_free hfree) fun h heq => Or.inl (Option.some.inj heq).symm)
  | @copied src dst g hfree hsrc =>
      refine Or.inr (hw.give (spare_of_free hfree) fun h heq => Or.inr ⟨src, ?_⟩)
      rw [hsrc, heq]
  | @assigned src dst g hsrc =>
      rcases hproper with rfl | hspare
      · rw [← hsrc, Function.update_eq_self]
        exact Or.inr hw
      · refine Or.inr (hw.give hspare fun h heq => Or.inr ⟨src, ?_⟩)
        rw [hsrc, heq]
  | produced hlive => exact Or.inr (hw.produced (hproper _ hlive) _ _ _)
  | cleaned hlive => exact Or.inr (hw.cleaned hlive (hproper _ hlive))
  | @destroyed o g hlive =>
      refine Or.inr ((hw.cleaned hlive (hproper _ hlive)).give ?_ nofun)
      intro h ho hserves
      obtain rfl := Option.some.inj (hlive.symm.trans ho)
      exact absurd (Or.inl rfl) (live_cleanup_iff.mp (hserves _ (Or.inl rfl))).2

/-! ## Objects that do not -/

/-- Something was used that was not live, or nobody has a handle that is. -/
inductive Spoiled (w : Logs Obj) : Prop
  | misused (h : ¬lifetimes.WellUsed w.calls)
  | lost {r : KafkaThing} (hlive : lifetimes.Live w.calls r)
      (hlost : ∀ o h, w.objs o = some h → ¬Holds h r)

/-- An object that loses handles in service, which no other object has. -/
theorem Owned.lost (hw : Owned w) {o : Obj} {g : Handles} (hspare : ¬Spare w o)
    (hg : ∀ r, lifetimes.Live w.calls r → Holds g r → ∃ o', o' ≠ o ∧ w.objs o' = some g) :
    ∃ r, lifetimes.Live w.calls r ∧ ¬Holds g r
      ∧ ∀ o' h, Function.update w.objs o (some g) o' = some h → ¬Holds h r := by
  simp only [Spare, not_forall] at hspare
  obtain ⟨h, ho, hserves, halone⟩ := hspare
  have hlive := hserves _ (Or.inl rfl)
  have hother : ∀ o' h', o' ≠ o → w.objs o' = some h' → ¬Holds h' (.producer h.rk) := by
    intro o' h' hne ho' hr
    obtain rfl := hw.alike o o' h h' _ ho ho' hlive (Or.inl rfl) hr
    exact halone ⟨o', hne, ho'⟩
  have hnew : ¬Holds g (.producer h.rk) := fun hr => by
    obtain ⟨o', hne, ho'⟩ := hg _ hlive hr
    exact hother o' g hne ho' hr
  refine ⟨.producer h.rk, hlive, hnew, fun o' h' ho' => ?_⟩
  rcases update_eq_some ho' with ⟨-, heq⟩ | ⟨hne, hrest⟩
  · cases heq
    exact hnew
  · exact hother o' h' hne hrest

theorem Owned.spoiled (hw : Owned w) {op : LogOp Obj} (hproper : ¬Proper w op)
    (h : Stepped w op w') : w'.exited = true ∨ Spoiled w' := by
  cases h with
  | exits hexited => exact Or.inl hexited
  | constructed => exact absurd trivial hproper
  | defaulted => exact absurd trivial hproper
  | copied => exact absurd trivial hproper
  | @created o topic ans g new hfresh hmakes =>
      obtain ⟨r, hlive, hr, hlost⟩ := hw.lost (g := g) hproper fun r hlive hr =>
        absurd hlive.1 (hfresh r hr)
      exact Or.inr (.lost ((live_makes_iff hmakes hr).mpr hlive) hlost)
  | @assigned src dst g hsrc =>
      obtain ⟨hne, hspare⟩ := not_or.mp hproper
      obtain ⟨r, hlive, -, hlost⟩ := hw.lost (g := g) hspare fun r _ _ => ⟨src, hne, hsrc⟩
      exact Or.inr (.lost hlive hlost)
  | @produced o payload key queued g hlive =>
      refine Or.inr (.misused fun hused => hproper fun h ho => ?_)
      obtain rfl := Option.some.inj (hlive.symm.trans ho)
      have htopic := (wellUsed_snoc_iff.mp hused).2 _ (List.mem_singleton_self _)
      exact hw.whole o g _ hlive (Or.inr rfl) htopic
  | @cleaned o g hlive =>
      refine Or.inr (.misused fun hused => hproper fun h ho => ?_)
      obtain rfl := Option.some.inj (hlive.symm.trans ho)
      exact (wellUsed_cleanup_iff.mp hused).2
  | @destroyed o g hlive =>
      refine Or.inr (.misused fun hused => hproper fun h ho => ?_)
      obtain rfl := Option.some.inj (hlive.symm.trans ho)
      exact (wellUsed_cleanup_iff.mp hused).2

/-- Nobody gets a lost handle again. -/
theorem spoiled_of_lost {r : KafkaThing} (hlive : lifetimes.Live w.calls r)
    (hlost : ∀ o h, w.objs o = some h → ¬Holds h r) {op : LogOp Obj}
    (h : Stepped w op w') : w'.exited = true ∨ Spoiled w' := by
  have hupdate : ∀ {o : Obj} {v : Option Handles}, (∀ g, v = some g → ¬Holds g r) →
      ∀ o' h', Function.update w.objs o v o' = some h' → ¬Holds h' r := by
    intro o v hv o' h' ho'
    rcases update_eq_some ho' with ⟨-, heq⟩ | ⟨-, hrest⟩
    · exact hv h' heq
    · exact hlost o' h' hrest
  have hfresh : ∀ {g : Handles}, (∀ r, Holds g r → r ∉ lifetimes.made w.calls) →
      ¬Holds g r := fun hnew hr => hnew r hr hlive.1
  cases h with
  | exits hexited => exact Or.inl hexited
  | constructed _ hnew hmakes =>
      exact Or.inr (.lost ((live_makes_iff hmakes (hfresh hnew)).mpr hlive)
        (hupdate fun _ heq => Option.some.inj heq ▸ hfresh hnew))
  | created hnew hmakes =>
      exact Or.inr (.lost ((live_makes_iff hmakes (hfresh hnew)).mpr hlive)
        (hupdate fun _ heq => Option.some.inj heq ▸ hfresh hnew))
  | defaulted =>
      exact Or.inr (.lost hlive
        (hupdate fun _ heq => Option.some.inj heq ▸ not_unset_of_made hlive.1))
  | copied _ hsrc =>
      exact Or.inr (.lost hlive (hupdate fun _ heq => Option.some.inj heq ▸ hlost _ _ hsrc))
  | assigned hsrc =>
      exact Or.inr (.lost hlive (hupdate fun _ heq => Option.some.inj heq ▸ hlost _ _ hsrc))
  | produced => exact Or.inr (.lost (live_produce_iff.mpr hlive) hlost)
  | cleaned ho => exact Or.inr (.lost (live_cleanup_iff.mpr ⟨hlive, hlost _ _ ho⟩) hlost)
  | destroyed ho =>
      exact Or.inr (.lost (live_cleanup_iff.mpr ⟨hlive, hlost _ _ ho⟩) (hupdate nofun))

theorem Spoiled.step (hw : Spoiled w) {op : LogOp Obj} (h : Stepped w op w') :
    w'.exited = true ∨ Spoiled w' := by
  cases hw with
  | lost hlive hlost => exact spoiled_of_lost hlive hlost h
  | misused hused =>
      have hmore : ∀ {new}, w'.calls = w.calls ++ new → w'.exited = true ∨ Spoiled w' := by
        refine fun hcalls => Or.inr (.misused fun hused' => hused ?_)
        rw [hcalls] at hused'
        exact hused'.left
      cases h with
      | exits hexited => exact Or.inl hexited
      | constructed => exact hmore rfl
      | created => exact hmore rfl
      | produced => exact hmore rfl
      | cleaned => exact hmore rfl
      | destroyed => exact hmore rfl
      | _ => exact hmore (List.append_nil _).symm

/-! ## Histories -/

omit [DecidableEq Obj] in
theorem owned_start : Owned (start : Logs Obj) where
  wellUsed := justified_nil
  known := by
    intro o h r ho
    cases ho
  alike := by
    intro o o' h h' r ho
    cases ho
  whole := by
    intro o h r ho
    cases ho
  kept := by
    rintro r ⟨hmade, -⟩
    cases hmade

/-- Until the first step that is not proper, the objects own their handles. -/
theorem owned_or_spoiled {w : Logs Obj} {tr : List (Taken (Logs Obj) (LogOp Obj))}
    (hrun : Run step start tr w) : w.exited = true
      ∨ ((∀ t ∈ tr, Proper t.pre t.act) ∧ Owned w)
      ∨ ((∃ t ∈ tr, ¬Proper t.pre t.act) ∧ Spoiled w) := by
  induction hrun with
  | start => exact Or.inr (Or.inl ⟨nofun, owned_start⟩)
  | @snoc tr w hrun op w' hs ih =>
      obtain ⟨hexit, hstep⟩ := step_cases hs
      rcases ih with hexited | ⟨hall, hw⟩ | ⟨⟨t, ht, hnot⟩, hw⟩
      · cases hexit.symm.trans hexited
      · by_cases hproper : Proper w op
        · exact (hw.step hproper hstep).imp_right fun hw' =>
            Or.inl ⟨forall_mem_snoc.mpr ⟨hall, hproper⟩, hw'⟩
        · exact (hw.spoiled hproper hstep).imp_right fun hw' =>
            Or.inr ⟨⟨_, List.mem_append_right _ (List.mem_singleton_self _), hproper⟩, hw'⟩
      · exact (hw.step hstep).imp_right fun hw' =>
          Or.inr ⟨⟨t, List.mem_append_left _ ht, hnot⟩, hw'⟩

/-- When the last object has gone, all handles were used and destroyed as they
should be exactly when all steps were proper. -/
theorem handles_clean_iff {w : Logs Obj} {tr : List (Taken (Logs Obj) (LogOp Obj))}
    (hrun : Run step start tr w) (hgone : ∀ o, w.objs o = none) (hexit : w.exited = false) :
    lifetimes.Clean w.calls ↔ ∀ t ∈ tr, Proper t.pre t.act := by
  rcases owned_or_spoiled hrun with hexited | ⟨hall, hw⟩ | ⟨⟨t, ht, hnot⟩, hw⟩
  · cases hexit.symm.trans hexited
  · refine iff_of_true ⟨hw.wellUsed, fun r hr => ?_⟩ hall
    obtain ⟨o, h, ho, -⟩ := hw.kept r hr
    cases (hgone o).symm.trans ho
  · refine iff_of_false (fun hclean => ?_) fun hall => hnot (hall t ht)
    cases hw with
    | misused hused => exact hused hclean.1
    | lost hlive => exact hclean.2 _ hlive

end Histories

def mainHost (rk rkt : KafkaHandle) : KafkaAnswers where
  hostname := some "host"
  producer := some rk
  topic := some rkt

/-- One object, which is given other handles before it is used, and destroyed. -/
theorem handles_clean_iff_oneLog : ∃ tr w, Run step start tr w
    ∧ tr.map Taken.act = [.construct () "Ports" (mainHost 0 1), .cleanup (),
      .create () "Ports" (mainHost 2 3), .produce () "message" none true, .destroy ()]
    ∧ lifetimes.Clean w.calls := by
  have hrun : Run step start _ _ := ((((Run.start.snoc
    (a := .construct () "Ports" (mainHost 0 1)) rfl).snoc
    (a := .cleanup ()) rfl).snoc
    (a := .create () "Ports" (mainHost 2 3)) rfl).snoc
    (a := .produce () "message" none true) rfl).snoc (a := .destroy ()) rfl
  refine ⟨_, _, hrun, rfl, (handles_clean_iff hrun (fun _ => rfl) rfl).mpr fun t ht => ?_⟩
  simp only [List.nil_append, List.cons_append, List.mem_cons, List.not_mem_nil, or_false] at ht
  have hserves : ∀ {w : Logs Unit} {h : Handles}, w.objs () = some h → InService w.calls h →
      ∀ h', w.objs () = some h' → InService w.calls h' := by
    intro w h ho hserves h' ho'
    obtain rfl := Option.some.inj (ho.symm.trans ho')
    exact hserves
  obtain rfl | rfl | rfl | rfl | rfl := ht
  · trivial
  · exact hserves rfl (by decide)
  · intro h ho hold
    cases ho
    exact absurd hold (by decide)
  · exact hserves rfl (by decide)
  · exact hserves rfl (by decide)

end KafkaHandles

end P2pInspection
