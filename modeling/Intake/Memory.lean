import Intake.Registry
import Intake.Lib.EventLog
import Intake.Lib.KeyedQueue
import Mathlib.Data.Stream.Init

/-!
# The shared state

Everything the two services are wired to: the registry, the in-memory audit log,
the two queues, the clock and the id generator, together with what the classifier
has been shown so far.

A clock and an id generator are the streams of the values they will still return.
Nothing is assumed of either stream: a run over every stream is a run over every
clock and every generator.
-/

namespace Intake

/-- `InMemoryTriageQueue`: its `enqueue`, `has` and `items` are the keyed queue's. -/
abbrev TriageQueue := KeyedQueue TriageItem TriageItem.messageId

/-- `InMemoryClarificationQueue`. -/
abbrev ClarificationQueue := KeyedQueue ClarificationTask ClarificationTask.messageId

/-- The collaborators whose code is not the repository's. -/
structure Env where
  /-- `hashlib.sha256(...).hexdigest()` -/
  sha256 : ByteArray → String
  /-- The classifier, given everything it was shown before; `none` is an `Exception`. -/
  classify : List MessageProjection → MessageProjection → Option ClassificationProposal

/-- The state shared by `IntakeService` and `ClassificationService`. -/
structure World where
  registry : CaseRegistry
  /-- `InMemoryAuditLog._events`, oldest first. -/
  audit : List AuditEvent
  triage : TriageQueue
  clarifications : ClarificationQueue
  /-- The projections the classifier has been handed. -/
  classified : List MessageProjection
  /-- What `Clock.now` will return. -/
  clock : Stream' Instant
  /-- What `IdGenerator.new_id` will return. -/
  ids : Stream' PyStr

namespace World

/-- Empty log and queues over some registry. -/
def init (registry : CaseRegistry) (ids : Stream' PyStr) : World where
  registry := registry
  audit := []
  triage := KeyedQueue.empty _
  clarifications := KeyedQueue.empty _
  classified := []
  clock := Stream'.const 0
  ids := ids

/-- `IdGenerator.new_id` -/
def newId (w : World) : PyStr × World := (w.ids.head, { w with ids := w.ids.tail })

/-- `Clock.now` -/
def now (w : World) : Instant × World := (w.clock.head, { w with clock := w.clock.tail })

/-- `InMemoryAuditLog.append`; the event it returns is the last of the log. -/
def append (w : World) (draft : AuditDraft) : World :=
  let (eventId, w) := w.newId
  let sequence := w.audit.length + 1
  let (stampedAt, w) := w.now
  { w with audit := w.audit ++ [{ toAuditDraft := draft, eventId, sequence, stampedAt }] }

end World

/-- A record of one message with one action. -/
def AuditDraft.isFor (messageId : MessageId) (action : AuditAction) (d : AuditDraft) : Bool :=
  d.action = action && d.messageId = some messageId

/-- The triage item both services build for a message. -/
def triageItem (message : IntakeMessage) (reason : ReasonCode) (triageItemId : PyStr) : TriageItem where
  triageItemId := triageItemId
  messageId := message.messageId
  reason := reason
  claimedCaseIds := message.claimedCaseIds

namespace World

/-- `InMemoryAuditLog.event_for`: the most recent event of a message with an action. -/
def eventFor (w : World) (messageId : MessageId) (action : AuditAction) : Option AuditEvent :=
  EventLog.latest (fun e => e.toAuditDraft.isFor messageId action) w.audit

/-- `InMemoryAuditLog.decision_for` -/
def decisionFor (w : World) (messageId : MessageId) : Option AuditEvent :=
  w.eventFor messageId .intakeDecision

/-- Queue a message for triage under a fresh item id. -/
def enqueueTriage (w : World) (message : IntakeMessage) (reason : ReasonCode) : World :=
  let (triageItemId, w) := w.newId
  { w with triage := (w.triage.enqueue (triageItem message reason triageItemId)).2 }

/-! ## The log without its stamps -/

/-- What was logged, without event id, sequence number and time. -/
def trail (w : World) : List AuditDraft := w.audit.map AuditEvent.toAuditDraft

theorem trail_append (w : World) (d : AuditDraft) : (w.append d).trail = w.trail ++ [d] := by
  simp [trail, append, now, newId]

theorem eventFor_trail (w : World) (m : MessageId) (a : AuditAction) :
    (w.eventFor m a).map AuditEvent.toAuditDraft = EventLog.latest (AuditDraft.isFor m a) w.trail :=
  (EventLog.latest_map AuditEvent.toAuditDraft (AuditDraft.isFor m a) w.audit).symm

theorem eventFor_eq_none {w : World} {m : MessageId} {a : AuditAction} :
    w.eventFor m a = none ↔ EventLog.latest (AuditDraft.isFor m a) w.trail = none := by
  rw [← eventFor_trail, Option.map_eq_none_iff]

theorem latest_of_eventFor {w : World} {m : MessageId} {a : AuditAction} {e : AuditEvent}
    (h : w.eventFor m a = some e) :
    EventLog.latest (AuditDraft.isFor m a) w.trail = some e.toAuditDraft := by
  rw [← eventFor_trail, h]; rfl

end World

theorem AuditDraft.isFor_iff {m : MessageId} {a : AuditAction} {d : AuditDraft} :
    d.isFor m a = true ↔ d.action = a ∧ d.messageId = some m := by
  simp [isFor]

/-- A batch that a lookup does not find anything in. -/
theorem AuditDraft.latest_isFor {m : MessageId} {a : AuditAction} {l : List AuditDraft} :
    EventLog.latest (isFor m a) l = none ↔ ∀ d ∈ l, d.action = a → d.messageId ≠ some m := by
  rw [EventLog.latest_eq_none]
  refine forall₂_congr fun d _ => ?_
  rw [← Bool.not_eq_true, isFor_iff, not_and]

/-- What a lookup returns is in the log, and is what was looked for. -/
theorem World.eventFor_spec {w : World} {m : MessageId} {a : AuditAction} {e : AuditEvent}
    (h : w.eventFor m a = some e) : e ∈ w.audit ∧ e.action = a ∧ e.messageId = some m :=
  ⟨EventLog.mem_of_latest h, AuditDraft.isFor_iff.mp (EventLog.prop_of_latest (latest_of_eventFor h))⟩

end Intake
