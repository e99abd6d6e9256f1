import Intake.Proof.Confirmation
import Intake.Proof.Queues
import Intake.Proof.Provenance
import Intake.Proof.Grammar
import Intake.Proof.Finality
import Intake.Proof.Correlation
import Intake.Proof.Correction
import Intake.Proof.Ingress
import Intake.Proof.Replay
import Intake.Proof.Interference
import Intake.Proof.Isolation
import Intake.Proof.Advisory
import Intake.Proof.Ownership
import Intake.Proof.Screen
import Intake.Proof.Snapshot
import Intake.Proof.FailClosed
import Intake.Proof.Registration
import Intake.Proof.CaseIds
import Intake.Proof.Integrity
import Intake.Proof.Rings
import Intake.Proof.Gate
import Intake.Proof.Rendering
import Intake.Proof.GeometryHash
import Intake.Proof.Tables
import Intake.Proof.Backlog
import Intake.Proof.Restart
import Intake.Proof.Composition
import Intake.Proof.Vetting
import Intake.Proof.Identifiers
import Intake.Proof.Handoff
import Intake.Proof.Transcript
import Intake.Proof.Authority
import Intake.Proof.Revocation
import Intake.Proof.Chronology
import Intake.Proof.Discretion
import Intake.Proof.Redelivery
import Intake.Proof.Costs
import Intake.Proof.Construction
import Intake.Proof.Refusal
