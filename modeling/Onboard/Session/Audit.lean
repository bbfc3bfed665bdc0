import Onboard.Cause
import Onboard.Host.Storage
import Onboard.Power.Frame

/-!
Audit logs: received bytes as they came, one record after another. A record is its time and the number of its bytes,
both with the least significant byte first, and then the bytes. Records are queued by any number of threads and
written by one of its own.
-/

namespace Onboard

structure AuditRecord where
  /-- Seconds since the epoch. -/
  time : Float
  payload : Bytes
  deriving DecidableEq

def AuditRecord.encode (r : AuditRecord) : Bytes :=
  littleEndian 8 r.time.toBits.toNat ++ littleEndian 4 r.payload.length ++ r.payload

inductive AuditError where
  | create (cause : IoFailure)
  deriving DecidableEq

def AuditError.message : AuditError → String
  | .create cause => "Could not create the audit log file: " ++ cause.message

instance : Cause AuditError where
  name
    | .create _ => "CreateError"
  message := AuditError.message

structure AuditLog where
  path : String
  /-- Queued and not yet written, the oldest first. -/
  pending : List AuditRecord
  written : Bytes
  deriving DecidableEq

namespace AuditLog

/-- Makes the file anew, empty. -/
def create (t : FileTree) (path : String) : Except AuditError (AuditLog × FileTree) :=
  match t.create path with
  | .ok t => .ok (⟨path, [], []⟩, t)
  | .error cause => .error (.create cause)

def record (log : AuditLog) (r : AuditRecord) : AuditLog :=
  { log with pending := log.pending ++ [r] }

/-- Payloads that come at one time, one after the other. -/
def recordAll (log : AuditLog) (time : Float) (payloads : List Bytes) : AuditLog :=
  payloads.foldl (fun log payload => log.record ⟨time, payload⟩) log

/-- The writer takes the oldest record of the queue. -/
def writeNext (log : AuditLog) : AuditLog :=
  match log.pending with
  | [] => log
  | r :: later => { log with pending := later, written := log.written ++ r.encode }

/-- Once no record can come any more the writer writes all that are left. -/
def exit (log : AuditLog) : AuditLog :=
  { log with pending := [], written := log.written ++ log.pending.flatMap AuditRecord.encode }

/-- The first record of a log and what follows it. -/
def readRecord? (bytes : Bytes) : Option (AuditRecord × Bytes) :=
  let header := bytes.take 12
  let length := ofLittleEndian (header.drop 8)
  let body := bytes.drop 12
  if header.length = 12 ∧ length ≤ body.length then
    some (⟨Float.ofBits (UInt64.ofNat (ofLittleEndian (header.take 8))), body.take length⟩, body.drop length)
  else none

theorem length_of_readRecord? {bytes rest : Bytes} {r : AuditRecord} (h : readRecord? bytes = some (r, rest)) :
    rest.length < bytes.length := by
  simp only [readRecord?] at h
  split at h
  · next header =>
    obtain ⟨_, rfl⟩ := Prod.mk.inj (Option.some.inj h)
    have := header.1
    simp only [List.length_take, List.length_drop] at this ⊢
    omega
  · exact absurd h (by simp)

/-- All records of a log, if it ends with one. -/
def read? (bytes : Bytes) : Option (List AuditRecord) :=
  if bytes = [] then some []
  else
    match _found : readRecord? bytes with
    | some (r, rest) => (read? rest).map (r :: ·)
    | none => none
termination_by bytes.length
decreasing_by exact length_of_readRecord? _found

end AuditLog

end Onboard
