import Mathlib
import Onboard.Session.Recording

/-! An audit log keeps all that is queued, whoever queues it and whenever the writer gets to it: once the end of the log
has returned, its file holds the records in the order in which they were queued, and reads as these records. -/

namespace Onboard

namespace AuditLog

theorem readRecord?_encode {r : AuditRecord} (short : r.payload.length < 2 ^ 32) (rest : Bytes) :
    readRecord? (r.encode ++ rest) = some (r, rest) := by
  have header : (r.encode ++ rest).take 12 = littleEndian 8 r.time.toBits.toNat ++ littleEndian 4 r.payload.length := by
    rw [AuditRecord.encode, List.append_assoc]
    exact List.take_left' (by simp [length_littleEndian])
  have body : (r.encode ++ rest).drop 12 = r.payload ++ rest := by
    rw [AuditRecord.encode, List.append_assoc]
    exact List.drop_left' (by simp [length_littleEndian])
  have time : ofLittleEndian (littleEndian 8 r.time.toBits.toNat) = r.time.toBits.toNat := by
    rw [ofLittleEndian_littleEndian]
    exact Nat.mod_eq_of_lt r.time.toBits.toNat_lt
  have length : ofLittleEndian (littleEndian 4 r.payload.length) = r.payload.length := by
    rw [ofLittleEndian_littleEndian]
    exact Nat.mod_eq_of_lt short
  simp only [readRecord?, header, body, List.take_left' (length_littleEndian 8 _),
    List.drop_left' (length_littleEndian 8 _), time, length]
  rw [if_pos (by simp [length_littleEndian]), List.take_left, List.drop_left, UInt64.ofNat_toNat, Float.ofBits_toBits]

/-- Each record says where it ends, so their bytes on end are read as these records and no others. -/
theorem read?_flatMap {records : List AuditRecord} (short : ∀ r ∈ records, r.payload.length < 2 ^ 32) :
    read? (records.flatMap AuditRecord.encode) = some records := by
  induction records with
  | nil => rw [List.flatMap_nil, read?, if_pos rfl]
  | cons r rest ih =>
    have first := readRecord?_encode (short r List.mem_cons_self) (rest.flatMap AuditRecord.encode)
    have some : r.encode ++ rest.flatMap AuditRecord.encode ≠ [] := by
      simp [AuditRecord.encode, littleEndian]
    rw [List.flatMap_cons, read?, if_neg some]
    split
    · next found =>
      cases first.symm.trans found
      rw [ih fun r member => short r (List.mem_cons_of_mem _ member), Option.map_some]
    · next found => cases first.symm.trans found

theorem foldl_record (log : AuditLog) (records : List AuditRecord) :
    records.foldl record log = { log with pending := log.pending ++ records } := by
  induction records generalizing log with
  | nil => rw [List.foldl_nil, List.append_nil]
  | cons r rest ih => rw [List.foldl_cons, ih, record, List.append_assoc, List.singleton_append]

end AuditLog

namespace Recording

theorem queued_append (r : Recording) (a b : List AuditAction) :
    r.queued (a ++ b) = r.queued a ++ (r.run a).queued b := by
  induction a generalizing r with
  | nil => rfl
  | cons first rest ih =>
    rw [List.cons_append, queued, queued, ih, List.append_assoc]
    rfl

/-- What has been queued is written or waits, in the order in which it came. The writer has ended only if nothing
waits and nothing can come. -/
structure Keeps (path : String) (records : List AuditRecord) (r : Recording) : Prop where
  samePath : r.log.path = path
  inOrder : ∃ done, records = done ++ r.log.pending ∧ r.log.written = done.flatMap AuditRecord.encode
  ended : r.writing = false → r.log.pending = [] ∧ r.isOpen = false ∧ r.inFile = r.log.written.length
  returned : r.phase = .returned → r.writing = false

theorem keeps_opened (path : String) : Keeps path [] (opened path) :=
  ⟨rfl, ⟨[], rfl, rfl⟩, nofun, nofun⟩

theorem isOpen_of_mem {r : Recording} (member : sink ∈ r.sinks) : r.isOpen = true := by
  cases sinks : r.sinks with
  | nil => rw [sinks] at member; cases member
  | cons => simp [isOpen, sinks]

namespace Keeps

variable {path : String} {r : Recording}

/-- As long as a record can be queued, the writer goes on. -/
theorem writing (keeps : Keeps path records r) (stillOpen : r.isOpen = true) : r.writing = true := by
  refine Bool.eq_true_of_not_eq_false fun ended => ?_
  rw [(keeps.ended ended).2.1] at stillOpen
  cases stillOpen

theorem record (keeps : Keeps path records r) (member : sink ∈ r.sinks) (record : AuditRecord) :
    Keeps path (records ++ [record]) { r with log := r.log.record record } := by
  have writing := keeps.writing (isOpen_of_mem member)
  obtain ⟨done, same, written⟩ := keeps.inOrder
  refine ⟨keeps.samePath, ⟨done, ?_, written⟩, fun ended => ?_, keeps.returned⟩
  · rw [same, List.append_assoc]
    rfl
  · cases writing.symm.trans ended

theorem write (keeps : Keeps path records r) (writing : r.writing = true) :
    Keeps path records { r with log := r.log.writeNext } := by
  obtain ⟨done, same, written⟩ := keeps.inOrder
  have samePath : r.log.writeNext.path = path := by
    rw [← keeps.samePath, AuditLog.writeNext]
    split <;> rfl
  refine ⟨samePath, ?_, fun ended => (nomatch writing.symm.trans ended), keeps.returned⟩
  cases pending : r.log.pending with
  | nil => exact ⟨done, by simpa [AuditLog.writeNext, pending] using same, by simpa [AuditLog.writeNext, pending]⟩
  | cons first later =>
    refine ⟨done ++ [first], ?_, ?_⟩
    · simp [AuditLog.writeNext, pending, same]
    · simp [AuditLog.writeNext, pending, written]

/-- What touches neither the log nor the writer, and opens nothing that was closed. -/
theorem of_same (keeps : Keeps path records r) {s : Recording} (log : s.log = r.log) (inFile : s.inFile = r.inFile)
    (writing : s.writing = r.writing) (closed : r.isOpen = false → s.isOpen = false)
    (returned : s.phase = .returned → s.writing = false) : Keeps path records s := by
  refine ⟨log ▸ keeps.samePath, log ▸ keeps.inOrder, fun ended => ?_, returned⟩
  obtain ⟨pending, isClosed, all⟩ := keeps.ended (writing ▸ ended)
  exact ⟨log ▸ pending, closed isClosed, by rw [inFile, log, all]⟩

/-- One action, of a sink, of the writer or of who ends the log. -/
theorem step (keeps : Keeps path records r) (action : AuditAction) :
    Keeps path (records ++ (r.queued? action).toList) (r.step action) := by
  -- Every action but a record leaves the list as it is.
  have silent (none : r.queued? action = none) (kept : Keeps path records (r.step action)) :
      Keeps path (records ++ (r.queued? action).toList) (r.step action) := by
    rwa [none, Option.toList_none, List.append_nil]
  cases action with
  | record sink record =>
    rw [queued?, Recording.step]
    split
    · next member => exact keeps.record member record
    · rwa [Option.toList_none, List.append_nil]
  | write =>
    refine silent rfl ?_
    rw [Recording.step]
    split
    · next writing => exact keeps.write writing
    · exact keeps
  | sink name =>
    refine silent rfl ?_
    rw [Recording.step]
    split
    · next accepting =>
      exact keeps.of_same rfl rfl rfl (fun closed => by simp [isOpen, accepting] at closed) keeps.returned
    · exact keeps
  | clone sink name =>
    refine silent rfl ?_
    rw [Recording.step]
    split
    · next member =>
      exact keeps.of_same rfl rfl rfl (fun closed => nomatch closed.symm.trans (isOpen_of_mem member)) keeps.returned
    · exact keeps
  | drop sink =>
    refine silent rfl ?_
    rw [Recording.step]
    refine keeps.of_same rfl rfl rfl (fun closed => ?_) keeps.returned
    simp only [isOpen, Bool.or_eq_false_iff, Bool.not_eq_false', List.isEmpty_iff] at closed ⊢
    exact ⟨closed.1, by rw [closed.2]; rfl⟩
  | spill bytes =>
    refine silent rfl ?_
    rw [Recording.step]
    refine ⟨keeps.samePath, keeps.inOrder, fun ended => ?_, keeps.returned⟩
    obtain ⟨pending, isClosed, all⟩ := keeps.ended ended
    exact ⟨pending, isClosed, by simp [all]⟩
  | finish =>
    refine silent rfl ?_
    rw [Recording.step]
    split
    · next due =>
      have closed : r.isOpen = false := by simpa using due.2
      exact ⟨keeps.samePath, keeps.inOrder, fun _ => ⟨due.1, closed, rfl⟩, fun _ => rfl⟩
    · exact keeps
  | beginExit =>
    refine silent rfl ?_
    rw [Recording.step]
    split
    · next accepting =>
      exact keeps.of_same rfl rfl rfl (fun closed => by simp [isOpen, accepting] at closed) nofun
    · exact keeps
  | join =>
    refine silent rfl ?_
    rw [Recording.step]
    split
    · next due =>
      refine keeps.of_same rfl rfl rfl (fun closed => ?_) fun _ => by simpa using due.2
      simpa [isOpen, due.1] using closed
    · exact keeps

theorem run (path : String) (actions : List AuditAction) :
    Keeps path ((opened path).queued actions) ((opened path).run actions) := by
  induction actions using List.reverseRecOn with
  | nil => exact keeps_opened path
  | append_singleton actions action ih =>
    rw [queued_append, run_append, queued, queued, List.append_nil]
    exact ih.step action

end Keeps

/-- The writer, left alone, takes all that waits. -/
theorem run_writes (r : Recording) (writing : r.writing = true) :
    r.run (List.replicate r.log.pending.length .write) = { r with log := r.log.exit } := by
  obtain ⟨⟨path, pending, written⟩, inFile, sinks, _, phase⟩ := r
  cases writing
  induction pending generalizing written with
  | nil => simp [run, AuditLog.exit]
  | cons first later ih =>
    have next := ih (written ++ first.encode)
    simp only [run, List.length_cons, List.replicate_succ, List.foldl_cons, step, AuditLog.writeNext, if_pos] at next ⊢
    rw [next]
    simp [AuditLog.exit]

/-- An audit log into which these records have been queued. Its file never holds anything but them, in their order;
once the end of the log has returned it holds all of them, as if each had been queued and then all been written, and
reads as these. When no sink is left, the end returns as soon as the writer has been left alone for long enough. -/
structure KeepsAll (path : String) (records : List AuditRecord) (r : Recording) : Prop where
  always : r.file <+: records.flatMap AuditRecord.encode
  log : r.phase = .returned → r.log = (records.foldl AuditLog.record (opened path).log).exit
  /-- So it is with a log whose file has just been made. -/
  created : r.phase = .returned → ∀ t log made, AuditLog.create t path = .ok (log, made) →
    r.log = (records.foldl AuditLog.record log).exit
  file : r.phase = .returned → r.file = records.flatMap AuditRecord.encode
  read : r.phase = .returned → AuditLog.read? r.file = some records
  returns : r.phase ≠ .accepting → r.sinks = [] →
    (r.run (List.replicate r.log.pending.length .write ++ [.finish, .join])).phase = .returned

namespace Keeps

variable {path : String} {records : List AuditRecord} {r : Recording}

theorem file_prefix (keeps : Keeps path records r) : r.file <+: records.flatMap AuditRecord.encode := by
  obtain ⟨done, same, written⟩ := keeps.inOrder
  rw [same, List.flatMap_append, ← written]
  exact (List.take_prefix ..).trans (List.prefix_append ..)

theorem of_returned (keeps : Keeps path records r) (returned : r.phase = .returned) :
    r.log = (records.foldl AuditLog.record (opened path).log).exit ∧
      r.file = records.flatMap AuditRecord.encode := by
  obtain ⟨pending, -, all⟩ := keeps.ended (keeps.returned returned)
  obtain ⟨done, same, written⟩ := keeps.inOrder
  rw [pending, List.append_nil] at same
  cases same
  refine ⟨?_, ?_⟩
  · rw [AuditLog.foldl_record]
    obtain ⟨⟨_, _, _⟩, _, _, _, _⟩ := r
    cases pending
    cases written
    cases keeps.samePath
    rfl
  · rw [file, all, List.take_length, written]

/-- What the writer does when it is left alone, whether it has ended before or not. -/
theorem run_writes (keeps : Keeps path records r) :
    r.run (List.replicate r.log.pending.length .write) = { r with log := r.log.exit } := by
  by_cases writing : r.writing
  · exact Recording.run_writes r writing
  · obtain ⟨pending, -, -⟩ := keeps.ended (Bool.eq_false_iff.mpr writing)
    obtain ⟨⟨_, _, _⟩, _, _, _, _⟩ := r
    cases pending
    simp [Recording.run, AuditLog.exit]

theorem returns (keeps : Keeps path records r) (exits : r.phase ≠ .accepting) (none : r.sinks = []) :
    (r.run (List.replicate r.log.pending.length .write ++ [.finish, .join])).phase = .returned := by
  have closed : r.isOpen = false := by simp [isOpen, exits, none]
  rw [run_append, keeps.run_writes]
  have finished : { r with log := r.log.exit }.step .finish =
      { r with log := r.log.exit, inFile := r.log.exit.written.length, writing := false } := by
    rw [Recording.step, if_pos ⟨rfl, by rw [Bool.not_eq_true']; exact closed⟩]
  rw [Recording.run, List.foldl_cons, finished, List.foldl_cons, List.foldl_nil, Recording.step]
  cases phase : r.phase with
  | accepting => exact absurd phase exits
  | joining => simp
  | returned => simp

end Keeps

/-- An audit log loses, repeats, merges and splits nothing, however its sinks and its writer take turns. -/
theorem audit_log_keeps_all {path : String} {actions : List AuditAction}
    (short : ∀ r ∈ (opened path).queued actions, r.payload.length < 2 ^ 32) :
    KeepsAll path ((opened path).queued actions) ((opened path).run actions) := by
  have keeps := Keeps.run path actions
  constructor
  · exact keeps.file_prefix
  · intro returned
    exact (keeps.of_returned returned).1
  · intro returned t log made created
    rw [← opened_log created]
    exact (keeps.of_returned returned).1
  · intro returned
    exact (keeps.of_returned returned).2
  · intro returned
    rw [(keeps.of_returned returned).2, AuditLog.read?_flatMap short]
  · intro exits none
    exact keeps.returns exits none

/-- Two sinks, one of which outlives the begin of the end; a payload is empty, and another looks like the header of a
record. -/
def twoSinks : List AuditAction :=
  [.sink 0, .clone 0 1, .record 0 ⟨1.5, []⟩, .write, .record 1 ⟨1.25, [0, 0, 0, 0, 0, 0, 0, 0, 1, 0, 0, 0]⟩, .spill 5,
    .record 0 ⟨2.0, [7]⟩, .drop 0, .beginExit, .record 1 ⟨3.0, [1, 2]⟩, .write, .record 0 ⟨4.0, [9]⟩, .drop 1, .write,
    .write, .finish, .join]

theorem audit_log_keeps_twoSinks :
    (∀ r ∈ (opened "log").queued twoSinks, r.payload.length < 2 ^ 32) ∧
      ((opened "log").run twoSinks).phase = .returned ∧
      AuditLog.read? ((opened "log").run twoSinks).file =
        some [⟨1.5, []⟩, ⟨1.25, [0, 0, 0, 0, 0, 0, 0, 0, 1, 0, 0, 0]⟩, ⟨2.0, [7]⟩, ⟨3.0, [1, 2]⟩] := by
  have short : ∀ r ∈ (opened "log").queued twoSinks, r.payload.length < 2 ^ 32 := by decide
  have returned : ((opened "log").run twoSinks).phase = .returned := by decide
  exact ⟨short, returned, (audit_log_keeps_all short).read returned⟩

end Recording

end Onboard
