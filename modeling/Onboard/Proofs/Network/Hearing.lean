import Onboard.Proofs.Datagram.Listener
import Onboard.Proofs.Network.Polls
import Onboard.Proofs.Wire.Control

/-! What datagrams do to a source. A datagram that cannot be read has no effect, and one that can be read reaches the
source as its set. One kind of set ends the thread of the source for good: a set sent later than all others, when the
numbers counted so far and its own span the whole range, so that the estimate of lost sets has no result. -/

namespace Onboard

/-- One receive at a source. -/
structure Reception where
  source : Nat
  receipt : Receipt
  receivedAt : Instant
  receivedTime : Float

/-- A datagram with a set for no robot. -/
def Reception.ofEmpty (number : UInt64) (timeSent : Float) : Reception :=
  ⟨0, .datagram (Wire.write (⟨number, timeSent, .empty⟩ : PrimitiveSet)), 0, timeSent⟩

def Reception.arrival? (r : Reception) (bufferSize : Nat) : Option Arrival :=
  (Listener.message? bufferSize r.receipt).map fun set => ⟨r.source, set, r.receivedAt, r.receivedTime⟩

/-- The sets that a source hears, whose listener has a buffer of this size. -/
def heard (bufferSize source : Nat) (receptions : List Reception) : List Arrival :=
  (receptions.filter fun r => r.source = source).filterMap fun r => r.arrival? bufferSize

namespace LossWindow

/-- A window after these numbers have come. -/
def after (capacity : Nat) (numbers : List UInt64) : LossWindow :=
  numbers.foldl record (withCapacity capacity)

/-- The numbers from the least to the greatest of the window are too many to be counted. -/
structure Spans (w : LossWindow) : Prop where
  least : 0 ∈ w.numbers
  greatest : 0xFFFFFFFFFFFFFFFF ∈ w.numbers

theorem percentage_ok_iff (w : LossWindow) : (∃ loss, w.percentage = .ok loss) ↔ ¬ w.Spans := by
  cases estimate : w.percentage with
  | ok loss =>
    refine ⟨fun _ spans => ?_, fun _ => ⟨loss, rfl⟩⟩
    obtain ⟨e, failed⟩ := w.percentage_error_iff.mpr ⟨spans.least, spans.greatest⟩
    exact nomatch estimate.symm.trans failed
  | error e =>
    obtain ⟨least, greatest⟩ := w.percentage_error_iff.mp ⟨e, estimate⟩
    exact ⟨nofun, fun counted => absurd ⟨least, greatest⟩ counted⟩

theorem after_concat (capacity : Nat) (numbers : List UInt64) (number : UInt64) :
    after capacity (numbers ++ [number]) = (after capacity numbers).record number :=
  List.foldl_concat ..

theorem mem_after {capacity : Nat} {numbers : List UInt64} (member : m ∈ (after capacity numbers).numbers) :
    m ∈ numbers := by
  induction numbers using List.reverseRecOn with
  | nil => exact member
  | append_singleton numbers number ih =>
    rw [after_concat] at member
    rcases mem_record member with rfl | old
    · exact List.mem_append_right _ (List.mem_singleton_self m)
    · exact List.mem_append_left _ (ih old)

end LossWindow

/-- The numbers that a source counts after some arrivals. -/
def counted (arrived : List Arrival) : LossWindow :=
  .after 100 (arrived.map fun a => a.set.sequence)

/-- A set has come that was sent later than all before it, with numbers counted that do not allow an estimate. -/
def Overwhelmed (arrived : List Arrival) : Prop :=
  ∃ before a after, arrived = before ++ a :: after ∧ a.Outruns before ∧ (counted (before ++ [a])).Spans

theorem counted_concat (arrived : List Arrival) (a : Arrival) :
    counted (arrived ++ [a]) = (counted arrived).record a.set.sequence := by
  rw [counted, List.map_append]
  exact LossWindow.after_concat ..

theorem not_overwhelmed_nil : ¬ Overwhelmed [] := by
  rintro ⟨before, a, after, whole, -⟩
  exact absurd whole (by simp)

theorem overwhelmed_concat_iff (arrived : List Arrival) (a : Arrival) :
    Overwhelmed (arrived ++ [a]) ↔ Overwhelmed arrived ∨ (a.Outruns arrived ∧ (counted (arrived ++ [a])).Spans) := by
  constructor
  · rintro ⟨before, b, after, whole, outruns, spans⟩
    rcases concat_split whole with ⟨rfl, rfl, -⟩ | ⟨between, rfl, -⟩
    · exact .inr ⟨outruns, spans⟩
    · exact .inl ⟨before, b, between, rfl, outruns, spans⟩
  · rintro (⟨before, b, after, rfl, outruns, spans⟩ | ⟨outruns, spans⟩)
    · exact ⟨before, b, after ++ [a], by rw [List.append_assoc, List.cons_append], outruns, spans⟩
    · exact ⟨arrived, a, [], rfl, outruns, spans⟩

/-- As long as not both the least and the greatest number come, a source is not overwhelmed. -/
theorem not_overwhelmed (numbers : UInt64 → Prop) (apart : ¬ (numbers 0 ∧ numbers 0xFFFFFFFFFFFFFFFF))
    (allowed : ∀ a ∈ arrived, numbers a.set.sequence) : ¬ Overwhelmed arrived := by
  rintro ⟨before, a, after, rfl, -, spans⟩
  have known : ∀ m ∈ (counted (before ++ [a])).numbers, numbers m := by
    intro m member
    obtain ⟨b, came, rfl⟩ := List.mem_map.mp (LossWindow.mem_after member)
    refine allowed b ?_
    rw [← List.singleton_append, ← List.append_assoc]
    exact List.mem_append_left _ came
  exact apart ⟨known 0 spans.least, known _ spans.greatest⟩

/-- A source after some arrivals. -/
def PrimitiveSource.after (arrived : List Arrival) : PrimitiveSource :=
  arrived.foldl (fun x a => x.deliver a.set a.receivedAt a.receivedTime) .silent

theorem PrimitiveSource.after_concat (arrived : List Arrival) (a : Arrival) :
    PrimitiveSource.after (arrived ++ [a]) =
      (PrimitiveSource.after arrived).deliver a.set a.receivedAt a.receivedTime :=
  List.foldl_concat ..

theorem deliver_faulty {x : PrimitiveSource} (faulty : x.fault.isSome = true) (set : PrimitiveSet) (now : Instant)
    (time : Float) : x.deliver set now time = x :=
  if_pos faulty

/-- A source either has the newest set of those that came, or was overwhelmed by one of them. -/
theorem attends_or_overwhelmed (valid : ∀ a ∈ arrived, a.set.timeSent.isNaN = false) :
    (¬ Overwhelmed arrived ∧ Attends arrived (.after arrived) ∧
        (PrimitiveSource.after arrived).window = counted arrived) ∨
      (Overwhelmed arrived ∧ (PrimitiveSource.after arrived).fault.isSome = true) := by
  induction arrived using List.reverseRecOn with
  | nil => exact .inl ⟨not_overwhelmed_nil, ⟨rfl, rfl, nofun, nofun⟩, rfl⟩
  | append_singleton arrived a ih =>
    rw [PrimitiveSource.after_concat, overwhelmed_concat_iff]
    rcases ih fun b member => valid b (List.mem_append_left _ member) with ⟨calm, attends, window⟩ | ⟨before, faulty⟩
    · have record : (PrimitiveSource.after arrived).window.record a.set.sequence = counted (arrived ++ [a]) := by
        rw [window, counted_concat]
      by_cases last : a.Outruns arrived ∧ (counted (arrived ++ [a])).Spans
      · refine .inr ⟨.inr last, ?_⟩
        obtain ⟨e, failed⟩ := (counted (arrived ++ [a])).percentage_error_iff.mpr ⟨last.2.least, last.2.greatest⟩
        rw [attends.deliver_newer last.1, record, failed]
        rfl
      · refine .inl ⟨not_or.mpr ⟨calm, last⟩, ?_, ?_⟩
        · refine attends.deliver valid fun outruns => ?_
          rw [record, LossWindow.percentage_ok_iff]
          exact fun spans => last ⟨outruns, spans⟩
        · rw [attends.window_deliver, record]
    · rw [deliver_faulty faulty]
      exact .inr ⟨.inl before, faulty⟩

namespace NetworkService

def Front.hear (f : Front) (r : Reception) : Front :=
  f.receive r.source r.receipt r.receivedAt r.receivedTime

/-- The source takes part: its thread waits for datagrams, and the newest set heard is there for polls. -/
structure Front.Serves (f : Front) (source : Nat) (arrived : List Arrival) : Prop where
  receives : f.listeners[source]?.map Listener.thread = some .receiving
  publishes : ∃ x, f.service.sources[source]? = some x ∧ IsNewest x.slot arrived

/-- The thread of the source has ended. -/
def Front.IsDeaf (f : Front) (source : Nat) : Prop :=
  f.listeners[source]?.map Listener.thread = some .ended

/-- What a source holds after some arrivals, and whether its listener still waits for more. -/
structure Front.Mirrors (f : Front) (bufferSize source : Nat) (arrived : List Arrival) : Prop where
  holds : f.service.sources[source]? = some (.after arrived)
  listens : ∃ l, f.listeners[source]? = some l ∧
    if (PrimitiveSource.after arrived).fault.isSome then l.thread = .ended else l.Waits bufferSize

theorem Front.mirrors_opened {settings : LoopSettings} (opened : onSources count settings = .ok s)
    (present : source < count) (bufferSize : Nat) (audits : Bool) :
    (s.front bufferSize audits).Mirrors (max bufferSize 1) source [] := by
  have sources := (fresh_onSources opened).sources
  have silent : s.sources[source]? = some .silent := by
    rw [sources]
    exact List.getElem?_replicate_of_lt present
  refine ⟨silent, .opened bufferSize audits, ?_, Listener.waits_opened bufferSize audits⟩
  change (s.sources.map _)[source]? = _
  rw [List.getElem?_map, silent]
  rfl

theorem sources_deliveries (s : NetworkService) (sets : List PrimitiveSet) (other : j ≠ source) :
    (sets.foldl (fun s set => s.deliver j set now time) s).sources[source]? = s.sources[source]? := by
  induction sets generalizing s with
  | nil => rfl
  | cons set rest ih =>
    rw [List.foldl_cons, ih]
    exact List.getElem?_modify_ne _ _ other

theorem holds_heard {s : NetworkService} {r : Reception} (bufferSize : Nat)
    (holds : s.sources[r.source]? = some (.after arrived)) :
    ((Listener.message? bufferSize r.receipt).toList.foldl
        (fun s set => s.deliver r.source set r.receivedAt r.receivedTime) s).sources[r.source]? =
      some (.after (arrived ++ (r.arrival? bufferSize).toList)) := by
  unfold Reception.arrival?
  cases (Listener.message? bufferSize r.receipt : Option PrimitiveSet) with
  | none =>
    rw [Option.map_none, Option.toList_none, Option.toList_none, List.append_nil]
    exact holds
  | some set =>
    rw [Option.map_some, Option.toList_some, Option.toList_some, PrimitiveSource.after_concat]
    refine (List.getElem?_modify_eq ..).trans ?_
    rw [holds]
    rfl

theorem Front.Mirrors.elsewhere (mirrors : Mirrors f bufferSize source arrived) (other : r.source ≠ source) :
    Mirrors (f.hear r) bufferSize source arrived := by
  unfold hear receive
  cases f.listeners[r.source]? with
  | none => exact mirrors
  | some l =>
    obtain ⟨m, found, state⟩ := mirrors.listens
    refine ⟨?_, m, ?_, state⟩
    · rw [← mirrors.holds]
      exact sources_deliveries _ _ other
    · rw [← found]
      exact List.getElem?_set_ne other

/-- The receipt's set, if there is one, is delivered; with the fault of a delivery the thread ends. -/
theorem Front.Mirrors.here (mirrors : Mirrors f bufferSize r.source arrived) :
    Mirrors (f.hear r) bufferSize r.source (arrived ++ (r.arrival? bufferSize).toList) := by
  obtain ⟨l, found, state⟩ := mirrors.listens
  obtain ⟨bound, -⟩ := List.getElem?_eq_some_iff.mp found
  have place : ∀ next, (f.listeners.set r.source next)[r.source]? = some next := fun _ => List.getElem?_set_self bound
  unfold hear receive
  rw [found]
  dsimp only
  split at state
  · next faulty =>
    have same : PrimitiveSource.after (arrived ++ (r.arrival? bufferSize).toList) = .after arrived := by
      cases r.arrival? bufferSize with
      | none => rw [Option.toList_none, List.append_nil]
      | some a => rw [Option.toList_some, PrimitiveSource.after_concat, deliver_faulty faulty]
    rw [Listener.run_ended state, List.drop_length, List.foldl_nil, mirrors.holds, Option.any_some, if_pos faulty]
    refine ⟨by rw [same]; exact mirrors.holds, _, place _, ?_⟩
    rw [same, if_pos faulty]
  · next sound =>
    obtain ⟨messages, waits⟩ := state.handed r.receipt
    rw [messages, List.drop_left]
    have holds := holds_heard bufferSize mirrors.holds
    refine ⟨holds, _, place _, ?_⟩
    rw [holds, Option.any_some]
    split
    · rfl
    · exact waits

theorem heard_concat (bufferSize source : Nat) (receptions : List Reception) (r : Reception) :
    heard bufferSize source (receptions ++ [r]) =
      heard bufferSize source receptions ++ if r.source = source then (r.arrival? bufferSize).toList else [] := by
  rw [heard, List.filter_append, List.filterMap_append]
  refine congrArg (heard bufferSize source receptions ++ ·) ?_
  split
  · next same =>
    rw [List.filter_cons_of_pos (by simpa using same)]
    cases found : r.arrival? bufferSize with
    | none => exact List.filterMap_cons_none found
    | some a => exact List.filterMap_cons_some found
  · next other =>
    rw [List.filter_cons_of_neg (by simpa using other)]
    rfl

theorem Front.Mirrors.run (mirrors : Mirrors f bufferSize source []) (receptions : List Reception) :
    Mirrors (receptions.foldl Front.hear f) bufferSize source (heard bufferSize source receptions) := by
  induction receptions using List.reverseRecOn with
  | nil => exact mirrors
  | append_singleton receptions r ih =>
    rw [List.foldl_concat, heard_concat]
    split
    · next same =>
      cases same
      exact ih.here
    · next other =>
      rw [List.append_nil]
      exact ih.elsewhere other

/-- What a source hears was sent at finite times. -/
theorem valid_heard (bufferSize source : Nat) (receptions : List Reception) :
    ∀ a ∈ heard bufferSize source receptions, a.set.timeSent.isNaN = false := by
  intro a member
  obtain ⟨r, -, read⟩ := List.mem_filterMap.mp member
  obtain ⟨set, message, rfl⟩ := Option.map_eq_some_iff.mp read
  have isRead : set.IsRead := by
    unfold Listener.message? at message
    split at message
    · exact ⟨_, message⟩
    · contradiction
  exact Double.number_of_isFinite isRead.parts.1

/-- Whatever comes, the thread of a source waits for the next datagram, and polls find the newest set that the source
has heard, exactly as long as no set overwhelms the source; after that its thread is gone. This is all due to the
estimate of lost sets, which has a result for any window that does not span the whole range. -/
theorem source_serves_iff {settings : LoopSettings} (opened : onSources count settings = .ok s)
    (present : source < count) (bufferSize : Nat) (audits : Bool) (receptions : List Reception) :
    let f := receptions.foldl Front.hear (s.front bufferSize audits)
    let arrived := heard (max bufferSize 1) source receptions
    (f.Serves source arrived ↔ ¬ Overwhelmed arrived) ∧ (f.IsDeaf source ↔ Overwhelmed arrived) ∧
      ∀ capacity numbers, (∃ loss, (LossWindow.after capacity numbers).percentage = .ok loss) ↔
        ¬ (LossWindow.after capacity numbers).Spans := by
  intro f arrived
  have mirrors : f.Mirrors (max bufferSize 1) source arrived :=
    (Front.mirrors_opened opened present bufferSize audits).run receptions
  obtain ⟨l, found, state⟩ := mirrors.listens
  have thread : ∀ t, f.listeners[source]?.map Listener.thread = some t ↔ l.thread = t := by
    intro t
    rw [found]
    exact Option.some_inj
  refine and_assoc.mp ⟨?_, fun capacity numbers => LossWindow.percentage_ok_iff _⟩
  have valid := valid_heard (max bufferSize 1) source receptions
  rcases attends_or_overwhelmed valid with ⟨calm, attends, -⟩ | ⟨spoilt, faulty⟩
  · rw [attends.fault] at state
    have waits : l.Waits (max bufferSize 1) := state
    have serves : f.Serves source arrived := ⟨(thread _).mpr waits.thread, _, mirrors.holds, attends.slot⟩
    refine ⟨iff_of_true serves calm, iff_of_false (fun deaf => ?_) calm⟩
    exact nomatch waits.thread.symm.trans ((thread _).mp deaf)
  · rw [if_pos faulty] at state
    refine ⟨iff_of_false (fun serves => ?_) (not_not.mpr spoilt), iff_of_true ((thread _).mpr state) spoilt⟩
    exact nomatch state.symm.trans ((thread _).mp serves.receives)

/-- A datagram that cannot be read does not keep the next one from being heard. -/
theorem serves_after_unreadable :
    ∃ s, onSources 1 .secondly = .ok s ∧
      let receptions := [⟨0, .datagram [0x7B], 0, 0.5⟩, Reception.ofEmpty 0 1.0]
      Front.Serves (receptions.foldl Front.hear (s.front 20000 false)) 0 (heard (max 20000 1) 0 receptions) := by
  obtain ⟨s, opened⟩ : ∃ s, onSources 1 .secondly = .ok s := ⟨_, rfl⟩
  refine ⟨s, opened, ?_⟩
  intro receptions
  have numbers : (heard (max 20000 1) 0 receptions).map (fun a => a.set.sequence) = [0] := by decide +kernel
  refine (source_serves_iff opened Nat.zero_lt_one 20000 false receptions).1.mpr ?_
  refine not_overwhelmed (fun number => number = 0) (fun both => absurd both.2 (by decide)) fun a came => ?_
  have member := List.mem_map_of_mem (f := fun a : Arrival => a.set.sequence) came
  rw [numbers] at member
  exact List.mem_singleton.mp member

/-- The second of three sets overwhelms the source, and the third is not even received. -/
theorem deaf_to_third_set :
    ∃ s, onSources 1 .secondly = .ok s ∧
      let receptions := [Reception.ofEmpty 0 1.0, .ofEmpty 0xFFFFFFFFFFFFFFFF 2.0, .ofEmpty 1 3.0]
      let f := receptions.foldl Front.hear (s.front 20000 false)
      (heard 20000 0 receptions).map (fun a => a.set.timeSent) = [1.0, 2.0, 3.0] ∧ f.IsDeaf 0 ∧
        f.service.newest.map (fun t => t.set.timeSent) = some 1.0 := by
  refine ⟨_, rfl, ?_⟩
  intro receptions f
  refine ⟨?_, ?_, ?_⟩
  · decide +kernel
  · unfold Front.IsDeaf
    decide +kernel
  · decide +kernel

end NetworkService

end Onboard
