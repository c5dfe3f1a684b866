import Mathlib.Data.List.Count
import Linkage.Proofs.Event.Delivery

/-!
# The level at which an event is logged

A message brings the level at which its event was sent.  The record of the event has a level of its
own all the same, and the handler counts by a third one, that of the event; for an event that is sent
as the program sends it they agree.

* `Message.record`             the record that a handler writes for a message;
* `Message.level_record_iff`   when its level is the one that the message brings;
* `Message.isRaised`, `Message.isLowered`   skips that are written as something other than they count;
* `Tally.observeAll_eq`        what is counted in the end;
* `records_at_level_iff`       records and counts of a handler, whatever it is given.
-/

namespace Linkage

/-- Whether an event tells of a data-bus that was left alone. -/
def Event.isSkipped : Event → Bool
  | link (.skipped ..) => true
  | _ => false

theorem Tally.isSkip_of_isConflict {e : Event} (h : isConflict e = true) : e.isSkipped = true := by
  unfold isConflict at h
  split at h
  · rfl
  · cases h

/-- a skip is an error if it is a conflict, and else a warning -/
theorem Event.level_of_isSkipped {e : Event} (h : e.isSkipped = true) :
    e.level = if Tally.isConflict e then .error else .warn := by
  unfold isSkipped at h
  split at h
  · rfl
  · cases h

/-- only the record of a skip looks at the level that comes with the event -/
theorem Event.level_record (v : Envelope) (e : Event) : (e.record v).level =
    if e.isSkipped then if v.level = .error then .error else .warn else e.level := by
  cases e with
  | general e => cases e <;> rfl
  | cluster e => cases e <;> rfl
  | link e => cases e <;> rfl

namespace Message

/-- The record that a handler writes. -/
def record (m : Message) : LogRecord := m.event.record m.envelope

/-- Whether a skip that is no conflict is written as an error. -/
def isRaised (m : Message) : Bool :=
  m.event.isSkipped && !Tally.isConflict m.event && m.envelope.level = .error

/-- Whether a conflict is written as a warning. -/
def isLowered (m : Message) : Bool := Tally.isConflict m.event && m.envelope.level ≠ .error

variable {m : Message}

theorem level_record_of_isSkipped (h : m.event.isSkipped = true) :
    m.record.level = if m.envelope.level = .error then .error else .warn := by
  unfold record
  rw [Event.level_record, if_pos h]

theorem level_record_of_not_isSkipped (h : ¬m.event.isSkipped = true) :
    m.record.level = m.event.level := by
  unfold record
  rw [Event.level_record, if_neg h]

theorem level_record_iff : m.record.level = m.envelope.level ↔
    m.envelope.level = m.event.level ∨
      m.event.isSkipped = true ∧ (m.envelope.level = .error ∨ m.envelope.level = .warn) := by
  by_cases h : m.event.isSkipped = true
  · have hskip : m.record.level = m.envelope.level ↔
        m.envelope.level = .error ∨ m.envelope.level = .warn := by
      rw [level_record_of_isSkipped h]
      by_cases he : m.envelope.level = .error
      · rw [if_pos he, he]
        exact ⟨.inl, fun _ => rfl⟩
      · rw [if_neg he]
        exact ⟨fun hw => .inr hw.symm, fun hw => (hw.resolve_left he).symm⟩
    rw [hskip]
    refine ⟨fun hlevel => .inr ⟨h, hlevel⟩, fun hlevel => hlevel.elim (fun hlevel => ?_) And.right⟩
    rw [hlevel, Event.level_of_isSkipped h]
    split
    · exact .inl rfl
    · exact .inr rfl
  · rw [level_record_of_not_isSkipped h, eq_comm]
    exact ⟨.inl, fun hlevel => hlevel.resolve_right fun hskip => h hskip.1⟩

/-- what is counted as a warning is written as one, apart from skips that are raised or lowered -/
theorem warn_balance (m : Message) :
    (if m.event.level = .warn then 1 else 0) + (if m.isLowered then 1 else 0)
      = (if m.record.level = .warn then 1 else 0) + (if m.isRaised then 1 else 0) := by
  unfold isLowered isRaised
  by_cases h : m.event.isSkipped = true
  · rw [level_record_of_isSkipped h, Event.level_of_isSkipped h, h]
    cases Tally.isConflict m.event <;> by_cases he : m.envelope.level = .error <;> simp [he]
  · have hc : Tally.isConflict m.event = false :=
      Bool.eq_false_iff.2 fun hc => h (Tally.isSkip_of_isConflict hc)
    rw [level_record_of_not_isSkipped h, hc, Bool.eq_false_iff.2 h]
    rfl

end Message

/-! ## what is counted -/

namespace Tally

theorem warnings_observe (t : Tally) (e : Event) :
    (t.observe e).warnings = t.warnings + if e.level = .warn then 1 else 0 := by
  show (if e.level = .warn then t.warnings + 1 else t.warnings) = _
  split <;> rfl

theorem conflicts_observe (t : Tally) (e : Event) :
    (t.observe e).conflicts = t.conflicts + if isConflict e then 1 else 0 := by
  show (if isConflict e then t.conflicts + 1 else t.conflicts) = _
  split <;> rfl

theorem observeAll_eq (t : Tally) (es : List Event) : t.observeAll es =
    ⟨t.warnings + es.countP fun e => e.level = .warn, t.conflicts + es.countP isConflict⟩ := by
  induction es generalizing t with
  | nil => rfl
  | cons e es ih =>
    have hstep : t.observeAll (e :: es) = (t.observe e).observeAll es := rfl
    rw [hstep, ih, warnings_observe, conflicts_observe, List.countP_cons, List.countP_cons]
    simp only [decide_eq_true_eq, mk.injEq]
    omega

end Tally

/-- warnings that are counted and warnings that are written, over a list of messages -/
theorem Message.countP_warn_balance (ms : List Message) :
    (ms.countP fun m => m.event.level = .warn) + ms.countP isLowered
      = (ms.countP fun m => m.record.level = .warn) + ms.countP isRaised := by
  induction ms with
  | nil => rfl
  | cons m ms ih =>
    have hone := warn_balance m
    simp only [List.countP_cons, decide_eq_true_eq]
    omega

/-- What a handler has written and counted after any messages.  There is one record for each message,
in their order.  It has the level that came with the message just when this is the level of the event
itself, or the event is a skip and the level that of an error or of a warning.  All conflicts are
counted as such.  Warnings are counted by the level of the event: against the records that are
warnings, conflicts that are written as warnings are missing, and skips that are written as errors are
too many.  Messages that bring the levels of their events are logged at these levels, and the warnings
that are counted are those that are written. -/
theorem records_at_level_iff (ms : List Message) :
    let h := ms.foldl Handler.handle .start
    h.records = ms.map Message.record ∧
    (∀ m : Message, m.record.level = m.envelope.level ↔ m.envelope.level = m.event.level ∨
      m.event.isSkipped = true ∧ (m.envelope.level = .error ∨ m.envelope.level = .warn)) ∧
    h.tally.conflicts = (ms.countP fun m => Tally.isConflict m.event) ∧
    h.tally.warnings + ms.countP Message.isLowered
      = (h.records.countP fun r => r.level = .warn) + ms.countP Message.isRaised ∧
    ((∀ m ∈ ms, m.envelope.level = m.event.level) →
      h.records.map LogRecord.level = ms.map (·.envelope.level) ∧
      h.tally.warnings = h.records.countP fun r => r.level = .warn) := by
  intro h
  have hrecords : h.records = ms.map Message.record := by
    unfold h
    rw [Handler.foldl_handle]
    rfl
  have htally : h.tally = ⟨ms.countP fun m => m.event.level = .warn,
      ms.countP fun m => Tally.isConflict m.event⟩ := by
    unfold h
    rw [Handler.foldl_handle, Tally.observeAll_eq, List.countP_map, List.countP_map]
    refine congr (congrArg Tally.mk ?_) ?_ <;> exact Nat.zero_add _
  have hwarn : (h.records.countP fun r => r.level = .warn)
      = ms.countP fun m => m.record.level = .warn := by
    rw [hrecords, List.countP_map]
    rfl
  refine ⟨hrecords, fun m => Message.level_record_iff, by rw [htally], ?_, fun hsent => ⟨?_, ?_⟩⟩
  · rw [htally, hwarn]
    exact Message.countP_warn_balance ms
  · rw [hrecords, List.map_map]
    exact List.map_congr_left fun m hm => Message.level_record_iff.2 (.inl (hsent m hm))
  · rw [htally, hwarn]
    refine List.countP_congr fun m hm => ?_
    have hlevel : m.record.level = m.event.level :=
      (Message.level_record_iff.2 (.inl (hsent m hm))).trans (hsent m hm)
    rw [hlevel]

/-- a start and a skip, both of which are sent as errors: the start is logged as information, and the
skip is counted as a warning although no record is one -/
theorem logged_at_other_levels : ∃ ms : List Message,
    (ms.foldl Handler.handle .start).records.map LogRecord.level ≠ ms.map (·.envelope.level) ∧
    (ms.foldl Handler.handle .start).tally.warnings
      ≠ (ms.foldl Handler.handle .start).records.countP fun r => r.level = .warn :=
  ⟨[⟨⟨.error, .general, none⟩, .general (.started "rebuild")⟩,
    ⟨⟨.error, .dataLink, none⟩, .link (.skipped "bus" .missingComponent "VmStorageBinding: v")⟩],
    by decide, by decide⟩

end Linkage
