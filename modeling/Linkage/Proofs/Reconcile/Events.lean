import Linkage.Proofs.Rebuild.Events
import Linkage.Proofs.Reconcile.Declared
import Linkage.Proofs.Reconcile.Pass

/-!
# The events of a pass and its report

A pass warns about each row of clusters that it cannot read, and tells about each lookup that fails.

* `Derivation.Told`   what a derivation has told about the rows it has read and the lookups it made;
* `Told.ask`, `Told.mention`, `Told.row`   each part of a derivation keeps this;
* `foldl_keeps`       what each step keeps with its part added, all steps keep with all parts;
* `told_run`          so it holds of what is derived from all rows;
* `ReconcileStory`    what a pass that ends with a report tells in all;
* `story_reconcile`, `silent_reconcile`   it tells this, and a pass that fails tells no report.
-/

namespace Linkage

namespace Event

def isWarning : Event → Bool
  | .general (.warning ..) => true
  | _ => false

theorem isWarning_iff {e : Event} :
    e.isWarning = true ↔ ∃ message context, e = .general (.warning message context) := by
  unfold isWarning
  constructor
  · intro h
    split at h
    · exact ⟨_, _, rfl⟩
    · cases h
  · rintro ⟨_, _, rfl⟩
    rfl

/-- The project whose lookup the event tells to have failed. -/
def failedProject? : Event → Option String
  | .cluster (.lookupFailed project ..) => some project
  | _ => none

end Event

/-- what each step keeps, with the parts of its item added to what is worked off, holds at the end with
those of all items -/
theorem foldl_keeps {σ α γ : Type} (P : List γ → σ → Prop) {step : σ → α → σ} {parts : α → List γ}
    (h : ∀ {ps d} a, P ps d → P (ps ++ parts a) (step d a)) (xs : List α) {ps : List γ} {d : σ}
    (hd : P ps d) : P (ps ++ xs.flatMap parts) (xs.foldl step d) := by
  induction xs generalizing ps d with
  | nil =>
    rw [List.flatMap_nil, List.append_nil]
    exact hd
  | cons x xs ih =>
    have hnext := ih (h x hd)
    rwa [List.append_assoc, ← List.flatMap_cons] at hnext

namespace Derivation

def unreadable? (r : Row Resource) : Option Event :=
  match r.val.clusterIds with
  | .ok _ => none
  | .error e => some (unreadable r e)

def failed (project : String) (e : Error) : Event :=
  .cluster (.lookupFailed project (spaceUid .project project) e.isSpaceNotFound e.message)

/-- What a derivation has told when it has read the rows `rs`. -/
structure Told (lookup : Lookup) (rs : List (Row Resource)) (d : Derivation) : Prop where
  /-- one warning for each row that cannot be read, in the order of the rows -/
  warnings : d.events.filter Event.isWarning = rs.filterMap unreadable?
  counted : (d.events.filterMap Event.failedProject?).length = d.failures
  once : (d.events.filterMap Event.failedProject?).Nodup
  known : ∀ p ∈ d.events.filterMap Event.failedProject?, (d.known.get? p).isSome
  /-- what is not a warning is about a lookup that fails -/
  failures : ∀ e ∈ d.events, e.isWarning ∨
    ∃ p x, lookup.answer (spaceUid .project p) = .error x ∧ e = failed p x

variable {lookup : Lookup} {rs : List (Row Resource)} {d d' : Derivation}

theorem told_start (lookup : Lookup) : start.Told lookup [] where
  warnings := rfl
  counted := rfl
  once := .nil
  known _ := nofun
  failures _ := nofun

theorem Told.quiet (h : d.Told lookup rs) (hevents : d'.events = d.events)
    (hfailures : d'.failures = d.failures)
    (hknown : ∀ p, (d.known.get? p).isSome → (d'.known.get? p).isSome) : d'.Told lookup rs where
  warnings := by rw [hevents]; exact h.warnings
  counted := by rw [hevents, hfailures]; exact h.counted
  once := by rw [hevents]; exact h.once
  known p hp := by
    rw [hevents] at hp
    exact hknown p (h.known p hp)
  failures := by rw [hevents]; exact h.failures

/-! ## the lookup of a project -/

theorem ask_of_error {project : String} {x : Error}
    (h : lookup.answer (spaceUid .project project) = .error x) (d : Derivation) :
    (d.ask lookup project).events = d.events ++ [failed project x] ∧
      (d.ask lookup project).failures = d.failures + 1 := by
  unfold ask failed
  simp only [h, and_self]

theorem isSome_known_ask (lookup : Lookup) (project : String) {p : String}
    (h : p = project ∨ (d.known.get? p).isSome) :
    ((d.ask lookup project).known.get? p).isSome := by
  rw [(ask_frame d lookup project).2, Dict.get?_put]
  split
  · rfl
  · exact h.resolve_left ‹_›

theorem Told.ask (h : d.Told lookup rs) {project : String} (hnew : d.known.get? project = none) :
    (d.ask lookup project).Told lookup rs := by
  cases hanswer : lookup.answer (spaceUid .project project) with
  | ok a =>
    obtain ⟨hevents, hfailures⟩ := ask_of_ok hanswer d
    exact h.quiet hevents hfailures fun p hp => isSome_known_ask lookup project (.inr hp)
  | error x =>
    obtain ⟨hevents, hfailures⟩ := ask_of_error hanswer d
    have hprojects : (d.ask lookup project).events.filterMap Event.failedProject?
        = d.events.filterMap Event.failedProject? ++ [project] := by
      rw [hevents, List.filterMap_append]
      rfl
    -- a project that is not known yet was not told to have failed
    have hfresh : project ∉ d.events.filterMap Event.failedProject? := by
      intro hmem
      have hsome := h.known project hmem
      rw [hnew] at hsome
      cases hsome
    exact
      { warnings := by
          rw [hevents, List.filter_append, h.warnings]
          exact List.append_nil _
        counted := by
          rw [hprojects, hfailures, List.length_append, h.counted]
          rfl
        once := by
          rw [hprojects]
          exact h.once.append (List.nodup_singleton _) (List.disjoint_singleton.2 hfresh)
        known := by
          intro p hp
          rw [hprojects, List.mem_append, List.mem_singleton] at hp
          rcases hp with hp | hp
          · exact isSome_known_ask lookup project (.inr (h.known p hp))
          · exact isSome_known_ask lookup project (.inl hp)
        failures := by
          intro e he
          rw [hevents, List.mem_append, List.mem_singleton] at he
          rcases he with he | he
          · exact h.failures e he
          · exact .inr ⟨project, x, hanswer, he⟩ }

theorem Told.container (h : d.Told lookup rs) (project : String) :
    (d.container lookup project).1.Told lookup rs := by
  unfold Derivation.container
  cases hknown : d.known.get? project with
  | some b => exact h
  | none => exact h.ask hknown

/-! ## clusters and rows -/

theorem Told.add (h : d.Told lookup rs) (k : RelationKey) : (d.add k).Told lookup rs :=
  h.quiet rfl rfl fun _ hp => hp

theorem Told.mention (w : Registry) (overrides : Overrides) (h : d.Told lookup rs)
    (project cluster : String) :
    (d.mention w overrides lookup project cluster).Told lookup rs := by
  unfold Derivation.mention
  split
  · rename_i id related _ _
    have hcontainer := (h.add ⟨related, related, id, cluster⟩).container project
    split
    · rename_i e b he
      rw [he] at hcontainer
      exact hcontainer.add _
    · rename_i e he
      rw [he] at hcontainer
      exact hcontainer
  · exact h.quiet rfl rfl fun _ hp => hp

theorem Told.mentions (w : Registry) (overrides : Overrides) (h : d.Told lookup rs)
    (project : String) (clusters : List String) :
    (clusters.foldl (Derivation.mention w overrides lookup project) d).Told lookup rs := by
  induction clusters generalizing d with
  | nil => exact h
  | cons c cs ih => exact ih (h.mention w overrides project c)

theorem Told.row (w : Registry) (overrides : Overrides) (h : d.Told lookup rs)
    (r : Row Resource) : (d.row w overrides lookup r).Told lookup (rs ++ [r]) := by
  unfold Derivation.row
  cases hread : r.val.clusterIds with
  | ok clusters =>
    have hmentions := h.mentions w overrides r.val.spaceId clusters
    have hquiet : unreadable? r = none := by
      unfold unreadable?
      rw [hread]
    refine { hmentions with warnings := ?_ }
    rw [List.filterMap_append, List.filterMap_cons_none hquiet]
    exact hmentions.warnings.trans (List.append_nil _).symm
  | error x =>
    have hwarned : unreadable? r = some (unreadable r x) := by
      unfold unreadable?
      rw [hread]
    have hprojects : (d.events ++ [unreadable r x]).filterMap Event.failedProject?
        = d.events.filterMap Event.failedProject? := by
      rw [List.filterMap_append]
      exact List.append_nil _
    exact
      { warnings := by
          rw [List.filter_append, h.warnings, List.filterMap_append,
            List.filterMap_cons_some hwarned]
          rfl
        counted := by rw [hprojects]; exact h.counted
        once := by rw [hprojects]; exact h.once
        known := by rw [hprojects]; exact h.known
        failures := by
          intro e he
          rw [List.mem_append, List.mem_singleton] at he
          rcases he with he | rfl
          · exact h.failures e he
          · exact .inl rfl }

theorem told_run (w : Registry) (overrides : Overrides) (lookup : Lookup) :
    (run w overrides lookup).Told lookup w.clusters := by
  have hrows := foldl_keeps (Told lookup) (fun r h => h.row w overrides r) w.clusters
    (told_start lookup)
  rwa [List.nil_append, List.flatMap_singleton'] at hrows

/-! ## what a handler counts -/

theorem Told.level (h : d.Told lookup rs) {e : Event} (he : e ∈ d.events) :
    e.level = .warn ∧ Tally.isConflict e = false := by
  rcases h.failures e he with hwarning | ⟨p, x, -, rfl⟩
  · obtain ⟨m, c, rfl⟩ := Event.isWarning_iff.1 hwarning
    exact ⟨rfl, rfl⟩
  · exact ⟨rfl, rfl⟩

theorem Told.length_events (h : d.Told lookup rs) :
    d.events.length = (rs.filterMap unreadable?).length + d.failures := by
  -- an event is either a warning or about a project
  have hother : d.events.countP (fun e => ¬e.isWarning)
      = d.events.countP fun e => e.failedProject?.isSome := by
    refine List.countP_congr fun e he => ?_
    rcases h.failures e he with hwarning | ⟨p, x, -, rfl⟩
    · obtain ⟨m, c, rfl⟩ := Event.isWarning_iff.1 hwarning
      exact ⟨nofun, nofun⟩
    · exact ⟨fun _ => rfl, fun _ => rfl⟩
  calc d.events.length
    _ = d.events.countP Event.isWarning + d.events.countP (fun e => ¬e.isWarning) :=
        List.length_eq_countP_add_countP Event.isWarning
    _ = (d.events.filter Event.isWarning).length
          + (d.events.filterMap Event.failedProject?).length := by
        rw [List.countP_eq_length_filter, hother, List.length_filterMap_eq_countP]
    _ = (rs.filterMap unreadable?).length + d.failures := by rw [h.warnings, h.counted]

end Derivation

theorem Tally.observeAll_warnings (t : Tally) {es : List Event}
    (h : ∀ e ∈ es, e.level = .warn ∧ isConflict e = false) :
    t.observeAll es = ⟨t.warnings + es.length, t.conflicts⟩ := by
  induction es generalizing t with
  | nil => rfl
  | cons e es ih =>
    obtain ⟨⟨hlevel, hconflict⟩, hes⟩ := List.forall_mem_cons.1 h
    have hone : t.observe e = ⟨t.warnings + 1, t.conflicts⟩ := by
      unfold observe
      rw [if_pos hlevel, hconflict]
      rfl
    show (t.observe e).observeAll es = _
    rw [hone, ih _ hes, List.length_cons, Nat.add_comm es.length, ← Nat.add_assoc]

/-! ## what a pass tells -/

/-- What a pass over the store `s` tells when it ends with a report. -/
structure ReconcileStory (overrides : Overrides) (lookup : Lookup) (s : Store) (run : ReconcileRun)
    (report : RelationReport) : Prop where
  /-- the begin, what was told while the relations were derived, and the report -/
  told : ∃ es, run.events = .cluster (.started s.registry.1.projects.length overrides.size) ::
      es ++ [.cluster (.completed report)] ∧
    es.filter Event.isWarning = s.registry.1.clusters.filterMap Derivation.unreadable? ∧
    (es.filterMap Event.failedProject?).length = report.lookupFailures ∧
    (es.filterMap Event.failedProject?).Nodup ∧
    ∀ e ∈ es, e.isWarning ∨
      ∃ p x, lookup.answer (spaceUid .project p) = .error x ∧ e = Derivation.failed p x
  conflicts : (Tally.zero.observeAll run.events).conflicts = 0
  warnings : (Tally.zero.observeAll run.events).warnings
    = (s.registry.1.clusters.filterMap Derivation.unreadable?).length + report.lookupFailures

section
variable {overrides : Overrides} {lookup : Lookup} {clock : Clock} {db : Db}

/-- a pass that has read the registry has begun and told about it; only its report comes after -/
theorem events_reconcile (overrides : Overrides) (lookup : Lookup) (clock : Clock) (db : Db) :
    let run := (reconcile overrides lookup clock db).1
    let begun := Event.cluster (.started db.store.registry.1.projects.length overrides.size) ::
      (db.store.derived overrides lookup).events
    (∀ report, run.result = .ok report → run.events = begun ++ [.cluster (.completed report)]) ∧
      ∀ e, run.result = .error e → run.events = [] ∨ run.events = begun := by
  have hw := Query.Observes.registry.sound db
  unfold reconcile
  cases hreg : Query.registry db with
  | mk r after =>
    rw [hreg] at hw
    cases r with
    | error e => exact ⟨nofun, fun _ _ => .inl rfl⟩
    | ok w =>
      obtain rfl : w = db.store.registry := (hw w rfl)
      simp only
      cases Query.converge (Derivation.run db.store.registry.1 overrides lookup).keys clock.now
          after with
      | mk r after =>
        cases r with
        | error e => exact ⟨nofun, fun _ _ => .inr rfl⟩
        | ok c =>
          refine ⟨fun report h => ?_, nofun⟩
          cases h
          rfl

theorem story_reconcile {report : RelationReport}
    (h : (reconcile overrides lookup clock db).1.result = .ok report) :
    ReconcileStory overrides lookup db.store (reconcile overrides lookup clock db).1 report := by
  have hevents := (events_reconcile overrides lookup clock db).1 report h
  have htold := Derivation.told_run db.store.registry.1 overrides lookup
  have hfailures : report.lookupFailures = (db.store.derived overrides lookup).failures := by
    obtain ⟨c, -, rfl⟩ := reconcile_report h
    rfl
  have htally : Tally.zero.observeAll (reconcile overrides lookup clock db).1.events
      = ⟨0 + (db.store.derived overrides lookup).events.length, 0⟩ := by
    rw [hevents, Tally.observeAll_quiet_ends _ _ (fun _ => rfl) fun _ => rfl]
    exact Tally.observeAll_warnings _ fun e he => htold.level he
  exact
    { told := by
        refine ⟨_, hevents, htold.warnings, ?_, htold.once, htold.failures⟩
        rw [hfailures]
        exact htold.counted
      conflicts := by rw [htally]
      warnings := by
        rw [htally, hfailures, Nat.zero_add]
        exact htold.length_events }

theorem silent_reconcile {e : Error}
    (h : (reconcile overrides lookup clock db).1.result = .error e) (report : RelationReport) :
    .cluster (.completed report) ∉ (reconcile overrides lookup clock db).1.events := by
  intro hmem
  rcases (events_reconcile overrides lookup clock db).2 e h with hnone | hbegun
  · rw [hnone] at hmem
    cases hmem
  · rw [hbegun] at hmem
    rcases List.mem_cons.1 hmem with hmem | hmem
    · cases hmem
    · cases ((Derivation.told_run db.store.registry.1 overrides lookup).level hmem).1

end
end Linkage
