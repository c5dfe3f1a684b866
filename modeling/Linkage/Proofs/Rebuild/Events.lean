import Linkage.Proofs.Event.Delivery
import Linkage.Proofs.Rebuild.Tally

/-!
# The events of a batch and its report

A batch tells about each data-bus by one event, counts what came of it in its report, and a handler
counts the events once more.

* `Event.Tells`            the event that is told for an outcome;
* `RebuildReport.Agrees`   a report and a handler have counted what the events tell;
* `Agrees.count`           one more data-bus keeps this, and `agrees_tally` any number of them;
* `RebuildStory`           what a batch that ends with a report tells in all;
* `story_rebuild`, `silent_rebuild`   it tells this, and a batch that fails tells no report.
-/

namespace Linkage

namespace Event

def isSuccess : Event → Bool
  | .link (.linked ..) | .link (.planned ..) => true
  | _ => false

/-- The event tells that a data-bus was skipped for the reason. -/
def isSkip (why : SkipReason) : Event → Bool
  | .link (.skipped _ reason _) => reason = why
  | _ => false

/-- The link and the strategy that the event tells to be planned. -/
def planned? : Event → Option (String × Strategy)
  | .link (.planned _ name strategy) => some (name, strategy)
  | _ => none

/-- The event that is told for what came of a data-bus: linked in a batch only, planned in a dry run
only, or skipped. -/
inductive Tells (dryRun : Bool) (b : Bus) : Outcome → Event → Prop
  | linked (l : Row Link) (strategy : Strategy) (tableIds : List String) (created : Bool)
      (h : dryRun = false) : Tells dryRun b (.linked l)
        (.link (.linked b.name (b.scope.linkName b.name) strategy tableIds created))
  | planned (p : Plan) (h : dryRun = true) (hlink : p.link = b.scope.linkName b.name) :
      Tells dryRun b (.planned p) (.link (.planned b.name p.link p.strategy))
  | skipped (why : SkipReason) (detail : String) :
      Tells dryRun b (.skipped why) (.link (.skipped b.name why detail))

end Event

theorem Store.tells_rebuildBus (dryRun : Bool) (now : Int) (b : Row Bus) (s : Store) :
    Event.Tells dryRun b.val (s.rebuildBus dryRun now b).1.1 (s.rebuildBus dryRun now b).1.2 := by
  unfold Store.rebuildBus
  cases hr : s.resolve b.val with
  | error e => exact .skipped e.reason e.detail
  | ok r =>
    have hlink : r.link = b.val.scope.linkName b.val.name := (resolved_of_resolve hr).link
    cases dryRun with
    | true => exact .planned (r.plan b.val) rfl hlink
    | false =>
      have hname : (s.commitLink (r.commit b) now).1.row.val.name
          = b.val.scope.linkName b.val.name := putLink_val.1.2.trans hlink
      show Event.Tells false b.val (.linked (s.commitLink (r.commit b) now).1.row)
        (.link (.linked b.val.name (s.commitLink (r.commit b) now).1.row.val.name r.strategy
          r.tableIds (s.commitLink (r.commit b) now).1.created))
      rw [hname]
      exact .linked _ r.strategy r.tableIds _ rfl

/-! ## what a handler counts -/

namespace Tally

theorem observeAll_append (t : Tally) (es fs : List Event) :
    t.observeAll (es ++ fs) = (t.observeAll es).observeAll fs := List.foldl_append

theorem observeAll_quiet_ends (t : Tally) {first last : Event} (es : List Event)
    (hfirst : ∀ t : Tally, t.observe first = t) (hlast : ∀ t : Tally, t.observe last = t) :
    t.observeAll (first :: es ++ [last]) = t.observeAll es := by
  rw [observeAll_append]
  show ((t.observe first).observeAll es).observe last = _
  rw [hlast, hfirst]

/-- a skip is counted once: as a conflict if it is one, and as a warning if not -/
theorem observe_skipped (t : Tally) (b : String) (why : SkipReason) (detail : String) :
    t.observe (.link (.skipped b why detail)) =
      if why.isConflict then ⟨t.warnings, t.conflicts + 1⟩ else ⟨t.warnings + 1, t.conflicts⟩ := by
  cases why <;> rfl

end Tally

/-! ## what a report counts -/

namespace RebuildReport

def skippedFor (r : RebuildReport) (why : SkipReason) : Nat := (r.reasons.get? why).getD 0

/-- How many data-buses were skipped because of an ownership conflict. -/
def conflicts (r : RebuildReport) : Nat :=
  r.skippedFor .componentConflict + r.skippedFor .resultTableConflict

/-- The report has counted the data-buses that the events are about, and so has a handler. -/
structure Agrees (dryRun : Bool) (r : RebuildReport) (es : List Event) : Prop where
  success : r.success = es.countP Event.isSuccess
  reasons : ∀ why, r.skippedFor why = es.countP (Event.isSkip why)
  /-- a reason that does not occur has no count -/
  absent : ∀ why, r.reasons.get? why ≠ some 0
  skipped : r.skipped = r.reasons.values.sum
  sum : r.success + r.skipped = es.length
  /-- the plans are those told, in the same order -/
  plans : r.plans.map (fun p => (p.link, p.strategy)) = es.filterMap Event.planned?
  planned : r.plans.length = if dryRun then r.success else 0
  conflicts : (Tally.zero.observeAll es).conflicts = r.conflicts
  warnings : (Tally.zero.observeAll es).warnings + r.conflicts = r.skipped

theorem agrees_start (scope : Scope) (dryRun : Bool) (total : Nat) :
    Agrees dryRun { start scope dryRun with total } [] where
  success := rfl
  reasons _ := rfl
  absent _ := nofun
  skipped := rfl
  sum := rfl
  plans := rfl
  planned := (ite_self 0).symm
  conflicts := rfl
  warnings := rfl

theorem skippedFor_skip (r : RebuildReport) (w why : SkipReason) :
    (r.skip w).skippedFor why = r.skippedFor why + if why = w then 1 else 0 := by
  unfold skippedFor skip
  simp only
  rw [Dict.get?_update]
  by_cases h : why = w
  · rw [if_pos h, if_pos h, h]
    rfl
  · rw [if_neg h, if_neg h]
    rfl

theorem conflicts_skip (r : RebuildReport) (why : SkipReason) :
    (r.skip why).conflicts = r.conflicts + if why.isConflict then 1 else 0 := by
  unfold conflicts
  rw [skippedFor_skip, skippedFor_skip]
  cases why <;> simp [SkipReason.isConflict] <;> omega

variable {dryRun : Bool} {r : RebuildReport} {es : List Event}

/-- a success adds its plan, if it has one, and is neither a warning nor a conflict -/
theorem Agrees.success_concat (h : Agrees dryRun r es) {e : Event} {plans : List Plan}
    (hsuccess : e.isSuccess = true) (hskip : ∀ why, e.isSkip why = false)
    (hquiet : ∀ t : Tally, t.observe e = t)
    (hplans : plans.map (fun p => (p.link, p.strategy))
      = es.filterMap Event.planned? ++ [e].filterMap Event.planned?)
    (hplanned : plans.length = if dryRun then r.success + 1 else 0) :
    Agrees dryRun { r with success := r.success + 1, plans := plans } (es ++ [e]) := by
  have htally : Tally.zero.observeAll (es ++ [e]) = Tally.zero.observeAll es := by
    rw [Tally.observeAll_append]
    exact hquiet _
  exact
    { success := by
        rw [List.countP_append, ← h.success, List.countP_singleton, hsuccess]
        rfl
      reasons := fun why => by
        rw [List.countP_append, ← h.reasons, List.countP_singleton, hskip]
        rfl
      absent := h.absent
      skipped := h.skipped
      sum := by
        rw [List.length_append, ← h.sum]
        exact Nat.add_right_comm _ _ _
      plans := by rw [List.filterMap_append]; exact hplans
      planned := hplanned
      conflicts := by rw [htally]; exact h.conflicts
      warnings := by rw [htally]; exact h.warnings }

/-- a skip is counted under its reason, and by a handler as a conflict or as a warning -/
theorem Agrees.skip_concat (h : Agrees dryRun r es) (b : String) (why : SkipReason)
    (detail : String) :
    Agrees dryRun (r.skip why) (es ++ [.link (.skipped b why detail)]) := by
  have htally : Tally.zero.observeAll (es ++ [Event.link (.skipped b why detail)])
      = (Tally.zero.observeAll es).observe (.link (.skipped b why detail)) :=
    Tally.observeAll_append _ _ _
  have hconflicts := h.conflicts
  have hwarnings := h.warnings
  exact
    { success := by rw [List.countP_append, ← h.success]; rfl
      reasons := fun w => by
        rw [List.countP_append, ← h.reasons, skippedFor_skip, List.countP_singleton]
        simp [Event.isSkip, eq_comm]
      absent := fun w => by
        show (r.reasons.update why 0 (· + 1)).get? w ≠ some 0
        rw [Dict.get?_update]
        split
        · exact nofun
        · exact h.absent w
      skipped := by
        show r.skipped + 1 = (r.reasons.update why 0 (· + 1)).values.sum
        rw [Dict.sum_values_update, ← h.skipped]
      sum := by
        rw [List.length_append, ← h.sum]
        rfl
      plans := by
        rw [List.filterMap_append, ← h.plans]
        exact (List.append_nil _).symm
      planned := h.planned
      conflicts := by
        rw [htally, Tally.observe_skipped, conflicts_skip, ← hconflicts]
        split <;> rfl
      warnings := by
        show _ + (r.skip why).conflicts = r.skipped + 1
        rw [htally, Tally.observe_skipped, conflicts_skip, ← hwarnings]
        split <;> simp only <;> omega }

theorem Agrees.count (h : Agrees dryRun r es) {b : Bus} {o : Outcome} {e : Event}
    (he : Event.Tells dryRun b o e) : Agrees dryRun (r.count o) (es ++ [e]) := by
  have hplanned := h.planned
  cases he with
  | linked l strategy tableIds created hreal =>
    rw [hreal] at hplanned
    refine h.success_concat rfl (fun _ => rfl) (fun _ => rfl) ?_ (by rw [hreal]; exact hplanned)
    exact h.plans.trans (List.append_nil _).symm
  | planned p hdry hlink =>
    rw [hdry] at hplanned
    refine h.success_concat rfl (fun _ => rfl) (fun _ => rfl) ?_ ?_
    · rw [List.map_append, h.plans]
      rfl
    · rw [hdry, List.length_append, hplanned]
      rfl
  | skipped why detail => exact h.skip_concat b.name why detail

end RebuildReport

/-! ## what a batch tells -/

namespace Visit

variable {scope : Scope} {dryRun : Bool} {now : Int} {vs : List Visit}

theorem Sound.tells {v : Visit} (h : v.Sound scope dryRun now) {o : Outcome} {e : Event}
    (ha : v.answer = .ok (o, e)) : Event.Tells dryRun v.bus.val o e := by
  have htells := Store.tells_rebuildBus dryRun now v.bus v.before
  rw [h.did_ok ha] at htells
  exact htells

theorem events_cons {v : Visit} {o : Outcome} {e : Event} (ha : v.answer = .ok (o, e))
    (vs : List Visit) : events (v :: vs) = e :: events vs := by
  unfold events
  rw [List.filterMap_cons, ha]

theorem mem_events {e : Event} : e ∈ events vs ↔ ∃ v ∈ vs, ∃ o, v.answer = .ok (o, e) := by
  unfold events
  rw [List.mem_filterMap]
  refine exists_congr fun v => and_congr_right fun _ => ?_
  cases v.answer with
  | error x => exact ⟨nofun, nofun⟩
  | ok a =>
    obtain ⟨o, x⟩ := a
    simp

theorem agrees_tally (hvs : ∀ v ∈ vs, v.Sound scope dryRun now) {report final : RebuildReport}
    {es : List Event} (h : report.Agrees dryRun es) (htally : tally report vs = .ok final) :
    final.Agrees dryRun (es ++ events vs) := by
  induction vs generalizing report es with
  | nil =>
    cases htally
    rw [show events [] = [] from rfl, List.append_nil]
    exact h
  | cons v vs ih =>
    obtain ⟨hv, hvs⟩ := List.forall_mem_cons.1 hvs
    rw [tally_cons] at htally
    cases ha : v.answer with
    | error x =>
      rw [ha] at htally
      cases htally
    | ok a =>
      obtain ⟨o, e⟩ := a
      rw [ha] at htally
      have hnext := ih hvs (h.count (hv.tells ha)) htally
      rwa [List.append_assoc, List.singleton_append, ← events_cons ha] at hnext

theorem forall₂_events (hvs : ∀ v ∈ vs, v.Sound scope dryRun now)
    (hok : ∀ v ∈ vs, ∃ a, v.answer = .ok a) :
    List.Forall₂ (fun b e => ∃ o, Event.Tells dryRun b.val o e) (vs.map Visit.bus) (events vs) := by
  induction vs with
  | nil => exact .nil
  | cons v vs ih =>
    obtain ⟨hv, hvs⟩ := List.forall_mem_cons.1 hvs
    obtain ⟨⟨⟨o, e⟩, ha⟩, hok⟩ := List.forall_mem_cons.1 hok
    rw [events_cons ha]
    exact .cons ⟨o, hv.tells ha⟩ (ih hvs hok)

end Visit

/-- What a batch over the data-buses of the store `s` tells when it ends with a report. -/
structure RebuildStory (scope : Scope) (dryRun : Bool) (s : Store) (run : RebuildRun)
    (report : RebuildReport) : Prop where
  /-- the begin, one event for each unlinked data-bus, and the report -/
  told : ∃ es, run.events
      = .link (.started scope report.total dryRun) :: es ++ [.link (.completed report)] ∧
    List.Forall₂ (fun b e => ∃ o, Event.Tells dryRun b.val o e) (s.unlinked scope) es ∧
    report.Agrees dryRun es
  /-- the data-buses come in the order of their ids -/
  order : (s.unlinked scope).Pairwise fun a b => a.id < b.id
  total : report.total = report.success + report.skipped
  conflicts : (Tally.zero.observeAll run.events).conflicts = report.conflicts
  warnings : (Tally.zero.observeAll run.events).warnings + report.conflicts = report.skipped

section
variable {scope : Scope} {dryRun : Bool} {clock : Clock} {db : Db}

theorem story_rebuild {report : RebuildReport}
    (h : (rebuild scope dryRun clock db).1.result = .ok report) :
    RebuildStory scope dryRun db.store (rebuild scope dryRun clock db).1 report := by
  have hreported := reported_rebuild h
  have hsound : ∀ v ∈ visits scope dryRun clock db, v.Sound scope dryRun clock.now :=
    fun v hv => (batch_visits scope dryRun clock db).sound hv
  obtain ⟨htotal, -, hsum⟩ := hreported.counts
  obtain ⟨final, hfinal, hreport⟩ := hreported.tally
  have hagrees : report.Agrees dryRun (Visit.events (visits scope dryRun clock db)) := by
    have hcounted := Visit.agrees_tally hsound
      (RebuildReport.agrees_start scope dryRun (db.store.unlinked scope).length) hfinal
    -- the time it took is not counted
    rw [hreport]
    exact ⟨hcounted.success, hcounted.reasons, hcounted.absent, hcounted.skipped, hcounted.sum,
      hcounted.plans, hcounted.planned, hcounted.conflicts, hcounted.warnings⟩
  have hevents := hreported.events
  rw [← htotal] at hevents
  have htally : Tally.zero.observeAll (rebuild scope dryRun clock db).1.events
      = Tally.zero.observeAll (Visit.events (visits scope dryRun clock db)) := by
    rw [hevents]
    exact Tally.observeAll_quiet_ends _ _ (fun _ => rfl) fun _ => rfl
  exact
    { told := by
        refine ⟨_, hevents, ?_, hagrees⟩
        rw [← hreported.buses]
        exact Visit.forall₂_events hsound hreported.answered
      order := db.store.buses.rising.filter _
      total := hsum.symm
      conflicts := by rw [htally]; exact hagrees.conflicts
      warnings := by rw [htally]; exact hagrees.warnings }

theorem silent_rebuild {x : Error} (h : (rebuild scope dryRun clock db).1.result = .error x)
    (report : RebuildReport) :
    .link (.completed report) ∉ (rebuild scope dryRun clock db).1.events := by
  cases hlist : (Query.transaction (Query.unlinkedBuses scope) db).1 with
  | error e =>
    unfold rebuild
    rw [Query.eq_mk_of_fst hlist]
    exact List.not_mem_nil
  | ok buses =>
    have heq := rebuild_eq scope dryRun clock (Query.eq_mk_of_fst hlist)
    cases htally : Visit.tally { RebuildReport.start scope dryRun with total := buses.length }
        (visits scope dryRun clock db) with
    | ok final =>
      rw [htally] at heq
      rw [heq] at h
      cases h
    | error e =>
      rw [htally] at heq
      rw [heq]
      intro hmem
      rcases List.mem_cons.1 hmem with hbegun | hmem
      · cases hbegun
      · obtain ⟨v, hv, o, ha⟩ := Visit.mem_events.1 hmem
        cases ((batch_visits scope dryRun clock db).sound hv).tells ha

end

end Linkage
