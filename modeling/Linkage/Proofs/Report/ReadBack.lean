import Mathlib.Data.List.Perm.Basic
import Linkage.Proofs.Json.Order
import Linkage.Report

/-!
# Reports are read back

* `PlannedSink.readAs`, `PlannedTable.readAs`, `Plan.readAs`   a plan is read from its parts;
* `RelationReport.readAs`            the report of a pass is read in any order of its members;
* `RebuildReport.readAs_reasons`     counts are read by the names of their reasons;
* `RebuildReport.readAs`             so is the report of a batch, with or without plans.
-/

namespace Linkage

open Json (ReadAs)

theorem PlannedSink.readAs (held : Bool) (p : PlannedSink) : ReadAs (read? held) p.toJson p := by
  refine .record (show ["kind", "name"].Nodup by decide) (by simp) fun w r hof hb => ?_
  have hkind : r.required "kind" (Json.constant? held SinkKind.ofText?) = some p.kind :=
    hb.required (by simp) (.name (SinkKind.ofText?_text p.kind))
  have hname : r.required "name" Json.text? = some p.name := hb.required (by simp) (.str p.name)
  unfold read?
  rw [hof]
  simp [hkind, hname]

theorem PlannedTable.readAs (t : PlannedTable) : ReadAs ofJson? t.toJson t := by
  refine .record (show ["name", "table_id"].Nodup by decide) (by simp) fun w r hof hb => ?_
  have hname : r.required "name" Json.text? = some t.name := hb.required (by simp) (.str t.name)
  have htableId : r.required "table_id" Json.text? = some t.tableId :=
    hb.required (by simp) (.str t.tableId)
  unfold ofJson?
  rw [hof]
  simp [hname, htableId]

theorem Plan.readAs (held : Bool) (p : Plan) : ReadAs (read? held) p.toJson p := by
  have hdataId : ReadAs Json.dataId? (.dataId p.dataId) p.dataId :=
    .scalar rfl (Json.dataId?_dataId p.dataId)
  have hsinks : ReadAs (Json.list? (PlannedSink.read? held))
      (.arr (p.sinks.map PlannedSink.toJson)) p.sinks := .list fun s _ => s.readAs held
  have htables : ReadAs (Json.list? PlannedTable.ofJson?)
      (.arr (p.tables.map PlannedTable.toJson)) p.tables := .list fun t _ => t.readAs
  refine .record (show names.Nodup by decide) ?_ fun w r hof hb => ?_
  · simp [names, hdataId.ordered, hsinks.ordered, htables.ordered, (ReadAs.texts p.tableIds).ordered]
  have hlink : r.required "data_link_name" Json.text? = some p.link :=
    hb.required (by simp [names]) (.str p.link)
  have hstrategy : r.required "strategy" (Json.constant? held Strategy.ofText?) = some p.strategy :=
    hb.required (by simp [names]) (.name (Strategy.ofText?_text p.strategy))
  have hdata : r.required "bk_data_id" Json.dataId? = some p.dataId :=
    hb.required (by simp [names]) hdataId
  have hids : r.required "table_ids" (Json.list? Json.text?) = some p.tableIds :=
    hb.required (by simp [names]) (.texts p.tableIds)
  have hsinks : r.required "sinks" (Json.list? (PlannedSink.read? held)) = some p.sinks :=
    hb.required (by simp [names]) hsinks
  have htables : r.required "result_tables" (Json.list? PlannedTable.ofJson?) = some p.tables :=
    hb.required (by simp [names]) htables
  unfold read?
  rw [hof]
  simp [hlink, hstrategy, hdata, hids, hsinks, htables]

theorem RelationReport.readAs (r : RelationReport) : ReadAs ofJson? r.toJson r := by
  refine .record (show names.Nodup by decide) (by simp [names]) fun w m hof hb => ?_
  have hdesired : m.required "desired" Json.nat? = some r.desired :=
    hb.required (by simp [names]) (.nat r.desired)
  have hadded : m.required "added" Json.nat? = some r.added :=
    hb.required (by simp [names]) (.nat r.added)
  have hrefreshed : m.required "refreshed" Json.nat? = some r.refreshed :=
    hb.required (by simp [names]) (.nat r.refreshed)
  have hdeleted : m.required "deleted" Json.nat? = some r.deleted :=
    hb.required (by simp [names]) (.nat r.deleted)
  have hfailures : m.required "lookup_failures" Json.nat? = some r.lookupFailures :=
    hb.required (by simp [names]) (.nat r.lookupFailures)
  have hduration : m.required "duration_ms" Json.nat? = some r.duration :=
    hb.required (by simp [names]) (.nat r.duration)
  unfold ofJson?
  rw [hof]
  simp [hdesired, hadded, hrefreshed, hdeleted, hfailures, hduration]

namespace RebuildReport

/-- A count, written by the name of its reason. -/
def writtenCount (e : SkipReason × Nat) : String × Json := (e.1.text, .nat e.2)

/-- The count that a member writes. -/
def count? (e : String × Json) : Option (SkipReason × Nat) := do
  return (← SkipReason.ofText? e.1, ← e.2.nat?)

theorem reasons?_obj (es : List (String × Json)) :
    reasons? (.obj es) = (es.mapM count?).bind fun pairs => some (Dict.ofList pairs) := rfl

theorem count?_writtenCount (e : SkipReason × Nat) : count? (writtenCount e) = some e := by
  unfold count? writtenCount
  rw [SkipReason.ofText?_text]
  rfl

theorem nodup_writtenCounts (d : Dict SkipReason Nat) :
    ((d.entries.map writtenCount).map Prod.fst).Nodup := by
  have hinjective : Function.Injective SkipReason.text := fun a b h =>
    Option.some.inj (by rw [← SkipReason.ofText?_text a, h, SkipReason.ofText?_text b])
  have hnames : (d.entries.map writtenCount).map Prod.fst = d.keys.map SkipReason.text := by
    unfold Dict.keys
    rw [List.map_map, List.map_map]
    rfl
  rw [hnames]
  exact (Dict.nodup_keys d).map hinjective

theorem readAs_reasons (d : Dict SkipReason Nat) :
    ReadAs reasons? (.obj (d.entries.map writtenCount)) d where
  read w hw := by
    obtain ⟨fs, gs, rfl, hmembers, hperm⟩ := hw.exists_members
    rw [List.forall₂_map_left_iff] at hmembers
    have hread : List.Forall₂ (fun x f => count? f = some x) d.entries fs := by
      refine hmembers.imp fun x f ⟨hname, hcount⟩ => ?_
      have hf : f = writtenCount x := Prod.ext hname.symm (hcount.eq_of_scalar rfl)
      rw [hf, count?_writtenCount]
    -- the counts are read in the order of the members, and the map of them has no order
    obtain ⟨pairs, hpairs, hsame⟩ := List.perm_comp_forall₂ hperm.symm hread.flip
    rw [reasons?_obj, Json.mapM_of_forall₂ hpairs]
    exact congrArg some (Dict.ofList_of_perm hsame)
  ordered := by
    refine Json.ordered_obj (nodup_writtenCounts d) fun e he => ?_
    obtain ⟨x, -, rfl⟩ := List.mem_map.1 he
    exact Json.ordered_nat x.2

theorem readAs (held : Bool) (r : RebuildReport) : ReadAs (read? held) r.toJson r := by
  have hreasons := readAs_reasons r.reasons
  have hplans : ReadAs (Json.list? (Plan.read? held)) (.arr (r.plans.map Plan.toJson)) r.plans :=
    .list fun p _ => p.readAs held
  refine .record ?_ ?_ fun w m hof hb => ?_
  · split <;> simp
  · have hordered : (Json.obj (r.reasons.entries.map fun e => (e.1.text, .nat e.2))).Ordered :=
      hreasons.ordered
    simp only [List.forall_mem_append]
    refine ⟨⟨by simp [hordered], ?_⟩, by simp⟩
    split <;> simp [hplans.ordered]
  have htenant : m.required "bk_tenant_id" Json.text? = some r.scope.tenant :=
    hb.required (by simp) (.str r.scope.tenant)
  have hname : m.required "namespace" Json.text? = some r.scope.name :=
    hb.required (by simp) (.str r.scope.name)
  have hdryRun : m.required "dry_run" Json.bool? = some r.dryRun :=
    hb.required (by simp) (.bool r.dryRun)
  have htotal : m.required "total" Json.nat? = some r.total := hb.required (by simp) (.nat r.total)
  have hsuccess : m.required "success" Json.nat? = some r.success :=
    hb.required (by simp) (.nat r.success)
  have hskipped : m.required "skipped" Json.nat? = some r.skipped :=
    hb.required (by simp) (.nat r.skipped)
  have hreasons : m.required "skip_reasons" reasons? = some r.reasons :=
    hb.required (by simp [writtenCount]) hreasons
  have hduration : m.required "duration_ms" Json.nat? = some r.duration :=
    hb.required (by simp) (.nat r.duration)
  have hplans : m.defaulted "plans" [] (Json.list? (Plan.read? held)) = some r.plans := by
    -- no plans are left out, and read as none
    by_cases h : r.plans = []
    · rw [h]
      exact hb.defaulted_absent (by simp [h]) [] _
    · exact hb.defaulted (by simp [h]) hplans []
  unfold read?
  rw [hof]
  simp [htenant, hname, hdryRun, htotal, hsuccess, hskipped, hreasons, hduration, hplans]

end RebuildReport

end Linkage
