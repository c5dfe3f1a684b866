import Linkage.Proofs.Report.ReadBack
import Linkage.Event.Codec

/-!
# Events are read back

* `ReadAs.variant`          the object of a variant is read by its name, wherever this stands;
* `GeneralEvent.readAs` and its siblings   the events of a domain are read in any order;
* `Event.readAs`            and so are events with their domain;
* `events_reports_read_back`   events and reports are read back from what is written of them.
-/

namespace Linkage

open Json (ReadAs)

/-- an object of a variant is read if it is read as this variant, wherever its name stands -/
theorem Json.ReadAs.variant {α : Type} {read : Json → Option α} {a : α} {type : String}
    {es : List (String × Json)} (hkeys : ("type" :: es.map Prod.fst).Nodup)
    (hordered : ∀ e ∈ es, e.2.Ordered)
    (h : ∀ w r, w.variant? = some (type, w) → (∀ names, Record.of? names w = some r) →
      r.Bears (("type", .str type) :: es) → read w = some a) :
    ReadAs read (.variant type es) a where
  read w hw := by
    have hnames : ((("type", Json.str type) :: es).map Prod.fst).Nodup := hkeys
    obtain ⟨gs, rfl, hnodup, hbears⟩ := Record.exists_bears hnames hw
    refine h _ _ ?_ (Record.of?_eq_some hnodup) hbears
    obtain ⟨t, hfind, ht⟩ := hbears.present _ List.mem_cons_self
    rw [ht.eq_of_scalar rfl] at hfind
    have hmem := (Record.find?_eq_some_iff (Record.countP_le_one hnodup "type")).1 hfind
    show (last? "type" gs).bind _ = _
    rw [last?_eq_some hnodup hmem]
    rfl
  ordered := ordered_obj hkeys (List.forall_mem_cons.2 ⟨ordered_str type, hordered⟩)

theorem GeneralEvent.readAs (e : GeneralEvent) : ReadAs ofJson? e.toJson e := by
  cases e with
  | warning m c =>
    refine .variant (show ["type", "message", "context"].Nodup by decide) (by simp)
      fun w r htype hof hb => ?_
    have hmessage : r.required "message" Json.text? = some m := hb.required (by simp) (.str m)
    have hcontext : r.required "context" Json.text? = some c := hb.required (by simp) (.str c)
    unfold ofJson?
    rw [htype]
    simp [hof, hmessage, hcontext]
  | started o =>
    refine .variant (show ["type", "operation"].Nodup by decide) (by simp)
      fun w r htype hof hb => ?_
    have hoperation : r.required "operation" Json.text? = some o := hb.required (by simp) (.str o)
    unfold ofJson?
    rw [htype]
    simp [hof, hoperation]
  | completed o s =>
    refine .variant (show ["type", "operation", "success"].Nodup by decide) (by simp)
      fun w r htype hof hb => ?_
    have hoperation : r.required "operation" Json.text? = some o := hb.required (by simp) (.str o)
    have hsuccess : r.required "success" Json.bool? = some s := hb.required (by simp) (.bool s)
    unfold ofJson?
    rw [htype]
    simp [hof, hoperation, hsuccess]
  | failed o e =>
    refine .variant (show ["type", "operation", "error"].Nodup by decide) (by simp)
      fun w r htype hof hb => ?_
    have hoperation : r.required "operation" Json.text? = some o := hb.required (by simp) (.str o)
    have herror : r.required "error" Json.text? = some e := hb.required (by simp) (.str e)
    unfold ofJson?
    rw [htype]
    simp [hof, hoperation, herror]

theorem ClusterEvent.readAs (e : ClusterEvent) : ReadAs ofJson? e.toJson e := by
  cases e with
  | started p o =>
    refine .variant (show ["type", "projects", "overrides"].Nodup by decide) (by simp)
      fun w r htype hof hb => ?_
    have hprojects : r.required "projects" Json.nat? = some p := hb.required (by simp) (.nat p)
    have hoverrides : r.required "overrides" Json.nat? = some o := hb.required (by simp) (.nat o)
    unfold ofJson?
    rw [htype]
    simp [hof, hprojects, hoverrides]
  | lookupFailed p u n e =>
    refine .variant
      (show ["type", "project_code", "space_uid", "not_found", "error"].Nodup by decide) (by simp)
      fun w r htype hof hb => ?_
    have hproject : r.required "project_code" Json.text? = some p := hb.required (by simp) (.str p)
    have huid : r.required "space_uid" Json.text? = some u := hb.required (by simp) (.str u)
    have hnotFound : r.required "not_found" Json.bool? = some n := hb.required (by simp) (.bool n)
    have herror : r.required "error" Json.text? = some e := hb.required (by simp) (.str e)
    unfold ofJson?
    rw [htype]
    simp [hof, hproject, huid, hnotFound, herror]
  | completed report =>
    refine .variant (show ["type", "report"].Nodup by decide) (by simp [report.readAs.ordered])
      fun w r htype hof hb => ?_
    have hreport : r.required "report" RelationReport.ofJson? = some report :=
      hb.required (by simp) report.readAs
    unfold ofJson?
    rw [htype]
    simp [hof, hreport]

theorem LinkEvent.readAs (e : LinkEvent) : ReadAs ofJson? e.toJson e := by
  cases e with
  | started s t d =>
    refine .variant
      (show ["type", "bk_tenant_id", "namespace", "total", "dry_run"].Nodup by decide) (by simp)
      fun w r htype hof hb => ?_
    have htenant : r.required "bk_tenant_id" Json.text? = some s.tenant :=
      hb.required (by simp) (.str s.tenant)
    have hname : r.required "namespace" Json.text? = some s.name :=
      hb.required (by simp) (.str s.name)
    have htotal : r.required "total" Json.nat? = some t := hb.required (by simp) (.nat t)
    have hdryRun : r.required "dry_run" Json.bool? = some d := hb.required (by simp) (.bool d)
    unfold ofJson?
    rw [htype]
    simp [hof, htenant, hname, htotal, hdryRun]
  | linked b l s ts c =>
    have hids := ReadAs.texts ts
    refine .variant
      (show ["type", "databus", "data_link_name", "strategy", "table_ids", "created"].Nodup
        by decide) (by simp [hids.ordered]) fun w r htype hof hb => ?_
    have hbus : r.required "databus" Json.text? = some b := hb.required (by simp) (.str b)
    have hlink : r.required "data_link_name" Json.text? = some l := hb.required (by simp) (.str l)
    have hstrategy : r.required "strategy" (Json.constant? true Strategy.ofText?) = some s :=
      hb.required (by simp) (.name (Strategy.ofText?_text s))
    have hids : r.required "table_ids" (Json.list? Json.text?) = some ts :=
      hb.required (by simp) hids
    have hcreated : r.required "created" Json.bool? = some c := hb.required (by simp) (.bool c)
    unfold ofJson?
    rw [htype]
    simp [hof, hbus, hlink, hstrategy, hids, hcreated]
  | planned b l s =>
    refine .variant (show ["type", "databus", "data_link_name", "strategy"].Nodup by decide)
      (by simp) fun w r htype hof hb => ?_
    have hbus : r.required "databus" Json.text? = some b := hb.required (by simp) (.str b)
    have hlink : r.required "data_link_name" Json.text? = some l := hb.required (by simp) (.str l)
    have hstrategy : r.required "strategy" (Json.constant? true Strategy.ofText?) = some s :=
      hb.required (by simp) (.name (Strategy.ofText?_text s))
    unfold ofJson?
    rw [htype]
    simp [hof, hbus, hlink, hstrategy]
  | skipped b why d =>
    refine .variant (show ["type", "databus", "reason", "detail"].Nodup by decide) (by simp)
      fun w r htype hof hb => ?_
    have hbus : r.required "databus" Json.text? = some b := hb.required (by simp) (.str b)
    have hreason : r.required "reason" (SkipReason.read? true) = some why :=
      hb.required (by simp) (.name (SkipReason.ofText?_text why))
    have hdetail : r.required "detail" Json.text? = some d := hb.required (by simp) (.str d)
    unfold ofJson?
    rw [htype]
    simp [hof, hbus, hreason, hdetail]
  | completed report =>
    refine .variant (show ["type", "report"].Nodup by decide) (by simp [(report.readAs true).ordered])
      fun w r htype hof hb => ?_
    have hreport : r.required "report" (RebuildReport.read? true) = some report :=
      hb.required (by simp) (report.readAs true)
    unfold ofJson?
    rw [htype]
    simp [hof, hreport]

namespace Event

/-- an event is read in its domain, by the reader of the domain -/
theorem tagged_readAs {α : Type} {domain : String} {v : Json} {a : α} {read : Json → Option α}
    {e : Event} (hv : ReadAs read v a)
    (h : ∀ w r, Record.of? ["domain", "event"] w = some r →
      r.required "domain" (Json.constant? false some) = some domain →
      r.required "event" read = some a → ofJson? w = some e) :
    ReadAs ofJson? (tagged domain v) e := by
  refine .record (show ["domain", "event"].Nodup by decide) (by simp [hv.ordered])
    fun w r hof hb => ?_
  exact h w r (hof _) (hb.required (by simp) (.name rfl)) (hb.required (by simp) hv)

theorem readAs (e : Event) : ReadAs ofJson? e.toJson e := by
  cases e with
  | general e =>
    refine tagged_readAs e.readAs fun w r hof hdomain hevent => ?_
    unfold ofJson?
    simp [hof, hdomain, hevent]
  | cluster e =>
    refine tagged_readAs e.readAs fun w r hof hdomain hevent => ?_
    unfold ofJson?
    simp [hof, hdomain, hevent]
  | link e =>
    refine tagged_readAs e.readAs fun w r hof hdomain hevent => ?_
    unfold ofJson?
    simp [hof, hdomain, hevent]

end Event

/-- Events and reports are read back from what is written of them, in whatever order the members of
the written objects stand: an event of any domain and variant, with the report in it if it is the
last of a pass or of a batch, and a report with or without plans and with counts for any reasons. -/
theorem events_reports_read_back :
    Json.ReadsBack Event.toJson Event.ofJson? ∧
    Json.ReadsBack RelationReport.toJson RelationReport.ofJson? ∧
    Json.ReadsBack RebuildReport.toJson RebuildReport.ofJson? :=
  ⟨.of_readAs Event.readAs, .of_readAs RelationReport.readAs, .of_readAs (RebuildReport.readAs false)⟩

end Linkage
