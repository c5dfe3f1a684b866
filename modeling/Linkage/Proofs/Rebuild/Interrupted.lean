import Linkage.Proofs.Query.Calm
import Linkage.Proofs.Rebuild.DryRun
import Linkage.Proofs.Rebuild.Resume

/-!
# A batch that fails can be run again

A batch in which a statement fails is compared with the one in which none does, the calm batch.

* `Steady.rebuildBus`, `Steady.reportAll`   a batch that ends with a report has met no failure;
* `visitEach_calm`        up to the data-bus at which it fails, a batch does what the calm one does;
* `Store.Untouched`       nothing that belongs to a data-bus is different;
* `BrokenOff`             what a batch that fails has done and what it has not;
* `rebuild_resumes`       a failure at any statement breaks the batch off, and the next batch ends
                          where the calm one does.
-/

namespace Linkage

/-! ## a batch that answers -/

namespace Query

theorem Steady.andThen {α β : Type} {c : Check α} {f : α → Check β} (hc : Steady c)
    (hf : ∀ a, Steady (f a)) : Steady (andThen c f) := by
  refine hc.bind fun r => ?_
  cases r with
  | error e => exact Steady.pure _
  | ok a => exact hf a

theorem Steady.groupSinks (scope : Scope) (g : SinkGroup) : Steady (groupSinks scope g) := by
  have hread : Steady (sinks g.kind scope g.names) := Steady.each (fun _ => Steady.read _) _
  exact (hread.transaction.skipIf _ _).bind fun rows => Steady.pure _

theorem Steady.allSinks (scope : Scope) (gs : List SinkGroup) : Steady (allSinks scope gs) := by
  induction gs with
  | nil => exact Steady.pure _
  | cons g gs ih =>
    exact (Steady.groupSinks scope g).andThen fun ss => ih.andThen fun rest => Steady.pure _

theorem Steady.ownableTables (scope : Scope) (names : List String) :
    Steady (ownableTables scope names) := by
  have hread : Steady (resultTables scope names) := Steady.each (fun _ => Steady.read _) _
  exact (hread.transaction.skipIf _ _).bind fun rows => Steady.pure _

theorem Steady.strategyOf (b : Bus) (gs : List SinkGroup) : Steady (strategyOf b gs) := by
  unfold Query.strategyOf
  simp only
  split
  · exact Steady.pure _
  · refine (Steady.read _).transaction.bind fun source => ?_
    cases source with
    | none => exact Steady.pure _
    | some a => exact Steady.pure _

theorem Steady.resolve (b : Bus) : Steady (resolve b) :=
  (Steady.pure _).andThen fun gs =>
    (Steady.allSinks b.scope gs).andThen fun _ =>
      (Steady.pure _).andThen fun _ =>
        (Steady.pure _).andThen fun names =>
          (Steady.ownableTables b.scope names).andThen fun _ =>
            (Steady.strategyOf b gs).andThen fun _ => Steady.pure _

theorem Steady.stampIds {δ : Type} (name : TableName)
    (get : Store → Table (Component.key (δ := δ)))
    (set : Store → Table (Component.key (δ := δ)) → Store) (ids : List Int) (owner : String) :
    Steady (stampIds name get set ids owner) :=
  Steady.total (fun _ => Steady.write _ _) (batches ids)

theorem Steady.stampAll (owner : String) (ids : List (SinkKind × List Int)) :
    Steady (stampAll owner ids) := by
  induction ids with
  | nil => exact Steady.pure ()
  | cons e ids ih => exact (Steady.stampIds _ _ _ e.2 owner).bind fun _ => ih

theorem Steady.commitLink (c : LinkCommit) (now : Int) : Steady (commitLink c now) := by
  have hupsert : Steady (upsertLink c.draft now) :=
    (Steady.read _).bind fun before => (Steady.write _ _).bind fun row => Steady.pure _
  have howner : Steady (setBusOwner c.busId c.draft.name) :=
    (Steady.write _ _).bind fun _ => Steady.pure ()
  have htables := (Steady.stampIds .resultTables Store.resultTables setResultTables c.tableRowIds
    c.draft.name).skipIf (c.tableRowIds = []) 0
  exact (hupsert.bind fun u => howner.bind fun _ =>
    (Steady.stampAll c.draft.name c.sinkIds.entries).bind fun _ =>
      htables.bind fun _ => Steady.pure u).transaction

theorem Steady.rebuildBus (dryRun : Bool) (now : Int) (b : Row Bus) :
    Steady (rebuildBus dryRun now b) := by
  refine (Steady.resolve b.val).bind fun x => ?_
  cases x with
  | error e => exact Steady.pure _
  | ok r =>
    cases dryRun with
    | true => exact Steady.pure _
    | false => exact (Steady.commitLink (r.commit b) now).bind fun u => Steady.pure _

theorem Steady.unlinkedBuses (scope : Scope) :
    Steady (Query.transaction (unlinkedBuses scope)) :=
  (Steady.read _).transaction

/-- The report of data-buses that are worked off. -/
def reportEach (dryRun : Bool) (now : Int) (report : RebuildReport) (bs : List (Row Bus)) :
    Query RebuildReport := fun db =>
  ((rebuildEach dryRun now report bs db).1.result, (rebuildEach dryRun now report bs db).2)

/-- The report of a batch. -/
def reportAll (scope : Scope) (dryRun : Bool) (clock : Clock) : Query RebuildReport := fun db =>
  ((rebuild scope dryRun clock db).1.result, (rebuild scope dryRun clock db).2)

theorem reportEach_cons (dryRun : Bool) (now : Int) (report : RebuildReport) (b : Row Bus)
    (bs : List (Row Bus)) : reportEach dryRun now report (b :: bs)
      = (rebuildBus dryRun now b).bind fun a =>
          reportEach dryRun now (report.count a.1) bs := by
  funext db
  unfold reportEach Query.bind
  rw [rebuildEach]
  cases Query.rebuildBus dryRun now b db with
  | mk r after => cases r <;> rfl

theorem Steady.reportEach (dryRun : Bool) (now : Int) (report : RebuildReport)
    (bs : List (Row Bus)) : Steady (reportEach dryRun now report bs) := by
  induction bs generalizing report with
  | nil => exact Steady.pure report
  | cons b bs ih =>
    rw [reportEach_cons]
    exact (Steady.rebuildBus dryRun now b).bind fun a => ih _

theorem reportAll_eq (scope : Scope) (dryRun : Bool) (clock : Clock) :
    reportAll scope dryRun clock = (transaction (unlinkedBuses scope)).bind fun buses =>
      (reportEach dryRun clock.now
        { RebuildReport.start scope dryRun with total := buses.length } buses).bind fun report =>
          Query.pure { report with duration := clock.elapsed } := by
  funext db
  unfold reportAll Query.bind reportEach rebuild
  cases Query.transaction (unlinkedBuses scope) db with
  | mk r after =>
    cases r with
    | error e => rfl
    | ok buses =>
      simp only
      cases rebuildEach dryRun clock.now
        { RebuildReport.start scope dryRun with total := buses.length } buses after with
      | mk run last =>
        obtain ⟨events, result⟩ := run
        cases result <;> rfl

theorem Steady.reportAll (scope : Scope) (dryRun : Bool) (clock : Clock) :
    Steady (reportAll scope dryRun clock) := by
  rw [reportAll_eq]
  exact (Steady.unlinkedBuses scope).bind fun buses =>
    (Steady.reportEach dryRun clock.now _ buses).bind fun report => Steady.pure _

end Query

/-- a batch that ends with a report is the calm one -/
theorem rebuild_calm (scope : Scope) (dryRun : Bool) (clock : Clock) {db : Db}
    {report : RebuildReport} (h : (rebuild scope dryRun clock db).1.result = .ok report) :
    (rebuild scope dryRun clock db.calm).1.result = .ok report ∧
      (rebuild scope dryRun clock db.calm).2 = (rebuild scope dryRun clock db).2.calm := by
  have hcalm := (Query.Steady.reportAll scope dryRun clock).calm db report h
  exact ⟨congrArg Prod.fst hcalm, congrArg Prod.snd hcalm⟩

/-- a batch fails when the database is out of reach at a statement of the calm batch -/
theorem error_of_outage (scope : Scope) (dryRun : Bool) (clock : Clock) {db : Db} {n : Nat}
    (hn : db.clock ≤ n) (hlt : n < (rebuild scope dryRun clock db.calm).2.clock)
    (ho : db.outage n = true) : ∃ e, (rebuild scope dryRun clock db).1.result = .error e := by
  cases hr : (rebuild scope dryRun clock db).1.result with
  | error e => exact ⟨e, rfl⟩
  | ok report =>
    rw [(rebuild_calm scope dryRun clock hr).2] at hlt
    have hreach : db.outage n = false :=
      (Query.Steady.reportAll scope dryRun clock).reach db report hr n hn hlt
    rw [hreach] at ho
    cases ho

/-! ## up to the failure -/

/-- A visit at which a statement fails. -/
def Visit.failed (b : Row Bus) (s : Store) (e : Error) : Visit := ⟨b, s, .error e, s⟩

/-- data-buses are visited as on the calm database, up to one at which a statement fails -/
theorem visitEach_calm (dryRun : Bool) (now : Int) (bs : List (Row Bus)) (db : Db) :
    ∃ done rest, visitEach dryRun now bs db.calm = done ++ rest ∧
      (rest = [] ∧ visitEach dryRun now bs db = done ∨
        ∃ v vs e, rest = v :: vs ∧ visitEach dryRun now bs db
          = done ++ [.failed v.bus (Visit.storeAfter db.store done) e]) := by
  induction bs generalizing db with
  | nil => exact ⟨[], [], rfl, .inl ⟨rfl, rfl⟩⟩
  | cons b bs ih =>
    cases hr : (Query.rebuildBus dryRun now b db).1 with
    | error e =>
      have hsame := Query.atomic_rebuildBus dryRun now b db e hr
      refine ⟨[], visitEach dryRun now (b :: bs) db.calm, rfl, .inr ?_⟩
      refine ⟨_, _, e, rfl, ?_⟩
      unfold visitEach
      simp only [hr]
      rw [hsame]
      rfl
    | ok a =>
      have hcalm := (Query.Steady.rebuildBus dryRun now b).calm db a hr
      obtain ⟨done, rest, hvisits, hrest⟩ := ih (Query.rebuildBus dryRun now b db).2
      let v : Visit := ⟨b, db.store, .ok a, (Query.rebuildBus dryRun now b db).2.store⟩
      have hleft : visitEach dryRun now (b :: bs) db.calm = v :: (done ++ rest) := by
        rw [visitEach]
        simp only [hcalm]
        rw [hvisits]
        rfl
      have hright : visitEach dryRun now (b :: bs) db
          = v :: visitEach dryRun now bs (Query.rebuildBus dryRun now b db).2 := by
        rw [visitEach]
        simp only [hr]
        rfl
      refine ⟨v :: done, rest, hleft, ?_⟩
      rw [hright]
      rcases hrest with ⟨hnil, hdone⟩ | ⟨w, ws, e, hcons, hdone⟩
      · exact .inl ⟨hnil, by rw [hdone]⟩
      · exact .inr ⟨w, ws, e, hcons, by rw [hdone]; rfl⟩

/-! ## what is not touched -/

/-- Nothing that belongs to a data-bus is different in `u`: its own row, the rows of its link and the
components that its link owns. -/
structure Store.Untouched (s u : Store) (b : Row Bus) : Prop where
  bus : b ∈ u.buses.rows
  links : ∀ x, x.val.scope = b.val.scope → x.val.name = b.val.scope.linkName b.val.name →
    (x ∈ u.links.rows ↔ x ∈ s.links.rows)
  buses : ∀ x, x.val.owner = b.val.scope.linkName b.val.name →
    (x ∈ u.buses.rows ↔ x ∈ s.buses.rows)
  sinks : ∀ k x, x.val.owner = b.val.scope.linkName b.val.name →
    (x ∈ (u.sinks.get k).rows ↔ x ∈ (s.sinks.get k).rows)
  resultTables : ∀ x, x.val.owner = b.val.scope.linkName b.val.name →
    (x ∈ u.resultTables.rows ↔ x ∈ s.resultTables.rows)

/-- rows of another owner are the same when an owner was given to rows without one -/
theorem Table.Marked.mem_of_owner {δ : Type} {t u : Table (Component.key (δ := δ))}
    {p : Row (Component δ) → Prop} {owner : String} (h : t.Marked u p owner)
    (hp : ∀ r ∈ t.rows, p r → r.val.owner = "") {x : Row (Component δ)} (hne : x.val.owner ≠ owner)
    (ho : x.val.owner ≠ "") : x ∈ u.rows ↔ x ∈ t.rows := by
  refine h.mem_of_unmarked (fun hx hpx => ho (hp x hx hpx)) fun a _ _ hx => ?_
  rw [hx] at hne
  exact hne rfl

namespace Store

variable {s u w : Store} {b : Row Bus}

theorem Untouched.refl (hb : b ∈ s.buses.rows) : s.Untouched s b :=
  ⟨hb, fun _ _ _ => .rfl, fun _ _ => .rfl, fun _ _ _ => .rfl, fun _ _ => .rfl⟩

theorem Untouched.trans (h : s.Untouched u b) (h' : u.Untouched w b) : s.Untouched w b where
  bus := h'.bus
  links x hs hn := (h'.links x hs hn).trans (h.links x hs hn)
  buses x ho := (h'.buses x ho).trans (h.buses x ho)
  sinks k x ho := (h'.sinks k x ho).trans (h.sinks k x ho)
  resultTables x ho := (h'.resultTables x ho).trans (h.resultTables x ho)

/-- linking a data-bus touches no other one of its scope -/
theorem Linking.untouched {x : Row Bus} {r : Resolution} {l : Row Link} (h : s.Linking x r l u)
    (hr : s.Resolved x.val r) (hx : x ∈ s.unlinked b.val.scope) (hb : b ∈ s.buses.rows)
    (hne : b ≠ x) : s.Untouched u b := by
  obtain ⟨hxmem, hscope, hfree⟩ := mem_unlinked.1 hx
  have hlink : b.val.scope.linkName b.val.name ≠ r.link := by
    rw [hr.link, hscope]
    intro he
    exact hne (Table.eq_of_name hb hxmem hscope.symm (Scope.linkName_injective he))
  have hempty := Scope.linkName_ne_empty b.val.scope b.val.name
  refine ⟨h.buses.mem_iff.2 ⟨b, hb, .inr ⟨hne, rfl⟩⟩, fun y _ hyn => ?_, fun y hyo => ?_,
    fun k y hyo => ?_, fun y hyo => ?_⟩
  · have hother : y.val.name ≠ r.link := by
      rw [hyn]
      exact hlink
    rw [h.links]
    constructor
    · rintro (rfl | ⟨hy, _⟩)
      · exact absurd h.key.2 hother
      · exact hy
    · intro hy
      exact .inr ⟨hy, fun hk => hother hk.2⟩
  · rw [← hyo] at hlink hempty
    refine h.buses.mem_of_owner (fun c _ hc => ?_) hlink hempty
    rw [hc]
    exact hfree
  · rw [← hyo] at hlink hempty
    exact (h.sinks k).mem_of_owner (fun _ _ hm => hr.sink_unowned _ hm) hlink hempty
  · rw [← hyo] at hlink hempty
    exact h.resultTables.mem_of_owner (fun _ _ hm => hr.table_unowned _ hm) hlink hempty

end Store

namespace Batch

variable {scope : Scope} {dryRun : Bool} {now : Int} {s : Store} {done rest : List Visit}

theorem of_append (h : Batch scope dryRun now s (done ++ rest)) : Batch scope dryRun now s done := by
  induction done generalizing s with
  | nil => exact .nil s
  | cons v vs ih =>
    cases h with
    | cons hv hvs => exact .cons hv (ih hvs)

/-- a batch touches only the data-buses that it visits -/
theorem untouched (h : Batch scope dryRun now s done) {b : Row Bus} (hb : b ∈ s.buses.rows)
    (hscope : b.val.scope = scope) (hne : ∀ v ∈ done, v.bus ≠ b) :
    s.Untouched (Visit.storeAfter s done) b := by
  induction h with
  | nil s => exact .refl hb
  | @cons v vs hv _ ih =>
    obtain ⟨hvb, hvs⟩ := List.forall_mem_cons.1 hne
    have hstep : v.before.Untouched v.after b := by
      rcases hv.step with ⟨_, he⟩ | ⟨r, l, hr, _, _, hl⟩
      · rw [he]
        exact .refl hb
      · have hfree := Store.mem_unlinked.2 ⟨hv.bus_mem, hv.scope.trans hscope.symm, hv.unowned⟩
        exact hl.untouched hr hfree hb hvb.symm
    exact hstep.trans (ih hstep.bus hvs)

end Batch

/-! ## the batch -/

/-- A batch was broken off: it did what the calm batch does for the visits `done`, and nothing for
those in `rest`, at the first of which a statement failed. -/
structure BrokenOff (scope : Scope) (clock : Clock) (db : Db) (done rest : List Visit) : Prop where
  visits : visits scope false clock db.calm = done ++ rest
  store : (rebuild scope false clock db).2.store = Visit.storeAfter db.store done
  /-- it told what came of `done`, unless it could not read what there is to do -/
  events : done = [] ∧ (rebuild scope false clock db).1.events = [] ∨
    rest ≠ [] ∧ (rebuild scope false clock db).1.events
      = .link (.started scope (done ++ rest).length false) :: Visit.events done
  untouched : ∀ v ∈ rest, db.store.Untouched (rebuild scope false clock db).2.store v.bus

theorem Visit.tally_failed {report : RebuildReport} {done : List Visit}
    (h : ∀ v ∈ done, ∃ a, v.answer = .ok a) (b : Row Bus) (s : Store) (e : Error) :
    Visit.tally report (done ++ [.failed b s e]) = .error e := by
  obtain ⟨final, hfinal, _⟩ := Visit.plans_tally report h
  unfold Visit.tally at hfinal ⊢
  rw [List.foldl_append, hfinal]
  rfl

theorem Visit.events_failed (done : List Visit) (b : Row Bus) (s : Store) (e : Error) :
    Visit.events (done ++ [.failed b s e]) = Visit.events done := by
  unfold Visit.events
  rw [List.filterMap_append]
  exact List.append_nil _

theorem Visit.storeAfter_failed (t : Store) (done : List Visit) (b : Row Bus) (e : Error) :
    Visit.storeAfter t (done ++ [.failed b (Visit.storeAfter t done) e])
      = Visit.storeAfter t done := by
  unfold Visit.storeAfter
  rw [List.foldl_append]
  rfl

section
variable (scope : Scope) (clock : Clock) (db : Db)

/-- a batch does what the calm batch does, up to a data-bus at which a statement fails -/
theorem visits_calm : ∃ done rest, visits scope false clock db.calm = done ++ rest ∧
    (rebuild scope false clock db).2.store = Visit.storeAfter db.store done ∧
    ((∃ report, (rebuild scope false clock db).1.result = .ok report) ∨
      done = [] ∧ (rebuild scope false clock db).1.events = [] ∨
      rest ≠ [] ∧ (rebuild scope false clock db).1.events
        = .link (.started scope (done ++ rest).length false) :: Visit.events done) := by
  have hsteady := Query.Steady.unlinkedBuses scope
  cases hlist : (Query.transaction (Query.unlinkedBuses scope) db).1 with
  | error e =>
    have hrun := Query.eq_mk_of_fst hlist
    refine ⟨[], visits scope false clock db.calm, rfl, ?_, .inr (.inl ⟨rfl, ?_⟩)⟩
    · rw [rebuild_store]
      unfold visits
      rw [hrun]
    · unfold rebuild
      rw [hrun]
  | ok buses =>
    obtain ⟨hbuses, hok⟩ := visits_reliable scope false clock db.reliable_calm
    have hobs := Query.Observes.unlinkedBuses scope
    have hstore := hobs.store db
    have hcalm := hsteady.calm db buses hlist
    have hrun := Query.eq_mk_of_fst hlist
    obtain ⟨done, rest, hvisits, hend⟩ := visitEach_calm false clock.now buses
      (Query.transaction (Query.unlinkedBuses scope) db).2
    have hall : visits scope false clock db.calm = done ++ rest := by
      rw [← hvisits]
      unfold visits
      rw [hcalm]
    have hthis : visits scope false clock db = visitEach false clock.now buses
        (Query.transaction (Query.unlinkedBuses scope) db).2 := by
      unfold visits
      rw [hrun]
    have hdone : ∀ v ∈ done, ∃ a, v.answer = .ok a := by
      intro v hv
      refine hok v ?_
      rw [hall]
      exact List.mem_append_left rest hv
    refine ⟨done, rest, hall, ?_⟩
    rcases hend with ⟨rfl, hsame⟩ | ⟨v, vs, e, rfl, hfailed⟩
    · obtain ⟨final, hfinal, _⟩ := Visit.plans_tally
        { RebuildReport.start scope false with total := buses.length } hdone
      refine ⟨by rw [rebuild_store, hthis, hsame], .inl ?_⟩
      rw [rebuild_eq scope false clock hrun, hthis, hsame, hfinal]
      exact ⟨_, rfl⟩
    · rw [hstore] at hfailed
      have hlength : (done ++ v :: vs).length = buses.length := by
        rw [hobs.sound db buses hlist, ← hall, ← List.length_map (f := Visit.bus), hbuses]
        rfl
      refine ⟨by rw [rebuild_store, hthis, hfailed, Visit.storeAfter_failed],
        .inr (.inr ⟨List.cons_ne_nil v vs, ?_⟩)⟩
      rw [rebuild_eq scope false clock hrun, hthis, hfailed, Visit.tally_failed hdone,
        Visit.events_failed, hlength]

/-- what is left to do is untouched -/
theorem untouched_of_done {done rest : List Visit}
    (h : visits scope false clock db.calm = done ++ rest) :
    ∀ v ∈ rest, db.store.Untouched (Visit.storeAfter db.store done) v.bus := by
  obtain ⟨hbuses, _⟩ := visits_reliable scope false clock db.reliable_calm
  have hnodup := db.store.nodup_unlinked scope
  have hbatch := batch_visits scope false clock db.calm
  rw [h] at hbatch hbuses
  have hbuses : (done ++ rest).map Visit.bus = db.store.unlinked scope := hbuses
  rw [← hbuses, List.map_append, List.nodup_append] at hnodup
  intro v hv
  have hmem : v.bus ∈ db.store.unlinked scope := by
    rw [← hbuses]
    exact List.mem_map_of_mem (List.mem_append_right done hv)
  obtain ⟨hb, hscope, _⟩ := Store.mem_unlinked.1 hmem
  refine hbatch.of_append.untouched hb hscope fun w hw => ?_
  exact hnodup.2.2 w.bus (List.mem_map_of_mem hw) v.bus (List.mem_map_of_mem hv)

/-- where a batch ends in which no statement fails -/
theorem rebuild_reliable (hdb : db.Reliable) : (rebuild scope false clock db).2.store
    = db.store.linkAll clock.now (db.store.unlinked scope) := by
  obtain ⟨hbuses, hok⟩ := visits_reliable scope false clock hdb
  rw [rebuild_store, (batch_visits scope false clock db).storeAfter_eq hok, hbuses]

/-- a batch stops with a store in which its first data-buses were looked at -/
theorem rebuild_store_eq : ∃ bs rest, db.store.unlinked scope = bs ++ rest ∧
    (rebuild scope false clock db).2.store = db.store.linkAll clock.now bs := by
  obtain ⟨hbuses, hok⟩ := visits_reliable scope false clock db.reliable_calm
  have hbatch := batch_visits scope false clock db.calm
  obtain ⟨done, rest, hall, hstore, _⟩ := visits_calm scope clock db
  rw [hall] at hbuses hok hbatch
  refine ⟨done.map Visit.bus, rest.map Visit.bus, ?_, ?_⟩
  · rw [← List.map_append, hbuses]
    rfl
  · rw [hstore]
    exact hbatch.of_append.storeAfter_eq fun v hv => hok v (List.mem_append_left rest hv)

end

/-- Whatever fails in a batch, it can be run again.  A batch that ends with a report is the calm one,
and one that is out of reach at any statement of the calm one fails; a batch that fails has linked the
data-buses before the failure and touched none after it; and when another batch is run after it, in
which nothing fails, the store is, but for the times of links, as if nothing had failed at all. -/
theorem rebuild_resumes (scope : Scope) (clock clock' clock'' : Clock) (db : Db) :
    (∀ report, (rebuild scope false clock db).1.result = .ok report →
      (rebuild scope false clock db.calm).1.result = .ok report ∧
        (rebuild scope false clock db.calm).2 = (rebuild scope false clock db).2.calm) ∧
    (∀ n, db.clock ≤ n → n < (rebuild scope false clock db.calm).2.clock → db.outage n = true →
      ∃ e, (rebuild scope false clock db).1.result = .error e) ∧
    (∀ e, (rebuild scope false clock db).1.result = .error e →
      ∃ done rest, BrokenOff scope clock db done rest) ∧
    (∃ report,
      (rebuild scope false clock' (.of (rebuild scope false clock db).2.store)).1.result
        = .ok report) ∧
    (rebuild scope false clock' (.of (rebuild scope false clock db).2.store)).2.store.timeless
      = (rebuild scope false clock'' (.of db.store)).2.store.timeless := by
  refine ⟨fun report h => rebuild_calm scope false clock h,
    fun n hn hlt ho => error_of_outage scope false clock hn hlt ho, fun e he => ?_, ?_, ?_⟩
  · obtain ⟨done, rest, hall, hstore, hend⟩ := visits_calm scope clock db
    refine ⟨done, rest, hall, hstore, ?_, ?_⟩
    · rcases hend with ⟨report, hok⟩ | hevents
      · rw [he] at hok
        cases hok
      · exact hevents
    · rw [hstore]
      exact untouched_of_done scope clock db hall
  · obtain ⟨report, hrun, _⟩ := told_rebuild scope false clock'
      (Db.reliable_of (rebuild scope false clock db).2.store)
    exact ⟨report, by rw [hrun]⟩
  · obtain ⟨bs, rest, hunlinked, hstore⟩ := rebuild_store_eq scope clock db
    rw [rebuild_reliable scope clock' _ (Db.reliable_of _),
      rebuild_reliable scope clock'' _ (Db.reliable_of _)]
    show (Store.linkAll _ _ (rebuild scope false clock db).2.store).timeless
      = (db.store.linkAll _ _).timeless
    rw [hstore]
    exact Store.timeless_linkAll_left hunlinked _ _ _

/-- A store with three data-buses, out of reach while the third is linked. -/
def Db.breaking : Db := { Db.of .trio with outage := fun n => n = 30 }

/-- The batch that is broken off keeps the link of the first data-bus, and the next one links the
third. -/
theorem rebuild_resumes_trio : ∃ done rest,
    BrokenOff ⟨"t", "n"⟩ ⟨9, 3⟩ .breaking done rest ∧
    (rebuild ⟨"t", "n"⟩ false ⟨9, 3⟩ .breaking).2.store.links.rows.map (fun r => r.val.name)
      = ["rebuilt__t__n__one"] ∧
    (rebuild ⟨"t", "n"⟩ false ⟨12, 3⟩
      (.of (rebuild ⟨"t", "n"⟩ false ⟨9, 3⟩ .breaking).2.store)).2.store.links.rows.map
        (fun r => r.val.name) = ["rebuilt__t__n__one", "rebuilt__t__n__three"] ∧
    (rebuild ⟨"t", "n"⟩ false ⟨12, 3⟩
      (.of (rebuild ⟨"t", "n"⟩ false ⟨9, 3⟩ .breaking).2.store)).2.store.timeless
        = (rebuild ⟨"t", "n"⟩ false ⟨9, 3⟩ (.of .trio)).2.store.timeless := by
  obtain ⟨-, hfails, hbroken, -, hsame⟩ :=
    rebuild_resumes ⟨"t", "n"⟩ ⟨9, 3⟩ ⟨12, 3⟩ ⟨9, 3⟩ .breaking
  obtain ⟨e, he⟩ := hfails 30 (by decide) (by decide +kernel) rfl
  obtain ⟨done, rest, hbroken⟩ := hbroken e he
  exact ⟨done, rest, hbroken, by decide +kernel, by decide +kernel, hsame⟩

end Linkage
