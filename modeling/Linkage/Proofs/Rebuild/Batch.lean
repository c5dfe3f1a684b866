import Linkage.Proofs.Rebuild.Linking

/-!
# The data-buses of a batch, one after the other

* `visits`            the data-buses that a batch looks at, with the stores before and after each;
* `rebuild_eq`        events, report and last store of a batch are read off its visits;
* `Batch`             visits of unlinked data-buses, each of which finds the store that the one
                      before it has left;
* `batch_visits`      the visits of a batch are such, whatever statements fail;
* `Batch.invariant`   what linking one data-bus preserves, a batch preserves.
-/

namespace Linkage

/-- The data-buses of a scope that no link owns, in the order of their ids. -/
def Store.unlinked (s : Store) (scope : Scope) : List (Row Bus) :=
  s.buses.select fun r => r.val.scope = scope ∧ r.val.owner = ""

theorem Query.Observes.unlinkedBuses (scope : Scope) :
    Observes (Query.transaction (unlinkedBuses scope)) fun s => s.unlinked scope :=
  (Observes.read _).transaction

/-- One data-bus of a batch: what came of it, and the stores before and after it. -/
structure Visit where
  bus : Row Bus
  before : Store
  answer : Except Error (Outcome × Event)
  after : Store

/-- The visits of data-buses, one after the other; a failure is the last one. -/
def visitEach (dryRun : Bool) (now : Int) : List (Row Bus) → Db → List Visit
  | [], _ => []
  | b :: bs, db =>
    let run := Query.rebuildBus dryRun now b db
    ⟨b, db.store, run.1, run.2.store⟩ :: match run.1 with
      | .ok _ => visitEach dryRun now bs run.2
      | .error _ => []

def visits (scope : Scope) (dryRun : Bool) (clock : Clock) (db : Db) : List Visit :=
  match Query.transaction (Query.unlinkedBuses scope) db with
  | (.ok buses, db) => visitEach dryRun clock.now buses db
  | (.error _, _) => []

namespace Visit

/-- The store after visits that began in the store `s`. -/
def storeAfter (s : Store) (vs : List Visit) : Store := vs.foldl (fun _ v => v.after) s

/-- The report with the outcomes of visits, or the failure of one. -/
def tally (report : RebuildReport) (vs : List Visit) : Except Error RebuildReport :=
  vs.foldl (fun r v => r.bind fun report => v.answer.map fun a => report.count a.1) (.ok report)

/-- The events that visits told. -/
def events (vs : List Visit) : List Event :=
  vs.filterMap fun v => match v.answer with
    | .ok a => some a.2
    | .error _ => none

/-- a visit that fails leaves no report -/
theorem tally_cons (report : RebuildReport) (v : Visit) (vs : List Visit) :
    tally report (v :: vs) = v.answer.bind fun a => tally (report.count a.1) vs := by
  unfold tally
  rw [List.foldl_cons]
  cases hv : v.answer with
  | ok a => rfl
  | error e =>
    clear hv
    induction vs with
    | nil => rfl
    | cons w ws ih =>
      rw [List.foldl_cons]
      exact ih

end Visit

/-- data-buses that are worked off tell, count and leave what their visits do -/
theorem rebuildEach_eq (dryRun : Bool) (now : Int) (report : RebuildReport) (bs : List (Row Bus))
    (db : Db) :
    (rebuildEach dryRun now report bs db).1
        = ⟨Visit.events (visitEach dryRun now bs db),
            Visit.tally report (visitEach dryRun now bs db)⟩ ∧
      (rebuildEach dryRun now report bs db).2.store
        = Visit.storeAfter db.store (visitEach dryRun now bs db) := by
  induction bs generalizing db report with
  | nil => exact ⟨rfl, rfl⟩
  | cons b bs ih =>
    unfold rebuildEach visitEach
    cases h : Query.rebuildBus dryRun now b db with
    | mk r after =>
      cases r with
      | error e => exact ⟨rfl, rfl⟩
      | ok a =>
        obtain ⟨h1, h2⟩ := ih (report.count a.1) after
        refine ⟨?_, h2⟩
        simp only
        rw [h1]
        rfl

/-- A batch tells that it has begun, then what its visits tell, then its report; a failure ends it
without one. -/
theorem rebuild_eq (scope : Scope) (dryRun : Bool) (clock : Clock) {db after : Db}
    {buses : List (Row Bus)}
    (h : Query.transaction (Query.unlinkedBuses scope) db = (.ok buses, after)) :
    (rebuild scope dryRun clock db).1 =
      (match Visit.tally { RebuildReport.start scope dryRun with total := buses.length }
          (visits scope dryRun clock db) with
        | .error e => ⟨.link (.started scope buses.length dryRun) ::
            Visit.events (visits scope dryRun clock db), .error e⟩
        | .ok report => ⟨.link (.started scope buses.length dryRun) ::
            Visit.events (visits scope dryRun clock db) ++
              [.link (.completed { report with duration := clock.elapsed })],
            .ok { report with duration := clock.elapsed }⟩) := by
  unfold rebuild visits
  rw [h]
  simp only
  obtain ⟨h1, -⟩ := rebuildEach_eq dryRun clock.now
    { RebuildReport.start scope dryRun with total := buses.length } buses after
  cases hr : rebuildEach dryRun clock.now
    { RebuildReport.start scope dryRun with total := buses.length } buses after with
  | mk run db' =>
    rw [hr] at h1
    obtain ⟨events, result⟩ := run
    obtain ⟨he, ht⟩ := RebuildRun.mk.inj h1
    rw [← he, ← ht]
    cases result <;> rfl

theorem rebuild_store (scope : Scope) (dryRun : Bool) (clock : Clock) (db : Db) :
    (rebuild scope dryRun clock db).2.store
      = Visit.storeAfter db.store (visits scope dryRun clock db) := by
  have hstore := (Query.Observes.unlinkedBuses scope).store db
  unfold rebuild visits
  cases h : Query.transaction (Query.unlinkedBuses scope) db with
  | mk r after =>
    rw [h] at hstore
    cases r with
    | error e => exact hstore
    | ok buses =>
      simp only
      obtain ⟨-, h2⟩ := rebuildEach_eq dryRun clock.now
        { RebuildReport.start scope dryRun with total := buses.length } buses after
      rw [← hstore, ← h2]
      cases hr : rebuildEach dryRun clock.now
        { RebuildReport.start scope dryRun with total := buses.length } buses after with
      | mk run db' =>
        obtain ⟨events, result⟩ := run
        cases result <;> rfl

/-! ## what the visits of a batch find -/

/-- A visit of an unlinked data-bus of the scope: it does what looking at the data-bus does, or
nothing if a statement fails. -/
structure Visit.Sound (scope : Scope) (dryRun : Bool) (now : Int) (v : Visit) : Prop where
  bus_mem : v.bus ∈ v.before.buses.rows
  scope : v.bus.val.scope = scope
  unowned : v.bus.val.owner = ""
  did : (∃ e, v.answer = .error e) ∧ v.after = v.before ∨
    ∃ a, v.answer = .ok a ∧ v.before.rebuildBus dryRun now v.bus = (a, v.after)

/-- Visits of which each finds the store that the one before it has left. -/
inductive Batch (scope : Scope) (dryRun : Bool) (now : Int) : Store → List Visit → Prop
  | nil (s : Store) : Batch scope dryRun now s []
  | cons {v : Visit} {vs : List Visit} (hv : v.Sound scope dryRun now)
      (hvs : Batch scope dryRun now v.after vs) : Batch scope dryRun now v.before (v :: vs)

theorem Store.mem_unlinked {s : Store} {scope : Scope} {b : Row Bus} :
    b ∈ s.unlinked scope ↔ b ∈ s.buses.rows ∧ b.val.scope = scope ∧ b.val.owner = "" := by
  unfold unlinked Table.select
  rw [List.mem_filter, decide_eq_true_iff]

theorem Store.nodup_unlinked (s : Store) (scope : Scope) : (s.unlinked scope).Nodup :=
  (List.Nodup.of_map _ s.buses.nodup_ids).filter _

theorem Store.mem_buses_rebuildBus (dryRun : Bool) (now : Int) {s : Store} {b x : Row Bus}
    (hb : b ∈ s.buses.rows) (hx : x ∈ s.buses.rows) (hne : x ≠ b) :
    x ∈ (s.rebuildBus dryRun now b).2.buses.rows := by
  rcases rebuildBus_cases dryRun now hb with ⟨_, _, _, h⟩ | ⟨_, _, _, _, h⟩ | ⟨_, _, _, _, _, h⟩
  · rw [h]
    exact hx
  · rw [h]
    exact hx
  · exact h.buses.mem_iff.2 ⟨x, hx, .inr ⟨hne, rfl⟩⟩

theorem batch_visitEach {scope : Scope} (dryRun : Bool) (now : Int) {bs : List (Row Bus)} {db : Db}
    (hn : bs.Nodup) (h : ∀ b ∈ bs, b ∈ db.store.unlinked scope) :
    Batch scope dryRun now db.store (visitEach dryRun now bs db) := by
  induction bs generalizing db with
  | nil => exact .nil _
  | cons b bs ih =>
    obtain ⟨hb, hscope, hfree⟩ := Store.mem_unlinked.1 (h b List.mem_cons_self)
    obtain ⟨hnb, hn⟩ := List.nodup_cons.1 hn
    have hmeans := Query.Means.rebuildBus dryRun now b
    unfold visitEach
    cases hr : (Query.rebuildBus dryRun now b db).1 with
    | error e =>
      have hsame := Query.atomic_rebuildBus dryRun now b db e hr
      simp only [hr]
      exact .cons (v := ⟨b, db.store, .error e, _⟩)
        ⟨hb, hscope, hfree, .inl ⟨⟨e, rfl⟩, hsame⟩⟩ (.nil _)
    | ok a =>
      have hdid := hmeans.sound db a hr
      simp only [hr]
      refine .cons (v := ⟨b, db.store, .ok a, _⟩)
        ⟨hb, hscope, hfree, .inr ⟨a, rfl, hdid⟩⟩ (ih hn fun x hx => ?_)
      obtain ⟨hxm, hxs⟩ := Store.mem_unlinked.1 (h x (List.mem_cons_of_mem _ hx))
      have hne : x ≠ b := fun he => hnb (he ▸ hx)
      have hx' := Store.mem_buses_rebuildBus dryRun now hb hxm hne
      rw [hdid] at hx'
      exact Store.mem_unlinked.2 ⟨hx', hxs⟩

/-- whatever statements fail, a batch visits data-buses that no link owns -/
theorem batch_visits (scope : Scope) (dryRun : Bool) (clock : Clock) (db : Db) :
    Batch scope dryRun clock.now db.store (visits scope dryRun clock db) := by
  have hobs := Query.Observes.unlinkedBuses scope
  unfold visits
  cases h : Query.transaction (Query.unlinkedBuses scope) db with
  | mk r after =>
    cases r with
    | error e => exact .nil _
    | ok buses =>
      have hstore : after.store = db.store := by
        have := hobs.store db
        rwa [h] at this
      have hbuses : buses = db.store.unlinked scope := hobs.sound db buses (by rw [h])
      rw [← hstore]
      refine batch_visitEach dryRun clock.now ?_ fun b hb => ?_
      · rw [hbuses]
        exact Store.nodup_unlinked _ scope
      · rwa [hstore, ← hbuses]

/-- A visit ended in one way. -/
def Visit.CameTo (v : Visit) (o : Outcome) : Prop := ∃ event, v.answer = .ok (o, event)

/-- A statement fails, the data-bus is skipped, it is planned or it is linked. -/
theorem Visit.Sound.cases {scope : Scope} {dryRun : Bool} {now : Int} {v : Visit}
    (h : v.Sound scope dryRun now) :
    ((∃ e, v.answer = .error e) ∧ v.after = v.before) ∨
    (∃ e, v.before.resolve v.bus.val = .error e ∧ v.CameTo (.skipped e.reason) ∧
      v.after = v.before) ∨
    (∃ r, v.before.resolve v.bus.val = .ok r ∧ dryRun = true ∧
      v.CameTo (.planned (r.plan v.bus.val)) ∧ v.after = v.before) ∨
    ∃ r l, v.before.resolve v.bus.val = .ok r ∧ dryRun = false ∧ v.CameTo (.linked l) ∧
      v.before.Linking v.bus r l v.after := by
  rcases h.did with herr | ⟨⟨o, event⟩, hans, hdid⟩
  · exact .inl herr
  · have ho : (v.before.rebuildBus dryRun now v.bus).1.1 = o := by rw [hdid]
    have hafter : (v.before.rebuildBus dryRun now v.bus).2 = v.after := by rw [hdid]
    have hcases := Store.rebuildBus_cases dryRun now h.bus_mem
    rw [ho, hafter] at hcases
    rcases hcases with ⟨e, hr, rfl, hs⟩ | ⟨r, hr, hd, rfl, hs⟩ | ⟨r, l, hr, hd, rfl, hs⟩
    · exact .inr (.inl ⟨e, hr, ⟨event, hans⟩, hs⟩)
    · exact .inr (.inr (.inl ⟨r, hr, hd, ⟨event, hans⟩, hs⟩))
    · exact .inr (.inr (.inr ⟨r, l, hr, hd, ⟨event, hans⟩, hs⟩))

theorem Visit.CameTo.unique {v : Visit} {o o' : Outcome} (h : v.CameTo o) (h' : v.CameTo o') :
    o = o' := by
  obtain ⟨e, he⟩ := h
  obtain ⟨e', he'⟩ := h'
  rw [he] at he'
  cases he'
  rfl

/-- A visit leaves the store as it is, or links its data-bus. -/
theorem Visit.Sound.step {scope : Scope} {dryRun : Bool} {now : Int} {v : Visit}
    (h : v.Sound scope dryRun now) :
    ((∀ l, ¬v.CameTo (.linked l)) ∧ v.after = v.before) ∨
      ∃ r l, v.before.Resolved v.bus.val r ∧ dryRun = false ∧ v.CameTo (.linked l) ∧
        v.before.Linking v.bus r l v.after := by
  rcases h.cases with ⟨⟨e, he⟩, hs⟩ | ⟨e, _, hc, hs⟩ | ⟨r, _, _, hc, hs⟩ | ⟨r, l, hr, hd, hc, hl⟩
  · refine .inl ⟨fun l ⟨_, hans⟩ => ?_, hs⟩
    rw [he] at hans
    cases hans
  · exact .inl ⟨fun l hl => (by cases hc.unique hl), hs⟩
  · exact .inl ⟨fun l hl => (by cases hc.unique hl), hs⟩
  · exact .inr ⟨r, l, Store.resolved_of_resolve hr, hd, hc, hl⟩

/-! ## batches in which no statement fails -/

theorem map_bus_visitEach {dryRun : Bool} {now : Int} {bs : List (Row Bus)} {db : Db}
    (h : ∀ v ∈ visitEach dryRun now bs db, ∃ a, v.answer = .ok a) :
    (visitEach dryRun now bs db).map Visit.bus = bs := by
  induction bs generalizing db with
  | nil => rfl
  | cons b bs ih =>
    unfold visitEach at h ⊢
    cases hr : (Query.rebuildBus dryRun now b db).1 with
    | error e =>
      obtain ⟨a, ha⟩ := h _ List.mem_cons_self
      rw [hr] at ha
      cases ha
    | ok a =>
      simp only [hr] at h ⊢
      rw [List.map_cons, ih fun v hv => h v (List.mem_cons_of_mem _ hv)]

theorem visitEach_reliable (dryRun : Bool) (now : Int) (bs : List (Row Bus)) {db : Db}
    (hdb : db.Reliable) : (visitEach dryRun now bs db).map Visit.bus = bs ∧
      ∀ v ∈ visitEach dryRun now bs db, ∃ a, v.answer = .ok a := by
  have hall : ∀ v ∈ visitEach dryRun now bs db, ∃ a, v.answer = .ok a := by
    induction bs generalizing db with
    | nil => exact fun v hv => (by cases hv)
    | cons b bs ih =>
      have hmeans := Query.Means.rebuildBus dryRun now b
      obtain ⟨a, ha⟩ := hmeans.total db hdb
      have hafter := hdb.congr (hmeans.guards db) (hmeans.outage db)
      unfold visitEach
      simp only [ha]
      exact List.forall_mem_cons.2 ⟨⟨a, rfl⟩, ih hafter⟩
  exact ⟨map_bus_visitEach hall, hall⟩

/-- a batch visits every unlinked data-bus, in the order of their ids -/
theorem visits_reliable (scope : Scope) (dryRun : Bool) (clock : Clock) {db : Db}
    (hdb : db.Reliable) : (visits scope dryRun clock db).map Visit.bus = db.store.unlinked scope ∧
      ∀ v ∈ visits scope dryRun clock db, ∃ a, v.answer = .ok a := by
  have hobs := Query.Observes.unlinkedBuses scope
  obtain ⟨buses, hok⟩ := hobs.total db hdb
  have hbuses : buses = db.store.unlinked scope := hobs.sound db buses hok
  have hafter := hdb.congr (hobs.guards db) (hobs.outage db)
  unfold visits
  cases h : Query.transaction (Query.unlinkedBuses scope) db with
  | mk r after =>
    rw [h] at hok hafter
    cases hok
    rw [← hbuses]
    exact visitEach_reliable dryRun clock.now buses hafter

namespace Batch

variable {scope : Scope} {dryRun : Bool} {now : Int} {s : Store} {vs : List Visit}

theorem sound (h : Batch scope dryRun now s vs) {v : Visit} (hv : v ∈ vs) :
    v.Sound scope dryRun now := by
  induction h with
  | nil s => cases hv
  | cons hw _ ih =>
    rcases List.mem_cons.1 hv with rfl | hv
    · exact hw
    · exact ih hv

/-- What linking one data-bus preserves, holds after each visit of a batch. -/
theorem invariant {P : Store → Prop} (h : Batch scope dryRun now s vs)
    (hlink : ∀ s b r l u, P s → b ∈ s.unlinked scope → s.Resolved b.val r →
      s.Linking b r l u → P u)
    (hs : P s) : (∀ v ∈ vs, P v.after) ∧ P (Visit.storeAfter s vs) := by
  induction h with
  | nil s => exact ⟨fun v hv => (by cases hv), hs⟩
  | @cons v vs hv _ ih =>
    have hafter : P v.after := by
      rcases hv.step with ⟨_, he⟩ | ⟨r, l, hr, _, _, hl⟩
      · rwa [he]
      · have hb := Store.mem_unlinked.2 ⟨hv.bus_mem, hv.scope, hv.unowned⟩
        exact hlink _ _ _ _ _ hs hb hr hl
    obtain ⟨h1, h2⟩ := ih hafter
    refine ⟨fun w hw => ?_, h2⟩
    rcases List.mem_cons.1 hw with rfl | hw
    · exact hafter
    · exact h1 w hw

theorem keeps (h : Batch scope dryRun now s vs) :
    (∀ v ∈ vs, s.Keeps v.after) ∧ s.Keeps (Visit.storeAfter s vs) :=
  h.invariant (fun _ _ _ _ _ hs hb hr hlink =>
    hs.trans (hlink.keeps hr (Store.mem_unlinked.1 hb).2.2)) (.refl s)

theorem of_dryRun (h : Batch scope true now s vs) :
    (∀ v ∈ vs, v.before = s) ∧ Visit.storeAfter s vs = s := by
  induction h with
  | nil s => exact ⟨fun v hv => (by cases hv), rfl⟩
  | @cons v vs hv _ ih =>
    have hafter : v.after = v.before := by
      rcases hv.step with ⟨_, he⟩ | ⟨_, _, _, hd, _⟩
      · exact he
      · cases hd
    rw [hafter] at ih
    refine ⟨fun w hw => ?_, ?_⟩
    · rcases List.mem_cons.1 hw with rfl | hw
      · rfl
      · exact ih.1 w hw
    · show Visit.storeAfter v.after vs = v.before
      rw [hafter]
      exact ih.2

end Batch

end Linkage
