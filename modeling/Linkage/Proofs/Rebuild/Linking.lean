import Linkage.Proofs.Dict.Group
import Linkage.Proofs.Rebuild.Resolved
import Linkage.Proofs.Store.Commit
import Linkage.Proofs.Store.Ownership
import Linkage.Rebuild.Run

/-!
# What looking at one data-bus does to the store

* `Store.rebuildBus`      what becomes of a data-bus, and the store after it;
* `Store.Stamping`        the store after a commit: it owns the rows that were resolved, whether the
                          data-bus that asked for it is stored or not;
* `Store.Linking`         the store after a data-bus was linked: it and all that it resolved to have
                          the link as their owner, and nothing else has changed;
* `Means.rebuildBus`      looking at a data-bus does this, or nothing if a statement fails;
* `rebuildBus_cases`      a data-bus is linked, or the store is as it was.
-/

namespace Linkage

theorem Scope.linkName_ne_empty (scope : Scope) (bus : String) : scope.linkName bus ≠ "" := by
  intro h
  have := congrArg String.toList h
  simp [Scope.linkName] at this

namespace Store

/-- What becomes of a data-bus that was resolved, and the store after it. -/
def settle (dryRun : Bool) (now : Int) (b : Row Bus) (s : Store) :
    Except Skip Resolution → (Outcome × Event) × Store
  | .error e => ((.skipped e.reason, .link (.skipped b.val.name e.reason e.detail)), s)
  | .ok r =>
    if dryRun then
      ((.planned (r.plan b.val), .link (.planned b.val.name r.link r.strategy)), s)
    else
      let u := s.commitLink (r.commit b) now
      ((.linked u.1.row, .link (.linked b.val.name u.1.row.val.name r.strategy r.tableIds
        u.1.created)), u.2)

/-- What becomes of a data-bus that is looked at, and the store after it. -/
def rebuildBus (dryRun : Bool) (now : Int) (b : Row Bus) (s : Store) : (Outcome × Event) × Store :=
  s.settle dryRun now b (s.resolve b.val)

/-- `u` is the store `s` in which the link of a resolution was given to the rows that it is to own;
of the data-bus only its id counts. -/
structure Stamping (s : Store) (b : Row Bus) (r : Resolution) (u : Store) : Prop where
  buses : s.buses.Marked u.buses (fun x => x.id = b.id) r.link
  sinks : ∀ k, (s.sinks.get k).Marked (u.sinks.get k) (fun x => ⟨k, x⟩ ∈ r.sinks) r.link
  resultTables : s.resultTables.Marked u.resultTables (fun x => x ∈ r.tables) r.link
  frame : u.spaces = s.spaces ∧ u.resources = s.resources ∧ u.relations = s.relations ∧
    u.sources = s.sources

/-- `u` is the store after a data-bus was linked as it resolved, by the link row `l`. -/
structure Linking (s : Store) (b : Row Bus) (r : Resolution) (l : Row Link) (u : Store) : Prop where
  buses : s.buses.Marked u.buses (fun x => x = b) r.link
  sinks : ∀ k, (s.sinks.get k).Marked (u.sinks.get k) (fun x => ⟨k, x⟩ ∈ r.sinks) r.link
  resultTables : s.resultTables.Marked u.resultTables (fun x => x ∈ r.tables) r.link
  links : ∀ x, x ∈ u.links.rows ↔
    x = l ∨ x ∈ s.links.rows ∧ ¬(x.val.scope = b.val.scope ∧ x.val.name = r.link)
  key : l.val.scope = b.val.scope ∧ l.val.name = r.link
  strategy : l.val.strategy = r.strategy.text
  dataId : l.val.dataId = b.val.detail.dataId
  tableIds : l.val.tableIds = listColumn r.tableIds
  frame : u.spaces = s.spaces ∧ u.resources = s.resources ∧ u.relations = s.relations ∧
    u.sources = s.sources

theorem any_sinkIds {s : Store} {b : Row Bus} {r : Resolution} (h : s.Resolved b.val r)
    {k : SinkKind} {x : Row Sink} (hx : x ∈ (s.sinks.get k).rows) :
    ((r.commit b).sinkIds.entries.any fun e => e.1 = k && hasId e.2 x) = true ↔
      ⟨k, x⟩ ∈ r.sinks := by
  have hgroup : (r.commit b).sinkIds
      = Dict.group ListedSink.kind (fun y => y.row.id) r.sinks := rfl
  rw [hgroup, List.any_eq_true]
  constructor
  · rintro ⟨⟨j, ids⟩, hm, hp⟩
    obtain ⟨_, rfl⟩ := Dict.mem_entries_group.1 hm
    rw [Bool.and_eq_true, decide_eq_true_iff, hasId_iff] at hp
    obtain ⟨hj, hid⟩ := hp
    obtain ⟨y, hy, hid⟩ := List.mem_map.1 hid
    obtain ⟨hy, hk⟩ := List.mem_filter.1 hy
    have hk : y.kind = k := (of_decide_eq_true hk).trans hj
    subst hk
    have : y.row = x := Table.eq_of_id (h.sink_mem y hy).1 hx hid
    rw [← this]
    exact hy
  · intro hm
    refine ⟨(k, (r.sinks.filter fun y => y.kind = k).map fun y => y.row.id),
      Dict.mem_entries_group.2 ⟨List.mem_map.2 ⟨_, hm, rfl⟩, rfl⟩, ?_⟩
    rw [Bool.and_eq_true, decide_eq_true_iff, hasId_iff]
    exact ⟨rfl, List.mem_map.2 ⟨_, List.mem_filter.2 ⟨hm, decide_eq_true rfl⟩, rfl⟩⟩

theorem stamping_commitLink {s : Store} {b : Row Bus} {r : Resolution} (h : s.Resolved b.val r)
    (now : Int) : s.Stamping b r (s.commitLink (r.commit b) now).2 where
  buses := ⟨fun x => x.id = b.id, rfl, fun _ _ => decide_eq_true_iff⟩
  sinks k := ⟨_, SinkTables.get_stamp _ _ _ _, fun _ hx => any_sinkIds h hx⟩
  resultTables := by
    refine ⟨hasId (r.tables.map (·.id)), rfl, fun x hx => ?_⟩
    rw [hasId_iff, List.mem_map]
    constructor
    · rintro ⟨t, ht, hid⟩
      rw [← Table.eq_of_id (h.table_mem t ht).1 hx hid]
      exact ht
    · intro ht
      exact ⟨x, ht, rfl⟩
  frame := by
    have := Query.putLink_snd (r.commit b).draft now s
    unfold commitLink
    rw [this]
    exact ⟨rfl, rfl, rfl, rfl⟩

theorem linking_commitLink {s : Store} {b : Row Bus} {r : Resolution} (h : s.Resolved b.val r)
    (hb : b ∈ s.buses.rows) (now : Int) :
    s.Linking b r (s.commitLink (r.commit b) now).1.row (s.commitLink (r.commit b) now).2 where
  buses := (stamping_commitLink h now).buses.congr fun x hx =>
    ⟨fun hid => Table.eq_of_id hx hb hid, fun he => by rw [he]⟩
  sinks := (stamping_commitLink h now).sinks
  resultTables := (stamping_commitLink h now).resultTables
  links _ := mem_links_putLink
  key := putLink_val.1
  strategy := putLink_val.2.1
  dataId := putLink_val.2.2.1
  tableIds := putLink_val.2.2.2
  frame := (stamping_commitLink h now).frame

/-- A data-bus is linked as it resolves, or the store is as it was. -/
theorem rebuildBus_cases (dryRun : Bool) (now : Int) {b : Row Bus} {s : Store}
    (hb : b ∈ s.buses.rows) :
    (∃ e, s.resolve b.val = .error e ∧
      (s.rebuildBus dryRun now b).1.1 = .skipped e.reason ∧
      (s.rebuildBus dryRun now b).2 = s) ∨
    (∃ r, s.resolve b.val = .ok r ∧ dryRun = true ∧
      (s.rebuildBus dryRun now b).1.1 = .planned (r.plan b.val) ∧
      (s.rebuildBus dryRun now b).2 = s) ∨
    (∃ r l, s.resolve b.val = .ok r ∧ dryRun = false ∧
      (s.rebuildBus dryRun now b).1.1 = .linked l ∧
      s.Linking b r l (s.rebuildBus dryRun now b).2) := by
  unfold rebuildBus
  cases hr : s.resolve b.val with
  | error e => exact .inl ⟨e, rfl, rfl, rfl⟩
  | ok r =>
    cases dryRun with
    | true => exact .inr (.inl ⟨r, rfl, rfl, rfl, rfl⟩)
    | false =>
      exact .inr (.inr ⟨r, _, rfl, rfl, rfl, linking_commitLink (resolved_of_resolve hr) hb now⟩)

namespace Linking

variable {s u : Store} {b : Row Bus} {r : Resolution} {l : Row Link} (h : s.Linking b r l u)
  (hr : s.Resolved b.val r) (hb : b.val.owner = "")
include h hr hb

/-- linking a data-bus that no link owns takes nothing from another link -/
theorem keeps : s.Keeps u where
  buses := h.buses.keeps fun _ _ he => by rw [he, hb]
  sinks k := (h.sinks k).keeps fun _ _ hm => hr.sink_unowned _ hm
  resultTables := h.resultTables.keeps fun _ _ hm => hr.table_unowned _ hm
  sources := h.frame.2.2.2

end Linking

end Store

theorem Store.Keeps.refers_iff {s u : Store} (h : s.Keeps u) {b : Bus} {n : String} :
    u.Refers b n ↔ s.Refers b n := by
  refine exists_congr fun k => exists_congr fun m => ?_
  rw [(h.sinks k).named? b.scope m]
  cases hx : (s.sinks.get k).named? b.scope m with
  | none => simp
  | some x =>
    have hkeep := ((h.sinks k).later_mem (Table.named?_eq_some_iff.1 hx).1).2
    have hd : ((u.sinks.get k).later x).val.detail = x.val.detail := hkeep.detail
    simp [hd]

namespace Query

theorem Means.settle (dryRun : Bool) (now : Int) (b : Row Bus) (x : Except Skip Resolution) :
    Means (match x with
      | .error s => Query.pure
          (Outcome.skipped s.reason, Event.link (.skipped b.val.name s.reason s.detail))
      | .ok r =>
        if dryRun then
          Query.pure (.planned (r.plan b.val), .link (.planned b.val.name r.link r.strategy))
        else (Query.commitLink (r.commit b) now).bind fun u =>
          Query.pure (.linked u.row,
            .link (.linked b.val.name u.row.val.name r.strategy r.tableIds u.created)))
      fun s => s.settle dryRun now b x := by
  cases x with
  | error e => exact Means.pure _
  | ok r =>
    cases dryRun with
    | true => exact Means.pure _
    | false =>
      exact (Means.commitLink (r.commit b) now).bind fun u => Means.pure
        (Outcome.linked u.row, Event.link
          (.linked b.val.name u.row.val.name r.strategy r.tableIds u.created))

/-- looking at a data-bus does what `Store.rebuildBus` says -/
theorem Means.rebuildBus (dryRun : Bool) (now : Int) (b : Row Bus) :
    Means (rebuildBus dryRun now b) (Store.rebuildBus dryRun now b) :=
  (Observes.resolve b.val).means.bind fun x => Means.settle dryRun now b x

theorem atomic_rebuildBus (dryRun : Bool) (now : Int) (b : Row Bus) :
    Atomic (rebuildBus dryRun now b) := by
  refine (Observes.resolve b.val).bind_atomic fun x => ?_
  cases x with
  | error e => exact (Observes.pure _).atomic
  | ok r =>
    cases dryRun with
    | true => exact (Observes.pure _).atomic
    | false => exact (atomic_commitLink (r.commit b) now).bind_pure _

end Query
end Linkage
