import Linkage.Proofs.Reconcile.Businesses
import Linkage.Proofs.Reconcile.Events

/-!
# The lookups that a derivation makes

The container space of a project is looked up when its first cluster adds a relation, and not again.

* `Registry.contributors`   the project of each cluster that adds a relation, in their order;
* `Derivation.Asked`        what a derivation has asked and told about lookups when it has worked off
                            clusters of these projects;
* `Asked.ask`, `Asked.mention`, `Asked.row`   each part of a derivation keeps this;
* `asked_run`               so it holds of what is derived from all rows;
* `failures_told`           the failed lookups that a pass tells of;
* `Store.Relates`           a relation that a project declares whatever the lookup answers;
* `Store.contributions`     the clusters of such relations, each with its project, in their order;
* `mem_contributors_iff`    the projects with such a relation are those that are asked about.
-/

namespace Linkage

namespace Registry

/-- Whether a cluster of a project adds relations. -/
def relates (w : Registry) (overrides : Overrides) (project cluster : String) : Bool :=
  (w.projectIds.get? project).isSome && (w.related overrides project cluster).isSome

/-- The project if the cluster adds relations. -/
def contributor (w : Registry) (overrides : Overrides) (project cluster : String) : List String :=
  if w.relates overrides project cluster then [project] else []

/-- The project of a row, once for each cluster of the row that adds relations. -/
def rowContributors (w : Registry) (overrides : Overrides) (r : Row Resource) : List String :=
  match r.val.clusterIds with
  | .ok clusters => clusters.flatMap (w.contributor overrides r.val.spaceId)
  | .error _ => []

/-- The project of each cluster that adds relations, in the order of the rows and of their
dimensions. -/
def contributors (w : Registry) (overrides : Overrides) : List String :=
  w.clusters.flatMap (w.rowContributors overrides)

/-- The clusters that a row names, each with the project of the row. -/
def rowMentions (r : Row Resource) : List (String × String) :=
  match r.val.clusterIds with
  | .ok clusters => clusters.map (r.val.spaceId, ·)
  | .error _ => []

theorem rowContributors_eq (w : Registry) (overrides : Overrides) (r : Row Resource) :
    w.rowContributors overrides r
      = ((rowMentions r).filter fun m => w.relates overrides m.1 m.2).map Prod.fst := by
  unfold rowContributors rowMentions
  cases r.val.clusterIds with
  | error e => rfl
  | ok clusters =>
    simp only
    induction clusters with
    | nil => rfl
    | cons c cs ih =>
      rw [List.flatMap_cons, List.map_cons, List.filter_cons, ih]
      unfold contributor
      split <;> rfl

end Registry

namespace Event

def isLookupFailure (e : Event) : Bool := e.failedProject?.isSome

end Event

namespace Derivation

/-- What is told about the lookup of a project if it fails. -/
def failure? (lookup : Lookup) (project : String) : Option Event :=
  match lookup.answer (spaceUid .project project) with
  | .error e => some (failed project e)
  | .ok _ => none

/-- What a derivation has asked and told about lookups, when it has worked off clusters of the projects
`ps` that add relations. -/
structure Asked (lookup : Lookup) (ps : List String) (d : Derivation) : Prop where
  /-- each project was asked about once, when it came first -/
  asked : d.asked = ps.eraseDups.map (spaceUid .project)
  known : ∀ p, (d.known.get? p).isSome ↔ p ∈ ps
  told : d.events.filter Event.isLookupFailure = ps.eraseDups.filterMap (failure? lookup)
  counted : d.failures = (ps.eraseDups.filterMap (failure? lookup)).length

variable {lookup : Lookup} {ps : List String} {d d' : Derivation}

theorem asked_start (lookup : Lookup) : start.Asked lookup [] where
  asked := rfl
  known _ := ⟨nofun, nofun⟩
  told := rfl
  counted := rfl

theorem Asked.quiet (h : d.Asked lookup ps) (hasked : d'.asked = d.asked)
    (hknown : d'.known = d.known)
    (htold : d'.events.filter Event.isLookupFailure = d.events.filter Event.isLookupFailure)
    (hfailures : d'.failures = d.failures) : d'.Asked lookup ps where
  asked := hasked.trans h.asked
  known := by rw [hknown]; exact h.known
  told := htold.trans h.told
  counted := hfailures.trans h.counted

/-! ## the lookup of a project -/

theorem asked_ask (d : Derivation) (lookup : Lookup) (project : String) :
    (d.ask lookup project).asked = d.asked ++ [spaceUid .project project] := by
  unfold ask
  simp only
  split <;> rfl

/-- a lookup that fails is told and counted, any other is not -/
theorem told_ask (d : Derivation) (lookup : Lookup) (project : String) :
    (d.ask lookup project).events = d.events ++ (failure? lookup project).toList ∧
      (d.ask lookup project).failures
        = d.failures + (failure? lookup project).toList.length := by
  unfold failure?
  cases hanswer : lookup.answer (spaceUid .project project) with
  | ok a =>
    obtain ⟨hevents, hfailures⟩ := ask_of_ok hanswer d
    exact ⟨hevents.trans (List.append_nil _).symm, hfailures⟩
  | error e => exact ask_of_error hanswer d

theorem filter_failure? (lookup : Lookup) (project : String) :
    (failure? lookup project).toList.filter Event.isLookupFailure
      = (failure? lookup project).toList := by
  unfold failure?
  cases lookup.answer (spaceUid .project project) <;> rfl

theorem Asked.ask (h : d.Asked lookup ps) {project : String} (hnew : project ∉ ps) :
    (d.ask lookup project).Asked lookup (ps ++ [project]) := by
  obtain ⟨hevents, hfailures⟩ := told_ask d lookup project
  have honce : (ps ++ [project]).eraseDups = ps.eraseDups ++ [project] := by
    rw [eraseDups_concat, if_neg hnew]
  have hone : [project].filterMap (failure? lookup) = (failure? lookup project).toList := by
    cases hf : failure? lookup project with
    | none => rw [List.filterMap_cons_none hf]; rfl
    | some e => rw [List.filterMap_cons_some hf]; rfl
  refine ⟨?_, fun p => ?_, ?_, ?_⟩
  · rw [asked_ask, h.asked, honce, List.map_append]
    rfl
  · rw [(ask_frame d lookup project).2, Dict.get?_put, List.mem_append, List.mem_singleton]
    split
    · rename_i hp
      exact ⟨fun _ => .inr hp, fun _ => rfl⟩
    · rename_i hp
      rw [h.known, or_iff_left hp]
  · rw [hevents, List.filter_append, h.told, honce, List.filterMap_append, hone, filter_failure?]
  · rw [hfailures, h.counted, honce, List.filterMap_append, hone, List.length_append]

theorem Asked.container (h : d.Asked lookup ps) (project : String) :
    (d.container lookup project).1.Asked lookup (ps ++ [project]) := by
  have hknown := h.known project
  unfold Derivation.container
  cases hk : d.known.get? project with
  | some b =>
    rw [hk] at hknown
    have hmem : project ∈ ps := hknown.1 rfl
    have honce : (ps ++ [project]).eraseDups = ps.eraseDups := by
      rw [eraseDups_concat, if_pos hmem]
    refine ⟨?_, fun p => ?_, ?_, ?_⟩
    · rw [honce]; exact h.asked
    · rw [h.known, List.mem_append, List.mem_singleton]
      exact ⟨.inl, fun hp => hp.elim id fun he => he ▸ hmem⟩
    · rw [honce]; exact h.told
    · rw [honce]; exact h.counted
  | none =>
    rw [hk] at hknown
    exact h.ask fun hmem => nomatch hknown.2 hmem

/-! ## clusters and rows -/

theorem Asked.add (h : d.Asked lookup ps) (k : RelationKey) : (d.add k).Asked lookup ps :=
  h.quiet rfl rfl rfl rfl

theorem Asked.mention (w : Registry) (overrides : Overrides) (project : String) (h : d.Asked lookup ps)
    (cluster : String) : (d.mention w overrides lookup project cluster).Asked lookup
      (ps ++ w.contributor overrides project cluster) := by
  unfold Derivation.mention Registry.contributor Registry.relates
  have hquiet : ∀ notes, ({ d with notes } : Derivation).Asked lookup (ps ++ []) := by
    intro notes
    rw [List.append_nil]
    exact h.quiet rfl rfl rfl rfl
  cases w.projectIds.get? project with
  | none => exact hquiet _
  | some id =>
    cases w.related overrides project cluster with
    | none => exact hquiet _
    | some related =>
      have hcontainer := (h.add ⟨related, related, id, cluster⟩).container project
      show Asked lookup (ps ++ [project]) _
      cases hc : (d.add ⟨related, related, id, cluster⟩).container lookup project with
      | mk e b =>
        simp only [hc]
        rw [hc] at hcontainer
        cases b with
        | none => exact hcontainer
        | some b => exact hcontainer.add _

theorem Asked.row (w : Registry) (overrides : Overrides) (h : d.Asked lookup ps)
    (r : Row Resource) :
    (d.row w overrides lookup r).Asked lookup (ps ++ w.rowContributors overrides r) := by
  unfold Derivation.row Registry.rowContributors
  cases r.val.clusterIds with
  | ok clusters =>
    exact foldl_keeps (Asked lookup) (fun c h => h.mention w overrides r.val.spaceId c) clusters h
  | error e =>
    rw [List.append_nil]
    refine h.quiet rfl rfl ?_ rfl
    rw [List.filter_append]
    exact List.append_nil _

/-- the lookups are those of the projects that contribute, each once and in the order of their first
contribution -/
theorem asked_run (w : Registry) (overrides : Overrides) (lookup : Lookup) :
    (run w overrides lookup).Asked lookup (w.contributors overrides) :=
  foldl_keeps (Asked lookup) (fun r h => h.row w overrides r) w.clusters (asked_start lookup)

end Derivation

/-- a pass tells of the lookups that failed while the relations were derived, and of no others; if it
fails it may tell of none -/
theorem failures_told (overrides : Overrides) (lookup : Lookup) (clock : Clock) (db : Db) :
    let run := (reconcile overrides lookup clock db).1
    let failures := (db.store.registry.1.contributors overrides).eraseDups.filterMap
      (Derivation.failure? lookup)
    (∀ report, run.result = .ok report → run.events.filter Event.isLookupFailure = failures) ∧
      (run.events.filter Event.isLookupFailure = [] ∨
        run.events.filter Event.isLookupFailure = failures) := by
  intro run failures
  obtain ⟨hdone, hfailed⟩ := events_reconcile overrides lookup clock db
  have htold : (db.store.derived overrides lookup).events.filter Event.isLookupFailure = failures :=
    (Derivation.asked_run db.store.registry.1 overrides lookup).told
  have hok : ∀ report, run.result = .ok report →
      run.events.filter Event.isLookupFailure = failures := by
    intro report h
    rw [hdone report h, List.filter_append, ← htold]
    exact List.append_nil _
  refine ⟨hok, ?_⟩
  cases hresult : run.result with
  | ok report => exact .inr (hok report hresult)
  | error e =>
    rcases hfailed e hresult with hnone | hbegun
    · exact .inl (by rw [hnone]; rfl)
    · exact .inr (by rw [hbegun, ← htold]; rfl)

/-! ## in terms of the rows -/

/-- A project relates one of its clusters to a business, whatever the lookup answers. -/
structure Store.Relates (s : Store) (overrides : Overrides) (project : String) (k : RelationKey) :
    Prop where
  /-- a container row of the project names the cluster -/
  named : ∃ x ∈ s.resources.rows, x.val.Binds project .container ∧ x.val.Names k.cluster
  /-- the project has a space, whose code stands in the relation -/
  space : ∃ x ∈ s.spaces.rows, x.val.type = SpaceKind.project.text ∧ x.val.id = project ∧
    x.val.code = k.project
  /-- an override of the cluster goes before the business of the project -/
  related : overrides.get? k.cluster = some k.related ∨
    overrides.get? k.cluster = none ∧ s.BoundTo project k.related
  business : k.business = k.related

namespace Store

variable {s : Store} {overrides : Overrides} {lookup : Lookup} {project : String} {k : RelationKey}

/-- a declared relation is one that the project has anyway, or the same with the business that the
lookup answers -/
theorem declares_iff : s.Declares overrides lookup project k ↔
    ∃ first, s.Relates overrides project first ∧ (k = first ∨
      ∃ a, lookup.answer (spaceUid .project project) = .ok a ∧ a.business ≠ 0 ∧
        k = { first with business := Text.Decimal.text a.business }) := by
  constructor
  · intro h
    refine ⟨{ k with business := k.related }, ⟨h.named, h.space, h.related, rfl⟩, ?_⟩
    rcases h.business with hb | ⟨a, ha, hne, hb⟩
    · exact .inl (by cases k; cases hb; rfl)
    · exact .inr ⟨a, ha, hne, by rw [← hb]⟩
  · rintro ⟨first, h, rfl | ⟨a, ha, hne, rfl⟩⟩
    · exact ⟨h.named, h.space, h.related, .inl h.business⟩
    · exact ⟨h.named, h.space, h.related, .inr ⟨a, ha, hne, rfl⟩⟩

/-- The clusters that container rows name, each with its project: the rows in the order of their ids,
the clusters of a row in the order of its dimensions.  A row that cannot be read names none. -/
def mentions (s : Store) : List (String × String) :=
  (s.resources.select fun r => r.val.spaceType = SpaceKind.project.text ∧
    r.val.type = SpaceKind.container.text).flatMap Registry.rowMentions

/-- Those of these clusters that add relations. -/
def contributions (s : Store) (overrides : Overrides) : List (String × String) :=
  s.mentions.filter fun m => s.registry.1.relates overrides m.1 m.2

theorem contributors_eq (s : Store) (overrides : Overrides) :
    s.registry.1.contributors overrides = (s.contributions overrides).map Prod.fst := by
  unfold contributions mentions
  rw [List.filter_flatMap, List.map_flatMap]
  exact List.flatMap_congr fun r _ => s.registry.1.rowContributors_eq overrides r

theorem mem_mentions_iff {cluster : String} : (project, cluster) ∈ s.mentions ↔
    ∃ x ∈ s.resources.rows, x.val.Binds project .container ∧ x.val.Names cluster := by
  have hrow : ∀ r, (project, cluster) ∈ Registry.rowMentions r ↔
      r.val.spaceId = project ∧ r.val.Names cluster := by
    intro r
    rw [Resource.names_iff]
    unfold Registry.rowMentions
    cases r.val.clusterIds with
    | error e => exact ⟨nofun, fun h => nomatch h.2⟩
    | ok clusters => simp [and_comm]
  show _ ∈ s.registry.1.clusters.flatMap Registry.rowMentions ↔ _
  rw [List.mem_flatMap]
  constructor
  · intro ⟨r, hr, hm⟩
    obtain ⟨rfl, hnames⟩ := (hrow r).1 hm
    obtain ⟨hr, hbinds⟩ := mem_clusters_iff.1 hr
    exact ⟨r, hr, hbinds, hnames⟩
  · intro ⟨r, hr, hbinds, hnames⟩
    obtain rfl : r.val.spaceId = project := hbinds.project
    exact ⟨r, mem_clusters_iff.2 ⟨hr, hbinds⟩, (hrow r).2 ⟨rfl, hnames⟩⟩

/-- a cluster adds relations when its project has one with it, whatever the lookup answers -/
theorem mem_contributions_iff {cluster : String} : (project, cluster) ∈ s.contributions overrides ↔
    ∃ k, s.Relates overrides project k ∧ k.cluster = cluster := by
  unfold contributions Registry.relates
  rw [List.mem_filter, mem_mentions_iff, Bool.and_eq_true, Option.isSome_iff_exists,
    Option.isSome_iff_exists]
  constructor
  · intro ⟨hnamed, ⟨id, hid⟩, related, hrelated⟩
    exact ⟨⟨related, related, id, cluster⟩, ⟨hnamed, projectIds_iff.1 hid, related_iff.1 hrelated, rfl⟩,
      rfl⟩
  · rintro ⟨k, ⟨hnamed, hspace, hrelated, -⟩, rfl⟩
    exact ⟨hnamed, ⟨_, projectIds_iff.2 hspace⟩, _, related_iff.2 hrelated⟩

theorem mem_contributors_iff :
    project ∈ s.registry.1.contributors overrides ↔ ∃ k, s.Relates overrides project k := by
  rw [contributors_eq, List.mem_map]
  constructor
  · rintro ⟨⟨p, c⟩, hm, rfl⟩
    obtain ⟨k, hk, -⟩ := mem_contributions_iff.1 hm
    exact ⟨k, hk⟩
  · intro ⟨k, hk⟩
    exact ⟨(project, k.cluster), mem_contributions_iff.2 ⟨k, hk, rfl⟩, rfl⟩

end Store
end Linkage
