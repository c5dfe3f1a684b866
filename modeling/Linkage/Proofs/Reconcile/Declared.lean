import Linkage.Proofs.Dict.Last
import Linkage.Proofs.Reconcile.Convergence

/-!
# The relations that should be stored are the declared ones

* `Registry.relationsOf`    the relations of one cluster of a project when the lookup is asked anew;
* `Derivation.Adds`         what a part of a derivation adds, whatever is known when it begins;
* `Derivation.keys_run`     a derivation keeps answers, and adds what it would add without;
* `Store.Declares`          a project declares a relation, in terms of the rows alone;
* `desired_iff_declares`    the keys that should be stored are those that some project declares.
-/

namespace Linkage

/-! ## a derivation without kept answers -/

namespace Registry

/-- The relations of a cluster of a project. -/
def relationsOf (w : Registry) (overrides : Overrides) (lookup : Lookup)
    (project cluster : String) : List RelationKey :=
  match w.projectIds.get? project, w.related overrides project cluster with
  | some id, some related =>
    ⟨related, related, id, cluster⟩ ::
      ((Derivation.businessOf (lookup.answer (spaceUid .project project))).map fun b =>
        ⟨related, Text.Decimal.text b, id, cluster⟩).toList
  | _, _ => []

/-- The relations of the clusters that a row names; there are none if it cannot be read. -/
def rowRelations (w : Registry) (overrides : Overrides) (lookup : Lookup) (r : Row Resource) :
    List RelationKey :=
  match r.val.clusterIds with
  | .ok clusters => clusters.flatMap (w.relationsOf overrides lookup r.val.spaceId)
  | .error _ => []

/-- The relations of all clusters, when the lookup is asked for each of them. -/
def uncached (w : Registry) (overrides : Overrides) (lookup : Lookup) : KeySet :=
  .ofList ((w.clusters.flatMap (w.rowRelations overrides lookup)).map (·, ()))

/-- Whether the clusters of a row can be read. -/
def isReadable (r : Row Resource) : Bool := r.val.clusterIds.isOk

/-- The registry without the rows of clusters that cannot be read. -/
def readable (w : Registry) : Registry := { w with clusters := w.clusters.filter isReadable }

end Registry

namespace Derivation

variable {w : Registry} {overrides : Overrides} {lookup : Lookup} {d e f : Derivation}

/-- What is known of a project is what the lookup answers. -/
def Remembers (d : Derivation) (lookup : Lookup) : Prop :=
  ∀ p b, d.known.get? p = some b → b = businessOf (lookup.answer (spaceUid .project p))

/-- A part of a derivation leads from `d` to `e` and adds the relations `ks`. -/
def Adds (lookup : Lookup) (d e : Derivation) (ks : List RelationKey) : Prop :=
  d.Remembers lookup → e.keys = d.keys.putAll (ks.map (·, ())) ∧ e.Remembers lookup

theorem Adds.nil (h : e.keys = d.keys) (hk : e.known = d.known) : Adds lookup d e [] := by
  intro hd
  refine ⟨h, ?_⟩
  unfold Remembers
  rw [hk]
  exact hd

theorem Adds.trans {ks js : List RelationKey} (h : Adds lookup d e ks) (h' : Adds lookup e f js) :
    Adds lookup d f (ks ++ js) := by
  intro hd
  obtain ⟨hkeys, he⟩ := h hd
  obtain ⟨hkeys', hf⟩ := h' he
  refine ⟨?_, hf⟩
  rw [hkeys', hkeys, List.map_append, Dict.putAll_append]

theorem adds_add (d : Derivation) (k : RelationKey) : Adds lookup d (d.add k) [k] :=
  fun hd => ⟨rfl, hd⟩

theorem adds_foldl {α : Type} {step : Derivation → α → Derivation} {ks : α → List RelationKey}
    (h : ∀ d a, Adds lookup d (step d a) (ks a)) (xs : List α) (d : Derivation) :
    Adds lookup d (xs.foldl step d) (xs.flatMap ks) := by
  induction xs generalizing d with
  | nil => exact .nil rfl rfl
  | cons x xs ih =>
    rw [List.foldl_cons, List.flatMap_cons]
    exact (h d x).trans (ih _)

theorem ask_frame (d : Derivation) (lookup : Lookup) (project : String) :
    (d.ask lookup project).keys = d.keys ∧ (d.ask lookup project).known
      = d.known.put project (businessOf (lookup.answer (spaceUid .project project))) := by
  unfold ask
  simp only
  split
  · exact ⟨rfl, rfl⟩
  · exact ⟨rfl, rfl⟩

theorem ask_of_ok {project : String} {a : SpaceDetail}
    (h : lookup.answer (spaceUid .project project) = .ok a) (d : Derivation) :
    (d.ask lookup project).events = d.events ∧ (d.ask lookup project).failures = d.failures := by
  unfold ask
  simp only [h, and_self]

theorem adds_ask (d : Derivation) (lookup : Lookup) (project : String) :
    Adds lookup d (d.ask lookup project) [] := by
  obtain ⟨hkeys, hknown⟩ := ask_frame d lookup project
  intro hd
  refine ⟨hkeys, fun p b hp => ?_⟩
  rw [hknown, Dict.get?_put] at hp
  by_cases hpp : p = project
  · rw [if_pos hpp, Option.some.injEq] at hp
    rw [← hp, hpp]
  · rw [if_neg hpp] at hp
    exact hd p b hp

/-- the business of a container is what the lookup answers, whether it was known or not -/
theorem container_eq (h : d.Remembers lookup) (project : String) :
    ∃ e, d.container lookup project
        = (e, businessOf (lookup.answer (spaceUid .project project))) ∧
      Adds lookup d e [] := by
  unfold container
  cases hk : d.known.get? project with
  | some b => exact ⟨d, by rw [h project b hk], .nil rfl rfl⟩
  | none => exact ⟨_, rfl, adds_ask d lookup project⟩

theorem adds_mention (w : Registry) (overrides : Overrides) (lookup : Lookup) (project : String)
    (d : Derivation) (cluster : String) :
    Adds lookup d (mention w overrides lookup project d cluster)
      (w.relationsOf overrides lookup project cluster) := by
  intro hd
  unfold mention Registry.relationsOf
  cases w.projectIds.get? project with
  | none => exact Adds.nil rfl rfl hd
  | some id =>
    cases w.related overrides project cluster with
    | none => exact Adds.nil rfl rfl hd
    | some related =>
      let first : RelationKey := ⟨related, related, id, cluster⟩
      have hadd : Adds lookup d (d.add first) [first] := adds_add d first
      obtain ⟨e, he, hde⟩ := container_eq (hadd hd).2 project
      simp only
      rw [he]
      have hfirst : Adds lookup d e [first] := hadd.trans hde
      cases businessOf (lookup.answer (spaceUid .project project)) with
      | none => exact hfirst hd
      | some b => exact hfirst.trans (adds_add e _) hd

theorem adds_row (w : Registry) (overrides : Overrides) (lookup : Lookup) (d : Derivation)
    (r : Row Resource) :
    Adds lookup d (row w overrides lookup d r) (w.rowRelations overrides lookup r) := by
  unfold row Registry.rowRelations
  cases r.val.clusterIds with
  | error e => exact .nil rfl rfl
  | ok clusters => exact adds_foldl (adds_mention w overrides lookup r.val.spaceId) clusters d

/-- keeping the answers of the lookup changes nothing about the relations -/
theorem keys_run (w : Registry) (overrides : Overrides) (lookup : Lookup) :
    (run w overrides lookup).keys = w.uncached overrides lookup := by
  have hstart : start.Remembers lookup := by
    intro p b h
    cases h
  exact (adds_foldl (adds_row w overrides lookup) w.clusters start hstart).1

theorem mem_run_iff {k : RelationKey} : k ∈ (run w overrides lookup).keys.keys ↔
    ∃ r ∈ w.clusters, k ∈ w.rowRelations overrides lookup r := by
  have hfst : ∀ ks : List RelationKey, (ks.map fun k => (k, ())).map Prod.fst = ks := by
    intro ks
    rw [List.map_map]
    exact List.map_id ks
  rw [keys_run]
  unfold Registry.uncached Dict.ofList
  rw [Dict.mem_keys_putAll, hfst, List.mem_flatMap]
  exact or_iff_right List.not_mem_nil

/-- rows that cannot be read add nothing, and take nothing from the others -/
theorem keys_run_readable (w : Registry) (overrides : Overrides) (lookup : Lookup) :
    (run w.readable overrides lookup).keys = (run w overrides lookup).keys := by
  rw [keys_run, keys_run]
  unfold Registry.uncached
  have hrows : ∀ rs : List (Row Resource),
      (rs.filter Registry.isReadable).flatMap (w.rowRelations overrides lookup)
        = rs.flatMap (w.rowRelations overrides lookup) := by
    intro rs
    induction rs with
    | nil => rfl
    | cons r rs ih =>
      rw [List.flatMap_cons, ← ih]
      cases hr : r.val.clusterIds with
      | ok clusters =>
        have hread : Registry.isReadable r = true := by
          unfold Registry.isReadable
          rw [hr]
          rfl
        rw [List.filter_cons_of_pos hread, List.flatMap_cons]
      | error e =>
        have hread : ¬Registry.isReadable r = true := by
          unfold Registry.isReadable
          rw [hr]
          exact Bool.false_ne_true
        have hnone : w.rowRelations overrides lookup r = [] := by
          unfold Registry.rowRelations
          rw [hr]
        rw [List.filter_cons_of_neg hread, hnone, List.nil_append]
  rw [← hrows w.clusters]
  rfl

theorem businessOf_eq_some_iff {x : Except Error SpaceDetail} {b : Int} :
    businessOf x = some b ↔ ∃ a, x = .ok a ∧ a.business ≠ 0 ∧ a.business = b := by
  unfold businessOf
  cases x with
  | error e => exact ⟨nofun, nofun⟩
  | ok a =>
    simp only [Except.ok.injEq, exists_eq_left']
    by_cases h : a.business = 0
    · rw [if_pos h]
      exact ⟨nofun, fun h' => absurd h h'.1⟩
    · rw [if_neg h, Option.some.injEq]
      exact ⟨fun h' => ⟨h, h'⟩, fun h' => h'.2⟩

theorem mem_relationsOf_iff {project cluster : String} {k : RelationKey} :
    k ∈ w.relationsOf overrides lookup project cluster ↔
      k.cluster = cluster ∧ w.projectIds.get? project = some k.project ∧
        w.related overrides project cluster = some k.related ∧
        (k.business = k.related ∨ ∃ a, lookup.answer (spaceUid .project project) = .ok a ∧
          a.business ≠ 0 ∧ k.business = Text.Decimal.text a.business) := by
  unfold Registry.relationsOf
  cases w.projectIds.get? project with
  | none => exact ⟨nofun, fun h => nomatch h.2.1⟩
  | some id =>
    cases w.related overrides project cluster with
    | none => exact ⟨nofun, fun h => nomatch h.2.2.1⟩
    | some related =>
      rw [List.mem_cons, Option.mem_toList, Option.map_eq_some_iff]
      constructor
      · rintro (rfl | ⟨b, hb, rfl⟩)
        · exact ⟨rfl, rfl, rfl, .inl rfl⟩
        · obtain ⟨a, ha, hne, rfl⟩ := businessOf_eq_some_iff.1 hb
          exact ⟨rfl, rfl, rfl, .inr ⟨a, ha, hne, rfl⟩⟩
      · obtain ⟨r, b, p, c⟩ := k
        intro ⟨hc, hp, hr, hb⟩
        cases hc
        cases hp
        cases hr
        simp only at hb
        rcases hb with rfl | ⟨a, ha, hne, rfl⟩
        · exact .inl rfl
        · exact .inr ⟨a.business, businessOf_eq_some_iff.2 ⟨a, ha, hne, rfl⟩, rfl⟩

end Derivation

/-! ## what the rows declare -/

namespace Resource

/-- The row binds a project to something of a kind. -/
structure Binds (r : Resource) (project : String) (kind : SpaceKind) : Prop where
  space : r.spaceType = SpaceKind.project.text
  project : r.spaceId = project
  kind : r.type = kind.text

/-- The dimensions are a JSON array, and an object in it has a cluster under `cluster_id`. -/
def Names (r : Resource) (cluster : String) : Prop :=
  ∃ vs es, Json.parse? r.dimensions = some (.arr vs) ∧ Json.obj es ∈ vs ∧
    (Json.obj es).member? "cluster_id" = some (.str cluster) ∧ cluster ≠ ""

theorem clusterId?_eq_some_iff {v : Json} {cluster : String} : clusterId? v = some cluster ↔
    ∃ es, v = .obj es ∧ v.member? "cluster_id" = some (.str cluster) ∧ cluster ≠ "" := by
  unfold clusterId?
  rw [Option.filter_eq_some_iff, Option.bind_eq_some_iff, decide_eq_true_iff]
  constructor
  · intro ⟨⟨x, hx, htext⟩, hne⟩
    cases x with
    | str s =>
      cases htext
      cases v with
      | obj es => exact ⟨es, rfl, hx, hne⟩
      | _ => cases hx
    | _ => cases htext
  · intro ⟨_, _, hm, hne⟩
    exact ⟨⟨_, hm, rfl⟩, hne⟩

theorem names_iff {r : Resource} {cluster : String} :
    r.Names cluster ↔ ∃ clusters, r.clusterIds = .ok clusters ∧ cluster ∈ clusters := by
  unfold Names clusterIds
  constructor
  · intro ⟨vs, es, hparse, hmem, hcluster⟩
    refine ⟨vs.filterMap clusterId?, ?_, ?_⟩
    · rw [hparse]
      rfl
    · exact List.mem_filterMap.2 ⟨_, hmem, clusterId?_eq_some_iff.2 ⟨es, rfl, hcluster⟩⟩
  · intro ⟨clusters, hok, hmem⟩
    cases hparse : Json.parse? r.dimensions with
    | none =>
      rw [hparse] at hok
      cases hok
    | some v =>
      rw [hparse] at hok
      cases v with
      | arr vs =>
        cases hok
        obtain ⟨v, hv, hid⟩ := List.mem_filterMap.1 hmem
        obtain ⟨es, rfl, hcluster⟩ := clusterId?_eq_some_iff.1 hid
        exact ⟨vs, es, rfl, hv, hcluster⟩
      | _ => cases hok

end Resource

/-- A project is bound to a business: of its rows that give a business, the one with the highest id
gives this one. -/
def Store.BoundTo (s : Store) (project business : String) : Prop :=
  ∃ x ∈ s.resources.rows, x.val.Binds project .business ∧ x.val.target = some business ∧
    business ≠ "" ∧ ∀ y ∈ s.resources.rows, y.val.Binds project .business →
      ∀ b, y.val.target = some b → b ≠ "" → y.id ≤ x.id

/-- A project declares a relation. -/
structure Store.Declares (s : Store) (overrides : Overrides) (lookup : Lookup) (project : String)
    (k : RelationKey) : Prop where
  /-- a container row of the project names the cluster -/
  named : ∃ x ∈ s.resources.rows, x.val.Binds project .container ∧ x.val.Names k.cluster
  /-- the project has a space, whose code stands in the relation -/
  space : ∃ x ∈ s.spaces.rows, x.val.type = SpaceKind.project.text ∧ x.val.id = project ∧
    x.val.code = k.project
  /-- an override of the cluster goes before the business of the project -/
  related : overrides.get? k.cluster = some k.related ∨
    overrides.get? k.cluster = none ∧ s.BoundTo project k.related
  /-- the business is the related one, or the one of the project's container space -/
  business : k.business = k.related ∨ ∃ a, lookup.answer (spaceUid .project project) = .ok a ∧
    a.business ≠ 0 ∧ k.business = Text.Decimal.text a.business

namespace Bindings

/-- The project and business that a row binds. -/
def pair? (r : Row Resource) : Option (String × String) :=
  (r.val.target.filter fun t => t ≠ "").map (r.val.spaceId, ·)

theorem pair?_eq_some_iff {r : Row Resource} {project business : String} :
    pair? r = some (project, business) ↔
      r.val.spaceId = project ∧ r.val.target = some business ∧ business ≠ "" := by
  unfold pair?
  rw [Option.map_eq_some_iff]
  constructor
  · intro ⟨t, ht, he⟩
    rw [Option.filter_eq_some_iff, decide_eq_true_iff] at ht
    cases he
    exact ⟨rfl, ht⟩
  · intro ⟨hp, ht⟩
    refine ⟨business, ?_, by rw [hp]⟩
    rw [Option.filter_eq_some_iff, decide_eq_true_iff]
    exact ht

theorem businesses_add (b : Bindings) (r : Row Resource) :
    (b.add r).businesses = b.businesses.putAll (pair? r).toList := by
  unfold add pair?
  cases r.val.target.filter fun t => t ≠ "" <;> rfl

theorem businesses_ofRows (rs : List (Row Resource)) :
    (ofRows rs).businesses = .ofList (rs.filterMap pair?) := by
  have hfold : ∀ b : Bindings,
      (rs.foldl add b).businesses = b.businesses.putAll (rs.filterMap pair?) := by
    induction rs with
    | nil => exact fun _ => rfl
    | cons r rs ih =>
      intro b
      rw [List.foldl_cons, ih, businesses_add, ← Dict.putAll_append]
      congr 1
      cases h : pair? r with
      | none => rw [List.filterMap_cons_none h]; rfl
      | some e => rw [List.filterMap_cons_some h]; rfl
  exact hfold _

end Bindings

namespace Table

theorem mem_select {α κ : Type} {key : α → Option κ} {t : Table key} {p : Row α → Bool}
    {r : Row α} : r ∈ t.select p ↔ r ∈ t.rows ∧ p r = true := List.mem_filter

theorem rising_select {α κ : Type} {key : α → Option κ} (t : Table key) (p : Row α → Bool) :
    (t.select p).Pairwise fun a b => a.id < b.id := t.rising.filter _

end Table

namespace Store

variable {s : Store} {overrides : Overrides} {lookup : Lookup} {project cluster : String}

theorem mem_clusters_iff {r : Row Resource} : r ∈ s.registry.1.clusters ↔
    r ∈ s.resources.rows ∧ r.val.Binds r.val.spaceId .container := by
  show r ∈ s.resources.select _ ↔ _
  rw [Table.mem_select, decide_eq_true_iff]
  exact and_congr_right fun _ => ⟨fun h => ⟨h.1, rfl, h.2⟩, fun h => ⟨h.space, h.kind⟩⟩

theorem projectIds_iff {id : String} : s.registry.1.projectIds.get? project = some id ↔
    ∃ x ∈ s.spaces.rows, x.val.type = SpaceKind.project.text ∧ x.val.id = project ∧
      x.val.code = id := by
  let rows := s.spaces.select fun r => r.val.type = SpaceKind.project.text
  have hmem : ∀ x, x ∈ rows ↔ x ∈ s.spaces.rows ∧ x.val.type = SpaceKind.project.text := by
    intro x
    rw [Table.mem_select, decide_eq_true_iff]
  have hpairs : rows.map (fun r => (r.val.id, r.val.code))
      = rows.filterMap fun r => some (r.val.id, r.val.code) := by
    rw [← List.filterMap_eq_map]
    rfl
  show (Dict.ofList (rows.map fun r => (r.val.id, r.val.code))).get? project = some id ↔ _
  rw [hpairs, Dict.get?_ofList_filterMap (Table.rising_select _ _)]
  constructor
  · intro ⟨x, hx, he, _⟩
    cases he
    exact ⟨x, ((hmem x).1 hx).1, ((hmem x).1 hx).2, rfl, rfl⟩
  · intro ⟨x, hx, htype, hid, hcode⟩
    have hpair : some (x.val.id, x.val.code) = some (project, id) := by rw [hid, hcode]
    refine ⟨x, (hmem x).2 ⟨hx, htype⟩, hpair, fun y hy b hb => ?_⟩
    -- no other space has the type and the id
    obtain ⟨hy, htype'⟩ := (hmem y).1 hy
    have hid' : y.val.id = project := congrArg Prod.fst (Option.some.inj hb)
    have hkey : Space.key y.val = some (SpaceKind.project.text, project) := by
      unfold Space.key
      rw [htype', hid']
    have hkey' : Space.key x.val = some (SpaceKind.project.text, project) := by
      unfold Space.key
      rw [htype, hid]
    have hyx : y = x := Table.eq_of_key hy hx hkey hkey'
    exact hyx ▸ Int.le_refl _

theorem businesses_iff {business : String} :
    s.registry.1.businesses.get? project = some business ↔ s.BoundTo project business := by
  let rows := s.resources.select fun r =>
    r.val.spaceType = SpaceKind.project.text ∧ r.val.type = SpaceKind.business.text
  have hmem : ∀ x b, x ∈ rows ∧ Bindings.pair? x = some (project, b) ↔
      x ∈ s.resources.rows ∧ x.val.Binds project .business ∧ x.val.target = some b ∧ b ≠ "" := by
    intro x b
    rw [Table.mem_select, decide_eq_true_iff, Bindings.pair?_eq_some_iff]
    constructor
    · intro ⟨⟨hx, hspace, hkind⟩, hp, ht⟩
      exact ⟨hx, ⟨hspace, hp, hkind⟩, ht⟩
    · intro ⟨hx, hb, ht⟩
      exact ⟨⟨hx, hb.space, hb.kind⟩, hb.project, ht⟩
  show (Bindings.ofRows rows).businesses.get? project = some business ↔ _
  rw [Bindings.businesses_ofRows, Dict.get?_ofList_filterMap (Table.rising_select _ _)]
  constructor
  · intro ⟨x, hx, he, hmax⟩
    obtain ⟨hx, hb, ht, hne⟩ := (hmem x business).1 ⟨hx, he⟩
    refine ⟨x, hx, hb, ht, hne, fun y hy hyb b hyt hyne => ?_⟩
    obtain ⟨hy, hpair⟩ := (hmem y b).2 ⟨hy, hyb, hyt, hyne⟩
    exact hmax y hy b hpair
  · intro ⟨x, hx, hb, ht, hne, hmax⟩
    obtain ⟨hx, he⟩ := (hmem x business).2 ⟨hx, hb, ht, hne⟩
    refine ⟨x, hx, he, fun y hy b hpair => ?_⟩
    obtain ⟨hy, hyb, hyt, hyne⟩ := (hmem y b).1 ⟨hy, hpair⟩
    exact hmax y hy hyb b hyt hyne

theorem related_iff {related : String} :
    s.registry.1.related overrides project cluster = some related ↔
      overrides.get? cluster = some related ∨
        overrides.get? cluster = none ∧ s.BoundTo project related := by
  unfold Registry.related
  rw [← businesses_iff]
  cases overrides.get? cluster with
  | none =>
    rw [Option.none_or]
    exact ⟨fun h => .inr ⟨rfl, h⟩, fun h => (h.resolve_left nofun).2⟩
  | some r => exact ⟨.inl, fun h => h.resolve_right fun h => nomatch h.1⟩

theorem mem_rowRelations_iff {r : Row Resource} {k : RelationKey} :
    k ∈ s.registry.1.rowRelations overrides lookup r ↔ r.val.Names k.cluster ∧
      k ∈ s.registry.1.relationsOf overrides lookup r.val.spaceId k.cluster := by
  unfold Registry.rowRelations
  rw [Resource.names_iff]
  cases r.val.clusterIds with
  | error e =>
    constructor
    · intro h
      cases h
    · intro ⟨⟨_, h, _⟩, _⟩
      cases h
  | ok clusters =>
    rw [List.mem_flatMap]
    constructor
    · intro ⟨c, hc, hk⟩
      obtain ⟨rfl, _⟩ := Derivation.mem_relationsOf_iff.1 hk
      exact ⟨⟨clusters, rfl, hc⟩, hk⟩
    · intro ⟨⟨_, h, hc⟩, hk⟩
      cases h
      exact ⟨_, hc, hk⟩

theorem mem_desired_iff {k : RelationKey} :
    k ∈ (s.desired overrides lookup).keys ↔ ∃ project, s.Declares overrides lookup project k := by
  show k ∈ (Derivation.run s.registry.1 overrides lookup).keys.keys ↔ _
  rw [Derivation.mem_run_iff]
  constructor
  · intro ⟨r, hr, hk⟩
    obtain ⟨hr, hbinds⟩ := mem_clusters_iff.1 hr
    obtain ⟨hnames, hk⟩ := mem_rowRelations_iff.1 hk
    obtain ⟨_, hid, hrelated, hbusiness⟩ := Derivation.mem_relationsOf_iff.1 hk
    exact ⟨r.val.spaceId, ⟨r, hr, hbinds, hnames⟩, projectIds_iff.1 hid, related_iff.1 hrelated,
      hbusiness⟩
  · intro ⟨project, ⟨r, hr, hbinds, hnames⟩, hspace, hrelated, hbusiness⟩
    obtain rfl : r.val.spaceId = project := hbinds.project
    refine ⟨r, mem_clusters_iff.2 ⟨hr, hbinds⟩, mem_rowRelations_iff.2 ⟨hnames, ?_⟩⟩
    exact Derivation.mem_relationsOf_iff.2
      ⟨rfl, projectIds_iff.2 hspace, related_iff.2 hrelated, hbusiness⟩

end Store

/-- The keys that a pass derives from the registry it has read are those that the projects declare,
whatever rows there are; neither the kept answers of the lookup nor rows that cannot be read make a
difference. -/
theorem desired_iff_declares (s : Store) (overrides : Overrides) (lookup : Lookup) :
    (Query.registry (.of s)).1 = .ok s.registry ∧
    (∀ k, k ∈ (s.desired overrides lookup).keys ↔
      ∃ project, s.Declares overrides lookup project k) ∧
    s.desired overrides lookup = s.registry.1.uncached overrides lookup ∧
    s.desired overrides lookup = (Derivation.run s.registry.1.readable overrides lookup).keys := by
  refine ⟨?_, fun k => Store.mem_desired_iff, Derivation.keys_run _ _ _,
    (Derivation.keys_run_readable _ _ _).symm⟩
  obtain ⟨w, hw⟩ := Query.Observes.registry.total (.of s) (Db.reliable_of s)
  have hread : w = s.registry := Query.Observes.registry.sound (.of s) w hw
  rw [hw, hread]

end Linkage
