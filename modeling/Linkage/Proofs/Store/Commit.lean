import Linkage.Proofs.Query.Bulk

/-!
# What writing a link does to the store

* `Store.putLink`      a link written under its scope and name; `Store.mem_links_putLink` says which
                       links there are after it;
* `Store.commitLink`   a link written, and given to the rows it is to own;
* `Means.commitLink`   a commit that succeeds does this, and one that fails does nothing.
-/

namespace Linkage

/-- The tables of sinks with an owner for the ids listed under each kind. -/
def SinkTables.stamp (owner : String) (ids : List (SinkKind × List Int)) (t : SinkTables) :
    SinkTables :=
  ids.foldl (fun t e => t.set e.1 (Query.stamped (t.get e.1) (hasId e.2) owner)) t

theorem SinkTables.get_stamp (owner : String) (ids : List (SinkKind × List Int)) (t : SinkTables)
    (k : SinkKind) : (t.stamp owner ids).get k =
      Query.stamped (t.get k) (fun r => ids.any fun e => e.1 = k && hasId e.2 r) owner := by
  induction ids generalizing t with
  | nil => exact (Query.stamped_of_none fun r _ => rfl).symm
  | cons e ids ih =>
    have h : t.stamp owner (e :: ids)
        = (t.set e.1 (Query.stamped (t.get e.1) (hasId e.2) owner)).stamp owner ids := rfl
    rw [h, ih, SinkTables.get_set]
    split
    · rename_i hk
      subst hk
      refine (Query.stamped_stamped fun r => ?_).trans (Query.stamped_congr fun r _ => ?_)
      · simp only [Table.hasId_change]
      · rw [List.any_cons, decide_eq_true rfl, Bool.true_and]
    · rename_i hk
      refine Query.stamped_congr fun r _ => ?_
      rw [List.any_cons, decide_eq_false (Ne.symm hk), Bool.false_and, Bool.false_or]

namespace Store

theorem key_renewed (d : LinkDraft) (now : Int) (l : Link) :
    (Query.renewed d now l).key = l.key := rfl

/-- The row that a link is written to, and the store with it. -/
def putLink (d : LinkDraft) (now : Int) (s : Store) : Row Link × Store :=
  match s.links.find? (Query.isLink d.scope d.name) with
  | some r => (⟨r.id, Query.renewed d now r.val⟩, { s with
      links := (s.links.modify (Query.isLink d.scope d.name) (Query.renewed d now)
        (key_renewed d now)).advance })
  | none => match s.links.insert? (Query.newLink d now) with
    | some (t, id) => (⟨id, Query.newLink d now⟩, { s with links := t })
    | none => (⟨0, Query.newLink d now⟩, s)

/-- The link that is written and whether it is new, and the store in which it owns its rows. -/
def commitLink (c : LinkCommit) (now : Int) (s : Store) : Upserted × Store :=
  (⟨(s.putLink c.draft now).1, (s.links.find? (Query.isLink c.draft.scope c.draft.name)).isNone⟩,
    { (s.putLink c.draft now).2 with
      buses := Query.stamped s.buses (fun r => r.id = c.busId) c.draft.name
      sinks := s.sinks.stamp c.draft.name c.sinkIds.entries
      resultTables := Query.stamped s.resultTables (hasId c.tableRowIds) c.draft.name })

section
variable {d : LinkDraft} {now : Int} {s : Store}

theorem isLink_iff {scope : Scope} {name : String} {r : Row Link} :
    Query.isLink scope name r = true ↔ r.val.scope = scope ∧ r.val.name = name := by
  unfold Query.isLink
  rw [decide_eq_true_iff]

/-- a link that is not there can be added -/
theorem insert?_newLink (now : Int) (h : s.links.find? (Query.isLink d.scope d.name) = none) :
    ∃ t id, s.links.insert? (Query.newLink d now) = some (t, id) := by
  cases hi : s.links.insert? (Query.newLink d now) with
  | some p => exact ⟨p.1, p.2, rfl⟩
  | none =>
    obtain ⟨r, hr, _, hk⟩ := Table.insert?_eq_none_iff.1 hi
    obtain ⟨hs, hn⟩ := Prod.mk.inj (Option.some.inj hk)
    exact absurd (isLink_iff.2 ⟨hs, hn⟩) (Table.find?_eq_none_iff.1 h r hr)

theorem putLink_val : ((s.putLink d now).1.val.scope = d.scope ∧
    (s.putLink d now).1.val.name = d.name) ∧
    (s.putLink d now).1.val.strategy = d.strategy.text ∧
    (s.putLink d now).1.val.dataId = d.dataId ∧
    (s.putLink d now).1.val.tableIds = listColumn d.tableIds := by
  unfold putLink
  split
  · rename_i r h
    exact ⟨isLink_iff.1 (Table.of_find? h).2, rfl, rfl, rfl⟩
  · split <;> exact ⟨⟨rfl, rfl⟩, rfl, rfl, rfl⟩

/-- after a link is written there are this link and those of other names -/
theorem mem_links_putLink {r : Row Link} : r ∈ (s.putLink d now).2.links.rows ↔
    r = (s.putLink d now).1 ∨
      r ∈ s.links.rows ∧ ¬(r.val.scope = d.scope ∧ r.val.name = d.name) := by
  unfold putLink
  split
  · rename_i l h
    obtain ⟨hl, hp⟩ := Table.of_find? h
    have hlk := isLink_iff.1 hp
    have hchange : Table.change (Query.isLink d.scope d.name) (Query.renewed d now) l
        = ⟨l.id, Query.renewed d now l.val⟩ := Table.change_of_pos hp
    rw [Table.rows_advance, Table.mem_rows_modify]
    constructor
    · rintro ⟨a, ha, rfl⟩
      by_cases hk : a.val.scope = d.scope ∧ a.val.name = d.name
      · have : a = l := Table.eq_of_key (k := (d.scope, d.name)) ha hl
          (by rw [Link.key, hk.1, hk.2]) (by rw [Link.key, hlk.1, hlk.2])
        subst this
        exact .inl hchange
      · rw [Table.change_of_neg fun h => hk (isLink_iff.1 h)]
        exact .inr ⟨ha, hk⟩
    · rintro (rfl | ⟨hr, hk⟩)
      · exact ⟨l, hl, hchange⟩
      · exact ⟨r, hr, Table.change_of_neg fun h => hk (isLink_iff.1 h)⟩
  · rename_i h
    obtain ⟨t, id, ht⟩ := insert?_newLink now h
    rw [ht]
    simp only
    rw [(Table.rows_insert? ht).1, List.mem_append, List.mem_singleton, or_comm]
    refine or_congr_right ⟨fun hr => ⟨hr, fun hk => ?_⟩, fun hr => hr.1⟩
    exact Table.find?_eq_none_iff.1 h r hr (isLink_iff.2 hk)

/-- the links of other names stay as they are -/
theorem mem_links_putLink_of_ne {x : Row Link}
    (hx : ¬(x.val.scope = d.scope ∧ x.val.name = d.name)) :
    x ∈ (s.putLink d now).2.links.rows ↔ x ∈ s.links.rows := by
  rw [mem_links_putLink]
  constructor
  · rintro (rfl | ⟨hold, -⟩)
    · exact absurd putLink_val.1 hx
    · exact hold
  · intro hold
    exact .inr ⟨hold, hx⟩

/-- a link that is written with other table ids differs in nothing else -/
theorem putLink_tableIds (s : Store) (d : LinkDraft) (tableIds : List String) (now : Int) :
    (s.putLink { d with tableIds } now).1
      = ⟨(s.putLink d now).1.id,
          { (s.putLink d now).1.val with tableIds := listColumn tableIds }⟩ := by
  unfold putLink
  cases hf : s.links.find? (Query.isLink d.scope d.name) with
  | some l => rfl
  | none =>
    obtain ⟨t, i, ht⟩ := insert?_newLink (d := d) now hf
    obtain ⟨u, j, hu⟩ := insert?_newLink (d := { d with tableIds }) now hf
    have hij : i = j := (Table.rows_insert? ht).2.trans (Table.rows_insert? hu).2.symm
    simp only [ht, hu, hij]
    rfl

end

end Store

namespace Query

theorem Means.putLink (d : LinkDraft) (now : Int) :
    Means (putLink d now) (Store.putLink d now) := by
  refine Means.write fun s => ?_
  unfold Store.putLink
  cases h : s.links.find? (isLink d.scope d.name) with
  | some r => rfl
  | none =>
    obtain ⟨t, id, ht⟩ := Store.insert?_newLink now h
    simp only [ht]

theorem Means.upsertLink (d : LinkDraft) (now : Int) : Means (upsertLink d now) fun s =>
    (⟨(s.putLink d now).1, (s.links.find? (isLink d.scope d.name)).isNone⟩,
      (s.putLink d now).2) :=
  (Observes.read fun s : Store => s.links.find? (isLink d.scope d.name)).means.bind fun before =>
    (Means.putLink d now).bind fun row => Means.pure (⟨row, before.isNone⟩ : Upserted)

theorem Means.setBusOwner (id : Int) (owner : String) : Means (setBusOwner id owner) fun s =>
    ((), setBuses s (stamped s.buses (fun r => r.id = id) owner)) :=
  (Means.stamp .buses _ owner).bind fun _ => Means.pure ()

theorem Means.stampAll (owner : String) (ids : List (SinkKind × List Int)) :
    Means (stampAll owner ids) fun s => ((), { s with sinks := s.sinks.stamp owner ids }) := by
  induction ids with
  | nil => exact Means.pure ()
  | cons e ids ih =>
    obtain ⟨k, js⟩ := e
    exact (Means.stampIds (access_sinks k) (.sinks k) js owner).bind fun _ => ih

theorem Means.stampTables (ids : List Int) (owner : String) :
    Means (Query.skipIf (decide (ids = [])) 0 (stampResultTables ids owner)) fun s =>
      (((batches ids).map fun ids => s.resultTables.count (hasId ids)).sum,
        setResultTables s (stamped s.resultTables (hasId ids) owner)) := by
  refine (Means.stampIds access_resultTables .resultTables ids owner).skipIf fun h s => ?_
  have hnil : ids = [] := of_decide_eq_true h
  subst hnil
  rw [stamped_of_none fun r _ => hasId_nil r, batches, if_pos rfl]
  rfl

theorem putLink_snd (d : LinkDraft) (now : Int) (s : Store) :
    (s.putLink d now).2 = { s with links := (s.putLink d now).2.links } := by
  unfold Store.putLink
  split
  · rfl
  · split <;> rfl

/-- a commit that answers has written the link and given it its rows -/
theorem Means.commitLink (c : LinkCommit) (now : Int) :
    Means (commitLink c now) (Store.commitLink c now) := by
  have h :=
    ((Means.upsertLink c.draft now).bind fun u =>
      (Means.setBusOwner c.busId c.draft.name).bind fun _ =>
        (Means.stampAll c.draft.name c.sinkIds.entries).bind fun _ =>
          (Means.stampTables c.tableRowIds c.draft.name).bind fun _ => Means.pure u).transaction
  refine h.congr fun s => ?_
  unfold Store.commitLink
  simp only [setBuses, setResultTables]
  rw [putLink_snd]

theorem atomic_commitLink (c : LinkCommit) (now : Int) : Atomic (commitLink c now) :=
  atomic_transaction _

end Query
end Linkage
