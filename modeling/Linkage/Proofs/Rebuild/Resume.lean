import Linkage.Proofs.Rebuild.Batch
import Linkage.Proofs.Rebuild.Later
import Linkage.Proofs.Rebuild.Writing

/-!
# Linking the data-buses that are left

A batch that has come to some point can be left to another one, which begins anew with the
data-buses that no link owns.

* `Store.linkAll`           the store after data-buses were looked at, one after the other;
* `Store.timeless`          the store without the times in its links;
* `timeless_linkAll`        but for these times it does not matter when data-buses are looked at;
* `unlinked_linkAll`        those that are left are those that were not looked at, after some that do
                            not resolve;
* `timeless_linkAll_left`   looking at what is left comes to the same as not having stopped.
-/

namespace Linkage

/-! ## times aside -/

namespace Link

/-- The link with its times left out. -/
def timeless (l : Link) : Link := { l with created := 0, updated := 0 }

theorem key_timeless (l : Link) : l.timeless.key = l.key := rfl

end Link

namespace Table

/-- rows that no longer satisfy a condition after a change leave the selection, the others stay -/
theorem filter_change {α : Type} {q : Row α → Bool} {f : α → α} {p : Row α → Bool}
    (h : ∀ x : Row α, p ⟨x.id, f x.val⟩ = false) (rows : List (Row α)) :
    (rows.map (change q f)).filter p = (rows.filter p).filter fun x => !q x := by
  induction rows with
  | nil => rfl
  | cons x rows ih =>
    rw [List.map_cons]
    rw [List.filter_filter] at ih ⊢
    cases hq : q x with
    | true =>
      have hout : ¬p (change q f x) = true := by
        rw [change_of_pos hq, h x]
        exact Bool.false_ne_true
      rw [List.filter_cons_of_neg hout, ih, List.filter_cons_of_neg (by simp [hq])]
    | false =>
      have hsame : change q f x = x := change_of_neg (by simp [hq])
      rw [hsame, List.filter_cons, List.filter_cons, ih]
      simp [hq]

end Table

namespace Store

/-- The store with the times of its links left out. -/
def timeless (s : Store) : Store :=
  { s with links := s.links.modify (fun _ => true) Link.timeless Link.key_timeless }

variable {s : Store}

theorem find?_timeless (s : Store) (scope : Scope) (name : String) :
    s.timeless.links.find? (Query.isLink scope name)
      = (s.links.find? (Query.isLink scope name)).map fun r => ⟨r.id, r.val.timeless⟩ := by
  show (s.links.rows.map (Table.change (fun _ => true) Link.timeless)).find? _ = _
  rw [List.find?_map]
  rfl

/-- but for its times, a link is written alike at all times -/
theorem timeless_putLink (d : LinkDraft) (now : Int) (s : Store) :
    (s.putLink d now).2.timeless = (s.timeless.putLink d 0).2 := by
  have htable : ∀ t u : Table Link.key, t = u →
      ({ s with links := t } : Store) = { s with links := u } := by
    rintro t _ rfl
    rfl
  unfold putLink
  rw [find?_timeless]
  cases hf : s.links.find? (Query.isLink d.scope d.name) with
  | some r =>
    refine htable _ _ (Table.ext ?_ rfl)
    show ((s.links.rows.map _).map _) = ((s.links.rows.map _).map _)
    rw [List.map_map, List.map_map]
    refine List.map_congr_left fun x _ => ?_
    show Table.change _ _ (Table.change _ _ x) = Table.change _ _ ⟨x.id, x.val.timeless⟩
    have hsame : Query.isLink d.scope d.name ⟨x.id, x.val.timeless⟩
        = Query.isLink d.scope d.name x := rfl
    unfold Table.change
    rw [hsame]
    cases Query.isLink d.scope d.name x <;> rfl
  | none =>
    obtain ⟨t, i, ht⟩ := insert?_newLink now hf
    have hf' : s.timeless.links.find? (Query.isLink d.scope d.name) = none := by
      rw [find?_timeless, hf]
      rfl
    obtain ⟨u, j, hu⟩ := insert?_newLink 0 hf'
    obtain ⟨htrows, hi⟩ := Table.rows_insert? ht
    obtain ⟨hurows, hj⟩ := Table.rows_insert? hu
    have hij : i = j := hi.trans hj.symm
    rw [Option.map_none]
    simp only [ht, hu]
    refine htable _ _ (Table.ext ?_ ?_)
    · show t.rows.map (Table.change (fun _ => true) Link.timeless) = u.rows
      rw [htrows, hurows, List.map_append, hij]
      rfl
    · show t.last = u.last
      rw [Table.last_insert? ht, Table.last_insert? hu, hij]

theorem timeless_commitLink (c : LinkCommit) (now : Int) (s : Store) :
    (s.commitLink c now).2.timeless = (s.timeless.commitLink c 0).2 := by
  have hput := timeless_putLink c.draft now s
  unfold commitLink
  simp only
  rw [← hput]
  rfl

/-- links play no part in what a data-bus resolves to -/
theorem resolve_timeless (s : Store) (b : Bus) : s.timeless.resolve b = s.resolve b := by
  have hsinks : ∀ gs, s.timeless.allSinks b.scope gs = s.allSinks b.scope gs := by
    intro gs
    induction gs with
    | nil => rfl
    | cons g gs ih =>
      rw [allSinks, allSinks, ih]
      rfl
  unfold resolve
  simp only [hsinks]
  rfl

theorem timeless_rebuildBus (now : Int) (b : Row Bus) (s : Store) :
    (s.rebuildBus false now b).2.timeless = (s.timeless.rebuildBus false 0 b).2 := by
  unfold rebuildBus
  rw [resolve_timeless]
  cases s.resolve b.val with
  | error e => rfl
  | ok r => exact timeless_commitLink (r.commit b) now s

/-! ## one data-bus after the other -/

/-- The store after the data-buses were looked at, one after the other. -/
def linkAll (now : Int) (bs : List (Row Bus)) (s : Store) : Store :=
  bs.foldl (fun s b => (s.rebuildBus false now b).2) s

theorem linkAll_cons (now : Int) (b : Row Bus) (bs : List (Row Bus)) (s : Store) :
    s.linkAll now (b :: bs) = (s.rebuildBus false now b).2.linkAll now bs := rfl

theorem linkAll_append (now : Int) (bs cs : List (Row Bus)) (s : Store) :
    s.linkAll now (bs ++ cs) = (s.linkAll now bs).linkAll now cs := List.foldl_append

theorem timeless_linkAll (now : Int) (bs : List (Row Bus)) (s : Store) :
    (s.linkAll now bs).timeless = s.timeless.linkAll 0 bs := by
  induction bs generalizing s with
  | nil => rfl
  | cons b bs ih => rw [linkAll_cons, linkAll_cons, ih, timeless_rebuildBus]

theorem rebuildBus_of_error {now : Int} {b : Row Bus} {e : Skip}
    (h : s.resolve b.val = .error e) : (s.rebuildBus false now b).2 = s := by
  unfold rebuildBus
  rw [h]
  rfl

/-- data-buses that do not resolve leave nothing behind -/
theorem linkAll_of_error {now : Int} {bs : List (Row Bus)}
    (h : ∀ b ∈ bs, ∃ e, s.resolve b.val = .error e) : s.linkAll now bs = s := by
  induction bs with
  | nil => rfl
  | cons b bs ih =>
    obtain ⟨⟨e, he⟩, hbs⟩ := List.forall_mem_cons.1 h
    rw [linkAll_cons, rebuildBus_of_error he]
    exact ih hbs

/-! ## the data-buses that are left -/

/-- a data-bus that was linked is no more among the unlinked ones -/
theorem Linking.unlinked {u : Store} {b : Row Bus} {r : Resolution} {l : Row Link}
    (h : s.Linking b r l u) (hname : r.link ≠ "") (scope : Scope) :
    u.unlinked scope = (s.unlinked scope).filter fun x => x ≠ b := by
  obtain ⟨q, hu, hq⟩ := h.buses
  have hlinked : ∀ x : Row Bus, decide ((x.val.own r.link).scope = scope ∧
      (x.val.own r.link).owner = "") = false := by
    intro x
    exact decide_eq_false fun hx => hname hx.2
  show u.buses.rows.filter _ = (s.buses.rows.filter _).filter _
  rw [hu]
  show (s.buses.rows.map (Table.change q (Component.own r.link))).filter _ = _
  rw [Table.filter_change hlinked]
  refine List.filter_congr fun x hx => ?_
  have hxq : q x = true ↔ x = b := hq x (List.mem_filter.1 hx).1
  rw [Bool.eq_iff_iff, Bool.not_eq_true', decide_eq_true_iff, ← Bool.not_eq_true, hxq]

/-- what was refused is refused when more components have an owner -/
theorem Keeps.error_of_error {u : Store} (h : s.Keeps u) {b : Bus}
    (he : ∃ e, s.resolve b = .error e) : ∃ e, u.resolve b = .error e := by
  obtain ⟨e, he⟩ := he
  have hecho := h.resolve_echoes b
  rw [he] at hecho
  cases hlater : u.resolve b with
  | error e' => exact ⟨e', rfl⟩
  | ok r =>
    rw [hlater] at hecho
    cases hecho

theorem filter_ne_of_nodup {α : Type} [DecidableEq α] {xs ys : List α} {a : α}
    (h : (xs ++ a :: ys).Nodup) : (xs ++ a :: ys).filter (fun x => x ≠ a) = xs ++ ys := by
  obtain ⟨_, hays, hne⟩ := List.nodup_append.1 h
  obtain ⟨hay, _⟩ := List.nodup_cons.1 hays
  have hxs : ∀ x ∈ xs, decide (x ≠ a) = true := by
    intro x hx
    exact decide_eq_true (hne x hx a List.mem_cons_self)
  have hys : ∀ y ∈ ys, decide (y ≠ a) = true := by
    intro y hy
    exact decide_eq_true fun he => hay (he ▸ hy)
  rw [List.filter_append, List.filter_eq_self.2 hxs, List.filter_cons_of_neg (by simp),
    List.filter_eq_self.2 hys]

/-- After the first data-buses of a batch were looked at, the unlinked ones are those that come after
them, and before these some that do not resolve. -/
theorem unlinked_linkAll {scope : Scope} (now : Int) {before bs rest : List (Row Bus)}
    (h : s.unlinked scope = before ++ (bs ++ rest))
    (hbefore : ∀ b ∈ before, ∃ e, s.resolve b.val = .error e) :
    ∃ left, (s.linkAll now bs).unlinked scope = left ++ rest ∧
      ∀ b ∈ left, ∃ e, (s.linkAll now bs).resolve b.val = .error e := by
  induction bs generalizing s before with
  | nil => exact ⟨before, h, hbefore⟩
  | cons b bs ih =>
    have hb : b ∈ s.unlinked scope := by
      rw [h]
      exact List.mem_append_right _ List.mem_cons_self
    obtain ⟨hbmem, _, hfree⟩ := mem_unlinked.1 hb
    rw [linkAll_cons]
    rcases rebuildBus_cases false now hbmem with ⟨e, he, _, hs⟩ | ⟨_, _, hd, _⟩ | ⟨r, l, hr, _, _, hl⟩
    · have hnext : s.unlinked scope = (before ++ [b]) ++ (bs ++ rest) := by
        rw [h, List.append_assoc]
        rfl
      have hrefused : ∀ x ∈ before ++ [b], ∃ e, s.resolve x.val = .error e := by
        intro x hx
        rcases List.mem_append.1 hx with hx | hx
        · exact hbefore x hx
        · rw [List.mem_singleton.1 hx]
          exact ⟨e, he⟩
      rw [hs]
      exact ih hnext hrefused
    · cases hd
    · have hres := resolved_of_resolve hr
      have hname : r.link ≠ "" := by
        rw [hres.link]
        exact Scope.linkName_ne_empty _ _
      have hnodup : (before ++ b :: (bs ++ rest)).Nodup := by
        have := nodup_unlinked s scope
        rwa [h] at this
      have hnext : (s.rebuildBus false now b).2.unlinked scope = before ++ (bs ++ rest) := by
        rw [hl.unlinked hname, h]
        exact filter_ne_of_nodup hnodup
      exact ih hnext fun x hx => (hl.keeps hres hfree).error_of_error (hbefore x hx)

/-- Looking at all that is left after the first data-buses comes to the same as looking at all. -/
theorem timeless_linkAll_left {scope : Scope} {bs rest : List (Row Bus)}
    (h : s.unlinked scope = bs ++ rest) (now now' now'' : Int) :
    ((s.linkAll now bs).linkAll now' ((s.linkAll now bs).unlinked scope)).timeless
      = (s.linkAll now'' (s.unlinked scope)).timeless := by
  have hnone : s.unlinked scope = [] ++ (bs ++ rest) := h
  obtain ⟨left, hleft, herror⟩ := unlinked_linkAll now hnone nofun
  rw [hleft, linkAll_append, linkAll_of_error herror, timeless_linkAll, timeless_linkAll,
    timeless_linkAll, h, linkAll_append]

end Store

/-- the visits of a batch that all answer leave what looking at their data-buses leaves -/
theorem Batch.storeAfter_eq {scope : Scope} {now : Int} {s : Store} {vs : List Visit}
    (h : Batch scope false now s vs) (hok : ∀ v ∈ vs, ∃ a, v.answer = .ok a) :
    Visit.storeAfter s vs = s.linkAll now (vs.map Visit.bus) := by
  induction h with
  | nil s => rfl
  | @cons v vs hv _ ih =>
    obtain ⟨⟨a, ha⟩, hvs⟩ := List.forall_mem_cons.1 hok
    show Visit.storeAfter v.after vs = _
    rw [ih hvs, List.map_cons, Store.linkAll_cons]
    rcases hv.did with ⟨⟨e, he⟩, _⟩ | ⟨a', _, hdid⟩
    · rw [ha] at he
      cases he
    · rw [hdid]

/-- A store with three data-buses of a scope: the second wants the sink that the first takes. -/
def Store.trio : Store :=
  { Store.empty with
    sources := [⟨7, "source", "bk_standard_v2_event"⟩]
    buses := ⟨[⟨1, ⟨⟨"t", "n"⟩, "one", "", ⟨7, "[\"ElasticSearchBinding:first\"]"⟩⟩⟩,
      ⟨2, ⟨⟨"t", "n"⟩, "two", "", ⟨7, "[\"ElasticSearchBinding:first\"]"⟩⟩⟩,
      ⟨3, ⟨⟨"t", "n"⟩, "three", "", ⟨7, "[\"DorisBinding:second\"]"⟩⟩⟩], 3,
      by decide, by decide, by decide, by decide⟩
    sinks := { SinkTables.empty with
      elastic := .single ⟨⟨"t", "n"⟩, "first", "", none⟩
      doris := .single ⟨⟨"t", "n"⟩, "second", "", some "table"⟩ }
    resultTables := .single ⟨⟨"t", "n"⟩, "table", "", "2_bkmonitor.table"⟩ }

end Linkage
