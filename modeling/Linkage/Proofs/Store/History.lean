import Linkage.Proofs.Json.Values
import Linkage.Proofs.Store.Commit

/-!
# Links over a history of calls

A link is written under its scope and name, alone or together with the rows it is to own.  Calls may
fail, each at any of its statements.

* `Table.Wrote`            the links after one of them is written, and what the call answers;
* `Store.wrote_putLink`    this is what writing a link does;
* `LinkCall`               a call with the failures it meets;
* `Store.through`          the store after a history of calls;
* `links_keep_identity`    what each call of a history does, and what all of them leave as it is.
-/

namespace Linkage

/-- Whether a row is the link that a draft writes. -/
def LinkDraft.IsOf (d : LinkDraft) (r : Row Link) : Prop :=
  r.val.scope = d.scope ∧ r.val.name = d.name

/-- The links `u` are the links `t` after the draft `d` is written at a time, with the answer `a`. -/
structure Table.Wrote (t u : Table Link.key) (d : LinkDraft) (now : Int) (a : Upserted) : Prop where
  /-- the link is new if none had its scope and name -/
  created : a.created = true ↔ ∀ r ∈ t.rows, ¬d.IsOf r
  /-- the answer is the row with the values of the draft -/
  row : a.row.val = ⟨d.scope, d.name, d.strategy.text, d.dataId, listColumn d.tableIds,
    a.row.val.created, now⟩
  strategy : a.row.val.readStrategy = .ok d.strategy
  tableIds : a.row.val.readTableIds = .ok d.tableIds
  /-- a link that was there keeps its id and the time of its creation -/
  kept : ∀ r ∈ t.rows, d.IsOf r → a.row.id = r.id ∧ a.row.val.created = r.val.created
  /-- a new one has an id that no link had before, and was created now -/
  fresh : a.created = true → t.last < a.row.id ∧ a.row.val.created = now
  /-- this row is there, and the links of other names as they were -/
  rows : ∀ r, r ∈ u.rows ↔ r = a.row ∨ r ∈ t.rows ∧ ¬d.IsOf r

namespace Store

section
variable {d : LinkDraft} {now : Int} {s : Store}

theorem isNone_find?_isLink : (s.links.find? (Query.isLink d.scope d.name)).isNone = true ↔
    ∀ r ∈ s.links.rows, ¬d.IsOf r := by
  rw [Option.isNone_iff_eq_none, Table.find?_eq_none_iff]
  exact forall₂_congr fun r _ => not_congr isLink_iff

/-- the id and the time of creation of a link that is written -/
theorem putLink_identity :
    (∀ r ∈ s.links.rows, d.IsOf r →
      (s.putLink d now).1.id = r.id ∧ (s.putLink d now).1.val.created = r.val.created) ∧
    ((∀ r ∈ s.links.rows, ¬d.IsOf r) →
      s.links.last < (s.putLink d now).1.id ∧ (s.putLink d now).1.val.created = now) := by
  unfold putLink
  cases hfind : s.links.find? (Query.isLink d.scope d.name) with
  | some l =>
    obtain ⟨hl, hp⟩ := Table.of_find? hfind
    obtain ⟨hls, hln⟩ := isLink_iff.1 hp
    refine ⟨fun r hr hof => ?_, fun hnone => absurd ⟨hls, hln⟩ (hnone l hl)⟩
    have hrl : r = l := Table.eq_of_key (k := (d.scope, d.name)) hr hl
      (by rw [Link.key, hof.1, hof.2]) (by rw [Link.key, hls, hln])
    rw [hrl]
    exact ⟨rfl, rfl⟩
  | none =>
    have hnone := isNone_find?_isLink.1 (Option.isNone_iff_eq_none.2 hfind)
    obtain ⟨t, i, ht⟩ := insert?_newLink (d := d) now hfind
    refine ⟨fun r hr hof => absurd hof (hnone r hr), fun _ => ?_⟩
    rw [ht]
    simp only
    rw [(Table.rows_insert? ht).2]
    exact ⟨Int.lt_add_one_iff.2 (Int.le_refl _), rfl⟩

/-- a link is written, whether it is new or not -/
theorem wrote_putLink (d : LinkDraft) (now : Int) (s : Store) :
    s.links.Wrote (s.putLink d now).2.links d now
      ⟨(s.putLink d now).1, (s.links.find? (Query.isLink d.scope d.name)).isNone⟩ where
  created := isNone_find?_isLink
  row := by
    obtain ⟨⟨hscope, hname⟩, hstrategy, hid, hids⟩ := @putLink_val d now s
    have hupdated : (s.putLink d now).1.val.updated = now := by
      unfold putLink
      split
      · rfl
      · split <;> rfl
    show (s.putLink d now).1.val = ⟨_, _, _, _, _, (s.putLink d now).1.val.created, _⟩
    generalize (s.putLink d now).1 = r at *
    rw [← hscope, ← hname, ← hstrategy, ← hid, ← hids, ← hupdated]
  strategy := Link.readStrategy_text putLink_val.2.1
  tableIds := Link.readTableIds_listColumn putLink_val.2.2.2
  kept := putLink_identity.1
  fresh h := putLink_identity.2 (isNone_find?_isLink.1 h)
  rows _ := mem_links_putLink

end

end Store

/-- A link is written alone, or with the rows it is to own. -/
inductive LinkWriting where
  | upsert (d : LinkDraft)
  | commit (c : LinkCommit)

namespace LinkWriting

def draft : LinkWriting → LinkDraft
  | upsert d => d
  | commit c => c.draft

def query (w : LinkWriting) (now : Int) : Query Upserted :=
  match w with
  | upsert d => Query.upsertLink d now
  | commit c => Query.commitLink c now

theorem atomic_query (w : LinkWriting) (now : Int) : (w.query now).Atomic := by
  cases w with
  | upsert d =>
    have hput : (Query.putLink d now).Atomic := Query.atomic_statement _
    exact (Query.Observes.read _).bind_atomic fun before =>
      hput.bind_pure fun row => (⟨row, before.isNone⟩ : Upserted)
  | commit c => exact Query.atomic_commitLink c now

theorem total_query (w : LinkWriting) (now : Int) {db : Db} (h : db.Reliable) :
    ∃ a, (w.query now db).1 = .ok a := by
  cases w with
  | upsert d => exact (Query.Means.upsertLink d now).total db h
  | commit c => exact (Query.Means.commitLink c now).total db h

/-- a call that answers has written its link -/
theorem wrote_query (w : LinkWriting) (now : Int) {db : Db} {a : Upserted}
    (h : (w.query now db).1 = .ok a) :
    db.store.links.Wrote (w.query now db).2.store.links w.draft now a := by
  cases w with
  | upsert d =>
    obtain ⟨ha, hstore⟩ := Prod.mk.inj ((Query.Means.upsertLink d now).sound db a h)
    have hwrote := Store.wrote_putLink d now db.store
    rw [ha, hstore] at hwrote
    exact hwrote
  | commit c =>
    obtain ⟨ha, hstore⟩ := Prod.mk.inj ((Query.Means.commitLink c now).sound db a h)
    have hwrote := Store.wrote_putLink c.draft now db.store
    rw [ha] at hwrote
    show Table.Wrote _ (Query.commitLink c now db).2.store.links _ _ _
    rw [← hstore]
    exact hwrote

end LinkWriting

/-- A call that writes a link, as it is made: at what time, which row operations are refused during it,
and at which of its statements the database is out of reach. -/
structure LinkCall where
  writing : LinkWriting
  now : Int
  guards : List (TableName × RowEvent)
  outage : Nat → Bool

namespace LinkCall

/-- The database that the call runs on. -/
def db (c : LinkCall) (s : Store) : Db := ⟨s, c.guards, c.outage, 0⟩

def result (c : LinkCall) (s : Store) : Except Error Upserted := (c.writing.query c.now (c.db s)).1

/-- The store that the call leaves, whether it fails or not. -/
def store (c : LinkCall) (s : Store) : Store := (c.writing.query c.now (c.db s)).2.store

theorem store_of_error {c : LinkCall} {s : Store} {e : Error} (h : c.result s = .error e) :
    c.store s = s := c.writing.atomic_query c.now (c.db s) e h

theorem wrote_store {c : LinkCall} {s : Store} {a : Upserted} (h : c.result s = .ok a) :
    s.links.Wrote (c.store s).links c.writing.draft c.now a := c.writing.wrote_query c.now h

end LinkCall

namespace Row

/-- The same link: its id, its scope and name, and the time of its creation. -/
def KeepsIdentity (r x : Row Link) : Prop :=
  x.id = r.id ∧ x.val.scope = r.val.scope ∧ x.val.name = r.val.name ∧ x.val.created = r.val.created

theorem KeepsIdentity.refl (r : Row Link) : r.KeepsIdentity r := ⟨rfl, rfl, rfl, rfl⟩

theorem KeepsIdentity.trans {r x y : Row Link} (h : r.KeepsIdentity x) (k : x.KeepsIdentity y) :
    r.KeepsIdentity y :=
  ⟨k.1.trans h.1, k.2.1.trans h.2.1, k.2.2.1.trans h.2.2.1, k.2.2.2.trans h.2.2.2⟩

end Row

/-- a link that is written stays what it is, and so do the others -/
theorem Table.Wrote.exists_kept {t u : Table Link.key} {d : LinkDraft} {now : Int} {a : Upserted}
    (h : t.Wrote u d now a) {r : Row Link} (hr : r ∈ t.rows) : ∃ x ∈ u.rows, r.KeepsIdentity x := by
  by_cases hof : d.IsOf r
  · obtain ⟨hid, hcreated⟩ := h.kept r hr hof
    refine ⟨a.row, (h.rows a.row).2 (.inl rfl), hid, ?_, ?_, hcreated⟩
    · rw [h.row]
      exact hof.1.symm
    · rw [h.row]
      exact hof.2.symm
  · exact ⟨r, (h.rows r).2 (.inr ⟨hr, hof⟩), .refl r⟩

namespace Store

/-- The store after a history of calls. -/
def through (s : Store) (cs : List LinkCall) : Store := cs.foldl (fun s c => c.store s) s

theorem through_append (s : Store) (cs ds : List LinkCall) :
    s.through (cs ++ ds) = (s.through cs).through ds := List.foldl_append

/-- no call takes a link away or makes another one of it -/
theorem exists_kept_through (s : Store) (cs : List LinkCall) {r : Row Link}
    (hr : r ∈ s.links.rows) : ∃ x ∈ (s.through cs).links.rows, r.KeepsIdentity x := by
  induction cs generalizing s r with
  | nil => exact ⟨r, hr, .refl r⟩
  | cons c cs ih =>
    have hstep : ∃ x ∈ (c.store s).links.rows, r.KeepsIdentity x := by
      cases hres : c.result s with
      | error e =>
        rw [LinkCall.store_of_error hres]
        exact ⟨r, hr, .refl r⟩
      | ok a => exact (LinkCall.wrote_store hres).exists_kept hr
    obtain ⟨x, hx, hrx⟩ := hstep
    obtain ⟨y, hy, hxy⟩ := ih (c.store s) hx
    exact ⟨y, hy, hrx.trans hxy⟩

end Store

/-- Whatever the store holds and whatever calls have written links in it.  No two links have one scope
and name.  The next call leaves the store as it is if it fails; otherwise it has written its link as
`Table.Wrote` says, and it does not fail where no statement does.  Whatever calls follow, each link is
there with its id, its scope and name, and the time of its creation. -/
theorem links_keep_identity (s : Store) (cs : List LinkCall) :
    ((s.through cs).links.rows.Pairwise fun a b =>
      ¬(a.val.scope = b.val.scope ∧ a.val.name = b.val.name)) ∧
    (∀ c : LinkCall,
      (∀ e, c.result (s.through cs) = .error e → s.through (cs ++ [c]) = s.through cs) ∧
      (∀ a, c.result (s.through cs) = .ok a →
        (s.through cs).links.Wrote (s.through (cs ++ [c])).links c.writing.draft c.now a) ∧
      ((c.db (s.through cs)).Reliable → ∃ a, c.result (s.through cs) = .ok a)) ∧
    ∀ ds, ∀ r ∈ (s.through cs).links.rows,
      ∃ x ∈ (s.through (cs ++ ds)).links.rows, r.KeepsIdentity x := by
  refine ⟨?_, fun c => ⟨fun e he => ?_, fun a ha => ?_, fun hreliable => ?_⟩, fun ds r hr => ?_⟩
  · refine (s.through cs).links.distinct.imp fun {a b} hab hsame => ?_
    rcases hab with hnone | hne
    · exact Option.some_ne_none _ hnone
    · exact hne (by rw [Link.key, Link.key, hsame.1, hsame.2])
  · rw [s.through_append]
    exact LinkCall.store_of_error he
  · rw [s.through_append]
    exact LinkCall.wrote_store ha
  · exact c.writing.total_query c.now hreliable
  · rw [s.through_append]
    exact (s.through cs).exists_kept_through ds hr

end Linkage
