import Mathlib.Data.Set.List
import Linkage.Proofs.Dict.ByKey
import Linkage.Rebuild.Resolve

/-!
# The groups of a list of entries

A list of entries has groups when each entry is the text of a sink.  Otherwise an entry is in the way:
the first one without a colon, wherever it stands, and only where all have one the first text before a
colon that names no kind.

* `First`                       the first item of a list that satisfies a condition;
* `SinkGroup.addEntry_byText`   one more entry goes to the group of its kind;
* `SinkGroup.Partition`         the groups of a list of sinks, in terms of the sinks alone;
* `SinkGroup.ofEntries_sinks`   a list of sinks has these groups;
* `SinkGroup.Grouping`          what comes of a list of entries;
* `SinkGroup.ofEntries_eq_iff`  this comes of it, and nothing else.
-/

namespace Linkage

/-! ## the first item that satisfies a condition -/

section
variable {α : Type} {p : α → Prop} {xs : List α} {x y : α}

/-- `x` is the first item of the list that satisfies `p`. -/
def First (p : α → Prop) (xs : List α) (x : α) : Prop :=
  ∃ before after, xs = before ++ x :: after ∧ p x ∧ ∀ y ∈ before, ¬p y

theorem not_first_nil : ¬First p [] x := by
  rintro ⟨before, after, h, -⟩
  exact List.append_ne_nil_of_right_ne_nil before (List.cons_ne_nil x after) h.symm

theorem first_cons : First p (y :: xs) x ↔ p y ∧ x = y ∨ ¬p y ∧ First p xs x := by
  constructor
  · rintro ⟨before, after, h, hp, hbefore⟩
    cases before with
    | nil =>
      cases h
      exact .inl ⟨hp, rfl⟩
    | cons z before =>
      cases h
      obtain ⟨hz, hbefore⟩ := List.forall_mem_cons.1 hbefore
      exact .inr ⟨hz, before, after, rfl, hp, hbefore⟩
  · rintro (⟨hp, rfl⟩ | ⟨hy, before, after, rfl, hp, hbefore⟩)
    · exact ⟨[], xs, rfl, hp, nofun⟩
    · exact ⟨y :: before, after, rfl, hp, List.forall_mem_cons.2 ⟨hy, hbefore⟩⟩

theorem exists_first (h : ∃ x ∈ xs, p x) : ∃ x, First p xs x := by
  induction xs with
  | nil =>
    obtain ⟨_, hx, -⟩ := h
    cases hx
  | cons y xs ih =>
    by_cases hy : p y
    · exact ⟨y, first_cons.2 (.inl ⟨hy, rfl⟩)⟩
    · rw [List.exists_mem_cons_iff, or_iff_right hy] at h
      obtain ⟨x, hx⟩ := ih h
      exact ⟨x, first_cons.2 (.inr ⟨hy, hx⟩)⟩

theorem First.exists_mem (h : First p xs x) : ∃ x ∈ xs, p x := by
  obtain ⟨before, after, rfl, hp, -⟩ := h
  exact ⟨x, List.mem_append_right before List.mem_cons_self, hp⟩

/-- repetitions are behind the first item -/
theorem First.eraseDups [DecidableEq α] (h : First p xs x) : First p xs.eraseDups x := by
  obtain ⟨before, after, rfl, hp, hbefore⟩ := h
  have hx : x ∉ before := fun hx => hbefore x hx hp
  have hrest : (x :: after).removeAll before = x :: after.removeAll before :=
    List.filter_cons_of_pos (by simpa using hx)
  rw [List.eraseDups_append, hrest, List.eraseDups_cons]
  exact ⟨_, _, rfl, hp, fun y hy => hbefore y (List.mem_eraseDups.1 hy)⟩

end

/-! ## the entries of a list -/

theorem SinkKind.colon_not_mem_text (k : SinkKind) : ':' ∉ k.text.toList := by
  cases k <;> decide

theorem PlannedSink.text_eq (p : PlannedSink) : p.text = SinkEntry.text ⟨p.kind.text, p.name⟩ := rfl

theorem PlannedSink.eq_of_kind_name {p q : PlannedSink} (hk : p.kind = q.kind) (hn : p.name = q.name) :
    p = q := by
  cases p
  cases q
  cases hk
  cases hn
  rfl

namespace SinkEntry

theorem ofText?_eq_some_iff {s : String} {e : SinkEntry} :
    ofText? s = some e ↔ s = e.text ∧ ':' ∉ e.kind.toList := by
  constructor
  · intro h
    obtain ⟨p, hp, rfl⟩ := Option.map_eq_some_iff.1 h
    obtain ⟨h1, h2⟩ := Text.cut?_eq_some_iff.1 hp
    refine ⟨String.ext ?_, by rwa [String.toList_ofList]⟩
    rw [h1]
    simp [text]
  · rintro ⟨rfl, h⟩
    exact ofText?_text h

/-- the entry of a sink is read as its kind and name, and no other entry is -/
theorem ofText?_eq_sink_iff {s : String} {k : SinkKind} {n : String} :
    ofText? s = some ⟨k.text, n⟩ ↔ s = (PlannedSink.mk k n).text := by
  rw [ofText?_eq_some_iff]
  exact ⟨fun h => h.1, fun h => ⟨h, k.colon_not_mem_text⟩⟩

/-- What stands before the first colon of an entry. -/
def head (s : String) : String := String.ofList (s.toList.takeWhile fun c => c ≠ ':')

theorem head_text {e : SinkEntry} (h : ':' ∉ e.kind.toList) : head e.text = e.kind := by
  have htext : e.text.toList = e.kind.toList ++ ':' :: e.name.toList := by simp [text]
  have hkind : ∀ c ∈ e.kind.toList, decide (c ≠ ':') = true :=
    fun c hc => decide_eq_true fun he => h (he ▸ hc)
  unfold head
  rw [htext, List.takeWhile_append_of_pos hkind, List.takeWhile_cons_of_neg (by decide),
    List.append_nil, String.ofList_toList]

theorem exists_text {s : String} (h : ':' ∈ s.toList) :
    ∃ e : SinkEntry, e.text = s ∧ ':' ∉ e.kind.toList := by
  cases hs : ofText? s with
  | none => exact absurd h (ofText?_eq_none_iff.1 hs)
  | some e =>
    obtain ⟨rfl, he⟩ := ofText?_eq_some_iff.1 hs
    exact ⟨e, rfl, he⟩

end SinkEntry

namespace PlannedSink

theorem text_injective : Function.Injective text := by
  intro p q h
  have hp : SinkEntry.ofText? p.text = some ⟨p.kind.text, p.name⟩ := SinkEntry.ofText?_eq_sink_iff.2 rfl
  have hq : SinkEntry.ofText? q.text = some ⟨q.kind.text, q.name⟩ := SinkEntry.ofText?_eq_sink_iff.2 rfl
  rw [h, hq, Option.some.injEq, SinkEntry.mk.injEq] at hp
  exact eq_of_kind_name (SinkKind.text_injective hp.1.symm) hp.2.symm

theorem colon_mem_text (p : PlannedSink) : ':' ∈ p.text.toList := by
  rw [text_eq]
  simp [SinkEntry.text]

theorem head_text (p : PlannedSink) : SinkEntry.head p.text = p.kind.text := by
  rw [text_eq, SinkEntry.head_text p.kind.colon_not_mem_text]

end PlannedSink

namespace SinkGroup

theorem ofEntries_eq (entries : List String) :
    ofEntries entries = (collect [] entries).bind known := by
  unfold ofEntries
  cases collect [] entries <;> rfl

/-- The groups by the text of their kind, of these entries one after the other. -/
def byText (es : List SinkEntry) : List (String × List String) :=
  (es.map SinkEntry.kind).eraseDups.map fun k =>
    (k, (es.filter fun e => e.kind = k).map SinkEntry.name)

theorem addEntry_map {e : SinkEntry} {ks : List String} {names : String → List String}
    (hks : ks.Nodup) : addEntry e (ks.map fun k => (k, names k)) =
      if e.kind ∈ ks then ks.map fun k => (k, if k = e.kind then names k ++ [e.name] else names k)
      else (ks.map fun k => (k, names k)) ++ [(e.kind, [e.name])] := by
  induction ks with
  | nil => rfl
  | cons k ks ih =>
    obtain ⟨hk, hks⟩ := List.nodup_cons.1 hks
    rw [List.map_cons, addEntry]
    by_cases he : k = e.kind
    · rw [if_pos he, if_pos (he ▸ List.mem_cons_self), List.map_cons, if_pos he]
      refine congrArg _ (List.map_congr_left fun j hj => ?_)
      rw [if_neg fun hje => hk (by rwa [he, ← hje])]
    · rw [if_neg he, ih hks, List.map_cons, if_neg he]
      by_cases hmem : e.kind ∈ ks
      · rw [if_pos hmem, if_pos (List.mem_cons_of_mem _ hmem)]
      · have hnot : e.kind ∉ k :: ks := fun h =>
          (List.mem_cons.1 h).elim (fun h => he h.symm) hmem
        rw [if_neg hmem, if_neg hnot]
        rfl

theorem names_concat (es : List SinkEntry) (e : SinkEntry) (k : String) :
    ((es ++ [e]).filter fun a => a.kind = k).map SinkEntry.name
      = if k = e.kind then ((es.filter fun a => a.kind = k).map SinkEntry.name) ++ [e.name]
        else (es.filter fun a => a.kind = k).map SinkEntry.name := by
  rw [List.filter_append, List.map_append, List.filter_singleton]
  by_cases hk : k = e.kind
  · rw [if_pos hk, decide_eq_true hk.symm]
    rfl
  · rw [if_neg hk, decide_eq_false (Ne.symm hk)]
    exact List.append_nil _

/-- one more entry goes to the group of its kind, or makes one at the end -/
theorem addEntry_byText (es : List SinkEntry) (e : SinkEntry) :
    addEntry e (byText es) = byText (es ++ [e]) := by
  unfold byText
  rw [addEntry_map (nodup_eraseDups _), List.map_append, List.map_singleton, eraseDups_concat]
  by_cases hmem : e.kind ∈ es.map SinkEntry.kind
  · rw [if_pos (List.mem_eraseDups.2 hmem), if_pos hmem]
    exact List.map_congr_left fun k _ => congrArg (Prod.mk k) (names_concat es e k).symm
  · have hnone : es.filter (fun a => a.kind = e.kind) = [] := List.filter_eq_nil_iff.2 fun a ha hk =>
      hmem (List.mem_map.2 ⟨a, ha, of_decide_eq_true hk⟩)
    rw [if_neg fun h => hmem (List.mem_eraseDups.1 h), if_neg hmem, List.map_append,
      List.map_singleton, names_concat, if_pos rfl, hnone]
    refine congrArg (· ++ _) (List.map_congr_left fun k hk => congrArg (Prod.mk k) ?_)
    have hne : ¬k = e.kind := fun he => hmem (he ▸ List.mem_eraseDups.1 hk)
    rw [names_concat, if_neg hne]

theorem collect_byText {es fs : List SinkEntry} (h : ∀ e ∈ fs, ':' ∉ e.kind.toList) :
    collect (byText es) (fs.map SinkEntry.text) = .ok (byText (es ++ fs)) := by
  induction fs generalizing es with
  | nil => rw [List.append_nil]; rfl
  | cons e fs ih =>
    obtain ⟨he, hfs⟩ := List.forall_mem_cons.1 h
    rw [List.map_cons, collect, SinkEntry.ofText?_text he]
    show collect (addEntry e (byText es)) _ = _
    rw [addEntry_byText, ih hfs, List.append_assoc]
    rfl

section
variable {entries : List String} {gs : List (String × List String)} {s k : String}

/-- entries with colons are the texts of entries -/
theorem exists_entries (h : ∀ s ∈ entries, ':' ∈ s.toList) :
    ∃ es : List SinkEntry, entries = es.map SinkEntry.text ∧ ∀ e ∈ es, ':' ∉ e.kind.toList := by
  induction entries with
  | nil => exact ⟨[], rfl, nofun⟩
  | cons s entries ih =>
    obtain ⟨hs, hentries⟩ := List.forall_mem_cons.1 h
    obtain ⟨e, rfl, he⟩ := SinkEntry.exists_text hs
    obtain ⟨es, rfl, hes⟩ := ih hentries
    exact ⟨e :: es, rfl, List.forall_mem_cons.2 ⟨he, hes⟩⟩

/-- all entries are read before a kind is looked at, so one without a colon is in the way of any -/
theorem collect_of_first (h : First (fun s => ':' ∉ s.toList) entries s) :
    collect gs entries = .error ⟨.malformedSinkEntry, s⟩ := by
  induction entries generalizing gs with
  | nil => exact absurd h not_first_nil
  | cons t entries ih =>
    rw [collect]
    rcases first_cons.1 h with ⟨hs, rfl⟩ | ⟨ht, hrest⟩
    · rw [SinkEntry.ofText?_eq_none_iff.2 hs]
    · obtain ⟨e, rfl, he⟩ := SinkEntry.exists_text (not_not.1 ht)
      rw [SinkEntry.ofText?_text he]
      exact ih hrest

theorem known_of_first (h : First (fun k => ∀ kind : SinkKind, k ≠ kind.text) (gs.map Prod.fst) k) :
    known gs = .error ⟨.unknownSinkKind, k⟩ := by
  induction gs with
  | nil => exact absurd h not_first_nil
  | cons g gs ih =>
    obtain ⟨j, names⟩ := g
    rw [known]
    rcases first_cons.1 h with ⟨hk, rfl⟩ | ⟨hj, hrest⟩
    · have hnone : SinkKind.ofText? k = none := Option.eq_none_iff_forall_ne_some.2 fun kind hkind =>
        hk kind (SinkKind.ofText?_eq_some_iff.1 hkind)
      rw [hnone]
    · obtain ⟨kind, hkind⟩ := not_forall_not.1 hj
      rw [SinkKind.ofText?_eq_some_iff.2 hkind, ih hrest]
      rfl

end

/-! ## the groups of a list of sinks -/

/-- The groups of a list of sinks: the kinds in the order of their first sink, the names of a kind in
the order of the list. -/
def ofSinks (ps : List PlannedSink) : List SinkGroup :=
  (ps.map PlannedSink.kind).eraseDups.map fun k =>
    ⟨k, (ps.filter fun p => p.kind = k).map PlannedSink.name⟩

theorem known_map (ks : List SinkKind) (names : SinkKind → List String) :
    known (ks.map fun k => (k.text, names k)) = .ok (ks.map fun k => ⟨k, names k⟩) := by
  induction ks with
  | nil => rfl
  | cons k ks ih =>
    rw [List.map_cons, known, SinkKind.ofText?_text, ih]
    rfl

theorem byText_sinks (ps : List PlannedSink) :
    byText (ps.map fun p => ⟨p.kind.text, p.name⟩)
      = (ps.map PlannedSink.kind).eraseDups.map fun k =>
          (k.text, (ps.filter fun p => p.kind = k).map PlannedSink.name) := by
  have hkinds : (ps.map fun p => (⟨p.kind.text, p.name⟩ : SinkEntry)).map SinkEntry.kind
      = (ps.map PlannedSink.kind).map SinkKind.text := by
    rw [List.map_map, List.map_map]
    rfl
  unfold byText
  rw [hkinds, eraseDups_map (fun _ _ => SinkKind.text_injective), List.map_map]
  refine List.map_congr_left fun k _ => ?_
  rw [Function.comp_apply, List.filter_map, List.map_map]
  refine congrArg (fun l : List PlannedSink => (k.text, l.map PlannedSink.name))
    (List.filter_congr fun p _ => ?_)
  exact decide_eq_decide.2 ⟨fun h => SinkKind.text_injective h, congrArg SinkKind.text⟩

theorem ofEntries_sinks (ps : List PlannedSink) :
    ofEntries (ps.map PlannedSink.text) = .ok (ofSinks ps) := by
  have hcolon : ∀ e ∈ ps.map fun p => (⟨p.kind.text, p.name⟩ : SinkEntry), ':' ∉ e.kind.toList := by
    intro e he
    obtain ⟨p, -, rfl⟩ := List.mem_map.1 he
    exact p.kind.colon_not_mem_text
  have hcollect := @collect_byText [] _ hcolon
  rw [List.map_map, List.nil_append, byText_sinks] at hcollect
  have htexts : ps.map PlannedSink.text
      = ps.map (SinkEntry.text ∘ fun p => ⟨p.kind.text, p.name⟩) := rfl
  rw [ofEntries_eq, htexts]
  show (collect (byText []) _).bind known = _
  rw [hcollect]
  exact known_map _ _

/-- These are the groups of a list of sinks. -/
structure Partition (ps : List PlannedSink) (gs : List SinkGroup) : Prop where
  /-- a kind has one group -/
  once : (gs.map kind).Nodup
  /-- each kind of a sink has one, and no other kind does -/
  kinds : ∀ k, k ∈ gs.map kind ↔ k ∈ ps.map PlannedSink.kind
  /-- the groups stand in the order of the first sinks of their kinds -/
  order : (gs.map kind).Pairwise fun j k =>
    (ps.map PlannedSink.kind).idxOf j < (ps.map PlannedSink.kind).idxOf k
  /-- the names of a kind stand as in the list, and as often -/
  names : ∀ g ∈ gs, g.names = (ps.filter fun p => p.kind = g.kind).map PlannedSink.name

section
variable {ps : List PlannedSink} {gs : List SinkGroup}

theorem map_kind_ofSinks (ps : List PlannedSink) :
    (ofSinks ps).map kind = (ps.map PlannedSink.kind).eraseDups := by
  unfold ofSinks
  rw [List.map_map]
  exact List.map_id _

theorem partition_ofSinks (ps : List PlannedSink) : Partition ps (ofSinks ps) where
  once := by
    rw [map_kind_ofSinks]
    exact nodup_eraseDups _
  kinds k := by rw [map_kind_ofSinks, List.mem_eraseDups]
  order := by
    rw [map_kind_ofSinks]
    exact pairwise_idxOf_eraseDups _
  names g hg := by
    obtain ⟨k, -, rfl⟩ := List.mem_map.1 hg
    rfl

/-- a list of sinks has no other groups -/
theorem Partition.eq_ofSinks (h : Partition ps gs) : gs = ofSinks ps := by
  calc gs
    _ = gs.map id := (List.map_id gs).symm
    _ = gs.map ((fun k => ⟨k, (ps.filter fun p => p.kind = k).map PlannedSink.name⟩) ∘ kind) :=
        List.map_congr_left fun g hg => congrArg (SinkGroup.mk g.kind) (h.names g hg)
    _ = (gs.map kind).map fun k => ⟨k, (ps.filter fun p => p.kind = k).map PlannedSink.name⟩ :=
        List.map_map.symm
    _ = ofSinks ps := by
        rw [eq_eraseDups h.once h.kinds h.order]
        rfl

/-- a sink of the list is in the group of its kind -/
theorem Partition.mem_iff (h : Partition ps gs) {p : PlannedSink} :
    p ∈ ps ↔ ∃ g ∈ gs, g.kind = p.kind ∧ p.name ∈ g.names := by
  constructor
  · intro hp
    obtain ⟨g, hg, hk⟩ := List.mem_map.1 ((h.kinds p.kind).2 (List.mem_map_of_mem hp))
    refine ⟨g, hg, hk, ?_⟩
    rw [h.names g hg]
    exact List.mem_map_of_mem (List.mem_filter.2 ⟨hp, decide_eq_true hk.symm⟩)
  · rintro ⟨g, hg, hk, hname⟩
    rw [h.names g hg] at hname
    obtain ⟨q, hq, hn⟩ := List.mem_map.1 hname
    obtain ⟨hmem, hkind⟩ := List.mem_filter.1 hq
    obtain rfl : q = p := PlannedSink.eq_of_kind_name ((of_decide_eq_true hkind).trans hk) hn
    exact hmem

theorem Partition.names_ne_nil (h : Partition ps gs) {g : SinkGroup} (hg : g ∈ gs) :
    g.names ≠ [] := by
  obtain ⟨p, hp, hk⟩ := List.mem_map.1 ((h.kinds g.kind).1 (List.mem_map_of_mem hg))
  have hname : p.name ∈ g.names := by
    rw [h.names g hg]
    exact List.mem_map_of_mem (List.mem_filter.2 ⟨hp, decide_eq_true hk⟩)
  exact List.ne_nil_of_mem hname

end

/-! ## what comes of a list of entries -/

/-- What comes of a list of entries: the first one without a colon is in the way; where all have one,
the first text before a colon that names no kind; otherwise they are the texts of sinks, which have
groups. -/
inductive Grouping (entries : List String) : Except Skip (List SinkGroup) → Prop
  | malformed {s : String} (first : First (fun s => ':' ∉ s.toList) entries s) :
      Grouping entries (.error ⟨.malformedSinkEntry, s⟩)
  | unknown {k : String} (colons : ∀ s ∈ entries, ':' ∈ s.toList)
      (first : First (fun k => ∀ kind : SinkKind, k ≠ kind.text) (entries.map SinkEntry.head) k) :
      Grouping entries (.error ⟨.unknownSinkKind, k⟩)
  | groups {ps : List PlannedSink} {gs : List SinkGroup} (texts : entries = ps.map PlannedSink.text)
      (partition : Partition ps gs) : Grouping entries (.ok gs)

section
variable {entries : List String} {r : Except Skip (List SinkGroup)}

theorem Grouping.ofEntries_eq (h : Grouping entries r) : ofEntries entries = r := by
  cases h with
  | malformed first => rw [SinkGroup.ofEntries_eq, collect_of_first first]; rfl
  | unknown colons first =>
    obtain ⟨es, rfl, hes⟩ := exists_entries colons
    have hheads : (es.map SinkEntry.text).map SinkEntry.head = es.map SinkEntry.kind := by
      rw [List.map_map]
      exact List.map_congr_left fun e he => SinkEntry.head_text (hes e he)
    have hkinds : (byText es).map Prod.fst = (es.map SinkEntry.kind).eraseDups := by
      unfold byText
      rw [List.map_map]
      exact List.map_id _
    have hcollect := @collect_byText [] _ hes
    rw [hheads] at first
    rw [List.nil_append] at hcollect
    rw [SinkGroup.ofEntries_eq]
    show (collect (byText []) _).bind known = _
    rw [hcollect]
    exact known_of_first (hkinds ▸ first.eraseDups)
  | groups texts partition => rw [texts, partition.eq_ofSinks, ofEntries_sinks]

theorem exists_grouping (entries : List String) : ∃ r, Grouping entries r := by
  by_cases hcolons : ∃ s ∈ entries, ':' ∉ s.toList
  · obtain ⟨s, hs⟩ := exists_first hcolons
    exact ⟨_, .malformed hs⟩
  have hcolons : ∀ s ∈ entries, ':' ∈ s.toList := by
    simpa using hcolons
  by_cases hkinds : ∃ k ∈ entries.map SinkEntry.head, ∀ kind : SinkKind, k ≠ kind.text
  · obtain ⟨k, hk⟩ := exists_first hkinds
    exact ⟨_, .unknown hcolons hk⟩
  have htexts : entries ∈ Set.range (List.map PlannedSink.text) := by
    rw [Set.range_list_map]
    intro s hs
    obtain ⟨e, rfl, he⟩ := SinkEntry.exists_text (hcolons s hs)
    by_contra hno
    refine hkinds ⟨_, List.mem_map_of_mem hs, fun kind hk => hno ⟨⟨kind, e.name⟩, ?_⟩⟩
    rw [PlannedSink.text_eq, ← hk, SinkEntry.head_text he]
  obtain ⟨ps, hps⟩ := htexts
  exact ⟨_, .groups hps.symm (partition_ofSinks ps)⟩

theorem ofEntries_eq_iff : ofEntries entries = r ↔ Grouping entries r := by
  refine ⟨fun h => ?_, Grouping.ofEntries_eq⟩
  obtain ⟨r', hr⟩ := exists_grouping entries
  rwa [← h, hr.ofEntries_eq]

end

end SinkGroup
end Linkage
