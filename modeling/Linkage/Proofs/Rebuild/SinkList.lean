import Linkage.Proofs.Json.Values
import Linkage.Proofs.Rebuild.Grouping

/-!
# The sink list of a data-bus

* `Component.Lists`       a data-bus lists a sink when the entry `kind:name` stands in its sink list;
* `Component.HasEntries`  the texts that a sink list is written with;
* `SinkGroup.lists_iff`   the groups made of a sink list hold the listed sinks and no others;
* `entries_grouped`       the groups of a sink list, or the entry that is in the way.
-/

namespace Linkage

namespace Json

theorem eq_map_of_mapM_text? {xs : List Json} {ss : List String} (h : xs.mapM text? = some ss) :
    xs = ss.map str := by
  induction xs generalizing ss with
  | nil =>
    cases h
    rfl
  | cons x xs ih =>
    rw [List.mapM_cons] at h
    obtain ⟨t, ht, h⟩ := Option.bind_eq_some_iff.1 h
    obtain ⟨ts, hts, h⟩ := Option.bind_eq_some_iff.1 h
    cases h
    cases x with
    | str a =>
      cases ht
      rw [ih hts, List.map_cons]
    | _ => cases ht

theorem list?_text?_eq_some_iff {v : Json} {ss : List String} :
    v.list? text? = some ss ↔ v = texts ss := by
  constructor
  · intro h
    cases v with
    | arr xs => exact congrArg arr (eq_map_of_mapM_text? h)
    | _ => cases h
  · rintro rfl
    exact list?_texts ss

end Json

/-- The entry `kind:name` stands in the sink list of a data-bus. -/
def Component.Lists (b : Bus) (k : SinkKind) (name : String) : Prop :=
  ∃ entries, b.sinkEntries = .ok entries ∧ (PlannedSink.mk k name).text ∈ entries

namespace Component

/-- The sink list is a JSON array of these texts. -/
def HasEntries (b : Bus) (entries : List String) : Prop :=
  Json.parse? b.detail.sinkList = some (.texts entries)

theorem hasEntries_iff {b : Bus} {entries : List String} :
    b.HasEntries entries ↔ b.sinkEntries = .ok entries := by
  have hparse : b.HasEntries entries ↔
      (Json.parse? b.detail.sinkList).bind (Json.list? Json.text?) = some entries := by
    unfold HasEntries
    rw [Option.bind_eq_some_iff]
    constructor
    · intro h
      exact ⟨_, h, Json.list?_texts entries⟩
    · intro ⟨v, hv, hlist⟩
      rw [hv, Json.list?_text?_eq_some_iff.1 hlist]
  rw [hparse]
  unfold sinkEntries readListColumn
  cases (Json.parse? b.detail.sinkList).bind (Json.list? Json.text?) with
  | none => exact ⟨nofun, nofun⟩
  | some ss => rw [Option.some.injEq, Except.ok.injEq]

end Component

namespace SinkGroup

variable {b : Bus} {gs : List SinkGroup}

theorem ofBus_eq_iff {entries : List String} (h : b.HasEntries entries)
    {r : Except Skip (List SinkGroup)} : ofBus b = r ↔ Grouping entries r := by
  rw [← ofEntries_eq_iff]
  unfold ofBus
  rw [Component.hasEntries_iff.1 h]

/-- a sink list that has groups is that of sinks -/
theorem exists_listed (h : ofBus b = .ok gs) :
    ∃ ps, b.sinkEntries = .ok (ps.map PlannedSink.text) ∧ Partition ps gs := by
  cases hb : b.sinkEntries with
  | error e =>
    unfold ofBus at h
    rw [hb] at h
    cases h
  | ok entries =>
    cases (ofBus_eq_iff (Component.hasEntries_iff.2 hb)).1 h with
    | groups texts partition => exact ⟨_, congrArg Except.ok texts, partition⟩

/-- the groups of a sink list hold the listed sinks and no others -/
theorem lists_iff (h : ofBus b = .ok gs) {k : SinkKind} {n : String} :
    b.Lists k n ↔ ∃ g ∈ gs, g.kind = k ∧ n ∈ g.names := by
  obtain ⟨ps, hb, hgroups⟩ := exists_listed h
  have hlists : b.Lists k n ↔ (⟨k, n⟩ : PlannedSink) ∈ ps := by
    unfold Component.Lists
    simp only [hb, Except.ok.injEq, exists_eq_left']
    exact List.mem_map_of_injective PlannedSink.text_injective
  rw [hlists]
  exact hgroups.mem_iff

/-- a group has a name, because there is none without an entry -/
theorem ne_nil_ofBus (h : ofBus b = .ok gs) : ∀ g ∈ gs, g.names ≠ [] := by
  obtain ⟨ps, -, hgroups⟩ := exists_listed h
  exact fun g hg => hgroups.names_ne_nil hg

end SinkGroup

/-- A data-bus whose sink list is that of any sinks has groups: one for each kind that occurs, in the
order of the first sinks of the kinds, with the names of the kind as they stand in the list.  For a list
of any entries, the first without a colon is in the way, if there is one; if there is none, it is the
first text before a colon that names no kind; and if there is none of these either, the entries are
those of sinks. -/
theorem entries_grouped {b : Bus} {entries : List String} (h : b.HasEntries entries) :
    (∀ ps, entries = ps.map PlannedSink.text →
      ∃ gs, SinkGroup.ofBus b = .ok gs ∧ SinkGroup.Partition ps gs) ∧
    ∀ r, SinkGroup.ofBus b = r ↔ SinkGroup.Grouping entries r := by
  refine ⟨fun ps hps => ?_, fun _ => SinkGroup.ofBus_eq_iff h⟩
  have hgroups := SinkGroup.partition_ofSinks ps
  exact ⟨_, (SinkGroup.ofBus_eq_iff h).2 (.groups hps hgroups), hgroups⟩

/-- A data-bus with a sink list. -/
def Component.listing (entries : List String) : Bus :=
  ⟨⟨"t", "n"⟩, "bus", "", ⟨7, listColumn entries⟩⟩

/-- Sinks of two kinds: one of them stands twice and has a colon in its name, the other has no name. -/
def PlannedSink.repeated : List PlannedSink := [⟨.doris, "a:b"⟩, ⟨.elastic, ""⟩, ⟨.doris, "a:b"⟩]

theorem entries_grouped_repeated :
    let entries := PlannedSink.repeated.map PlannedSink.text
    let unknown := entries ++ ["Unknown:x", "Other:x"]
    let malformed := unknown ++ ["no-separator"]
    (Component.listing entries).HasEntries entries ∧
    (Component.listing unknown).HasEntries unknown ∧
    (Component.listing malformed).HasEntries malformed ∧
    SinkGroup.ofBus (Component.listing entries)
      = .ok [⟨.doris, ["a:b", "a:b"]⟩, ⟨.elastic, [""]⟩] ∧
    SinkGroup.ofBus (Component.listing unknown) = .error ⟨.unknownSinkKind, "Unknown"⟩ ∧
    SinkGroup.ofBus (Component.listing malformed)
      = .error ⟨.malformedSinkEntry, "no-separator"⟩ := by
  intro entries unknown malformed
  have hentries : (Component.listing entries).HasEntries entries := Json.parse?_texts _
  have hunknown : (Component.listing unknown).HasEntries unknown := Json.parse?_texts _
  have hmalformed : (Component.listing malformed).HasEntries malformed := Json.parse?_texts _
  have hgroups : SinkGroup.Partition PlannedSink.repeated
      [⟨.doris, ["a:b", "a:b"]⟩, ⟨.elastic, [""]⟩] := SinkGroup.partition_ofSinks _
  have hkind : First (fun k => ∀ kind : SinkKind, k ≠ kind.text) (unknown.map SinkEntry.head)
      "Unknown" := by
    refine ⟨["DorisBinding", "ElasticSearchBinding", "DorisBinding"], ["Other"], by decide, ?_, ?_⟩
    · intro kind
      cases kind <;> decide
    · intro k hk hno
      simp only [List.mem_cons, List.not_mem_nil, or_false] at hk
      rcases hk with rfl | rfl | rfl
      · exact hno .doris rfl
      · exact hno .elastic rfl
      · exact hno .doris rfl
  have hcolon : First (fun s => ':' ∉ s.toList) malformed "no-separator" :=
    ⟨unknown, [], rfl, by decide, by decide⟩
  exact ⟨hentries, hunknown, hmalformed, ((entries_grouped hentries).2 _).2 (.groups rfl hgroups),
    ((entries_grouped hunknown).2 _).2 (.unknown (by decide) hkind),
    ((entries_grouped hmalformed).2 _).2 (.malformed hcolon)⟩

end Linkage
