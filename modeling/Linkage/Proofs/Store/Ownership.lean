import Mathlib.Data.List.Forall2
import Linkage.Proofs.Store.Named

/-!
# Owners that are given and never taken away

* `Row.Keeps`, `Table.Keeps`, `Store.Keeps`   later rows are the earlier ones, and an owner that was
                                              there is still there;
* `Table.Marked`       a table in which the rows of a kind were given an owner;
* `Table.Marked.keeps` owners given to rows without one take nothing away.
-/

namespace Linkage

theorem exists_of_forall₂ {α β : Type} {R : α → β → Prop} {as : List α} {bs : List β}
    (h : List.Forall₂ R as bs) {a : α} (ha : a ∈ as) : ∃ b ∈ bs, R a b := by
  obtain ⟨i, hi, rfl⟩ := List.getElem_of_mem ha
  have hj : i < bs.length := h.length_eq ▸ hi
  exact ⟨bs[i], List.getElem_mem hj, h.get hi hj⟩

section
variable {δ : Type}

/-- The same row later: only an owner may have been given to it, if it had none. -/
structure Row.Keeps (a b : Row (Component δ)) : Prop where
  id : b.id = a.id
  val : b.val = a.val.own b.val.owner
  owner : a.val.owner ≠ "" → b.val.owner = a.val.owner

theorem Row.Keeps.refl (a : Row (Component δ)) : a.Keeps a := ⟨rfl, rfl, fun _ => rfl⟩

theorem Row.Keeps.trans {a b c : Row (Component δ)} (h : a.Keeps b) (h' : b.Keeps c) :
    a.Keeps c where
  id := h'.id.trans h.id
  val := by
    rw [h'.val, h.val]
    rfl
  owner hne := by
    have hb := h.owner hne
    rw [h'.owner (hb ▸ hne), hb]

theorem Row.Keeps.scope {a b : Row (Component δ)} (h : a.Keeps b) : b.val.scope = a.val.scope := by
  rw [h.val]
  rfl

theorem Row.Keeps.name {a b : Row (Component δ)} (h : a.Keeps b) : b.val.name = a.val.name := by
  rw [h.val]
  rfl

theorem Row.Keeps.detail {a b : Row (Component δ)} (h : a.Keeps b) :
    b.val.detail = a.val.detail := by
  rw [h.val]
  rfl

/-- a row whose owner has not changed is the same -/
theorem Row.Keeps.eq {a b : Row (Component δ)} (h : a.Keeps b) (ho : b.val.owner = a.val.owner) :
    b = a := by
  obtain ⟨i, v⟩ := a
  obtain ⟨j, w⟩ := b
  have h1 : j = i := h.id
  have h2 : w = v.own w.owner := h.val
  have h3 : w.owner = v.owner := ho
  rw [h3, Component.own_self] at h2
  rw [h1, h2]

/-- The same rows later. -/
def Table.Keeps (t u : Table (Component.key (δ := δ))) : Prop :=
  List.Forall₂ Row.Keeps t.rows u.rows

namespace Table

variable {t u v : Table (Component.key (δ := δ))}

theorem Keeps.refl (t : Table (Component.key (δ := δ))) : t.Keeps t :=
  List.forall₂_same.2 fun r _ => Row.Keeps.refl r

theorem Keeps.trans (h : t.Keeps u) (h' : u.Keeps v) : t.Keeps v := by
  unfold Keeps at *
  generalize t.rows = as at h
  generalize u.rows = bs at h h'
  generalize v.rows = cs at h'
  induction h generalizing cs with
  | nil =>
    cases h'
    exact .nil
  | cons hab _ ih =>
    cases h' with
    | cons hbc hrest => exact .cons (hab.trans hbc) (ih _ hrest)

theorem Keeps.exists (h : t.Keeps u) {a : Row (Component δ)} (ha : a ∈ t.rows) :
    ∃ b ∈ u.rows, a.Keeps b := exists_of_forall₂ h ha

theorem Keeps.exists_before (h : t.Keeps u) {b : Row (Component δ)} (hb : b ∈ u.rows) :
    ∃ a ∈ t.rows, a.Keeps b := exists_of_forall₂ (R := flip Row.Keeps) h.flip hb

/-- a row that has an owner stays as it is -/
theorem Keeps.mem_of_owned (h : t.Keeps u) {a : Row (Component δ)} (ha : a ∈ t.rows)
    (ho : a.val.owner ≠ "") : a ∈ u.rows := by
  obtain ⟨b, hb, hab⟩ := h.exists ha
  rw [← hab.eq (hab.owner ho)]
  exact hb

/-- the row that a row has become -/
def later (u : Table (Component.key (δ := δ))) (a : Row (Component δ)) : Row (Component δ) :=
  (u.named? a.val.scope a.val.name).getD a

theorem Keeps.later_mem (h : t.Keeps u) {a : Row (Component δ)} (ha : a ∈ t.rows) :
    u.later a ∈ u.rows ∧ a.Keeps (u.later a) := by
  obtain ⟨b, hb, hab⟩ := h.exists ha
  have : u.named? a.val.scope a.val.name = some b :=
    named?_eq_some_iff.2 ⟨hb, hab.scope, hab.name⟩
  unfold later
  rw [this]
  exact ⟨hb, hab⟩

/-- a name belongs to the same row later -/
theorem Keeps.named? (h : t.Keeps u) (scope : Scope) (name : String) :
    u.named? scope name = (t.named? scope name).map u.later := by
  cases hn : t.named? scope name with
  | some a =>
    obtain ⟨ha, hs, hm⟩ := named?_eq_some_iff.1 hn
    obtain ⟨hb, hab⟩ := h.later_mem ha
    exact named?_eq_some_iff.2 ⟨hb, hab.scope.trans hs, hab.name.trans hm⟩
  | none =>
    refine named?_eq_none_iff.2 fun b hb hs hm => ?_
    obtain ⟨a, ha, hab⟩ := h.exists_before hb
    exact named?_eq_none_iff.1 hn a ha (hab.scope.symm.trans hs) (hab.name.symm.trans hm)

/-- `u` is `t` after an owner was given to the rows that satisfy `p`. -/
def Marked (t u : Table (Component.key (δ := δ))) (p : Row (Component δ) → Prop)
    (owner : String) : Prop :=
  ∃ q : Row (Component δ) → Bool, u = Query.stamped t q owner ∧ ∀ r ∈ t.rows, q r = true ↔ p r

section
variable {p : Row (Component δ) → Prop} {owner : String}

theorem Marked.mem_iff (h : t.Marked u p owner) {x : Row (Component δ)} : x ∈ u.rows ↔
    ∃ a ∈ t.rows, p a ∧ x = ⟨a.id, a.val.own owner⟩ ∨ ¬p a ∧ x = a := by
  obtain ⟨q, rfl, hq⟩ := h
  show x ∈ (t.modify q _ _).rows ↔ _
  rw [mem_rows_modify]
  refine exists_congr fun a => and_congr_right fun ha => ?_
  rw [← hq a ha]
  cases hqa : q a with
  | true =>
    rw [change_of_pos hqa]
    simp [eq_comm]
  | false =>
    rw [change_of_neg (by simp [hqa])]
    simp [eq_comm]

/-- a row that neither was marked nor came from one that was is in both tables or in none -/
theorem Marked.mem_of_unmarked (h : t.Marked u p owner) {x : Row (Component δ)}
    (hold : x ∈ t.rows → ¬p x) (hnew : ∀ a ∈ t.rows, p a → x ≠ ⟨a.id, a.val.own owner⟩) :
    x ∈ u.rows ↔ x ∈ t.rows := by
  rw [h.mem_iff]
  constructor
  · rintro ⟨a, ha, ⟨hpa, hx⟩ | ⟨_, rfl⟩⟩
    · exact absurd hx (hnew a ha hpa)
    · exact ha
  · intro hx
    exact ⟨x, hx, .inr ⟨hold hx, rfl⟩⟩

theorem Marked.congr {q : Row (Component δ) → Prop} (h : t.Marked u p owner)
    (hpq : ∀ x ∈ t.rows, p x ↔ q x) : t.Marked u q owner := by
  obtain ⟨f, hu, hf⟩ := h
  exact ⟨f, hu, fun x hx => (hf x hx).trans (hpq x hx)⟩

/-- tables in which the same rows were given the same owner are equal -/
theorem Marked.unique {q : Row (Component δ) → Prop} (h : t.Marked u p owner)
    (h' : t.Marked v q owner) (hpq : ∀ x ∈ t.rows, p x ↔ q x) : u = v := by
  obtain ⟨f, rfl, hf⟩ := h
  obtain ⟨g, rfl, hg⟩ := h'
  refine Query.stamped_congr fun x hx => ?_
  rw [Bool.eq_iff_iff, hf x hx, hg x hx, hpq x hx]

theorem Marked.keeps (h : t.Marked u p owner) (hp : ∀ r ∈ t.rows, p r → r.val.owner = "") :
    t.Keeps u := by
  obtain ⟨q, rfl, hq⟩ := h
  show List.Forall₂ Row.Keeps t.rows (t.rows.map (change q _))
  rw [List.forall₂_map_right_iff, List.forall₂_same]
  intro r hr
  cases hqr : q r with
  | true =>
    rw [change_of_pos hqr]
    exact ⟨rfl, rfl, fun ho => absurd (hp r hr ((hq r hr).1 hqr)) ho⟩
  | false =>
    rw [change_of_neg (by simp [hqr])]
    exact Row.Keeps.refl r

/-- a row that has another owner later is one of those that were given it -/
theorem Marked.owner_later (h : t.Marked u p owner) (hp : ∀ r ∈ t.rows, p r → r.val.owner = "")
    {a : Row (Component δ)} (ha : a ∈ t.rows) :
    p a ∧ (u.later a).val.owner = owner ∨ ¬p a ∧ u.later a = a := by
  obtain ⟨hb, hab⟩ := (h.keeps hp).later_mem ha
  obtain ⟨c, hc, hx⟩ := h.mem_iff.1 hb
  have hca : c = a := by
    rcases hx with ⟨_, hx⟩ | ⟨_, hx⟩
    · exact t.eq_of_id hc ha (by rw [← hab.id, hx])
    · exact t.eq_of_id hc ha (by rw [← hab.id, hx])
  subst hca
  rcases hx with ⟨hpc, hx⟩ | ⟨hpc, hx⟩
  · refine .inl ⟨hpc, ?_⟩
    rw [hx]
    rfl
  · exact .inr ⟨hpc, hx⟩

end

end Table

end

/-- The same components later, and the same data sources. -/
structure Store.Keeps (s u : Store) : Prop where
  buses : s.buses.Keeps u.buses
  sinks : ∀ k, (s.sinks.get k).Keeps (u.sinks.get k)
  resultTables : s.resultTables.Keeps u.resultTables
  sources : u.sources = s.sources

theorem Store.Keeps.refl (s : Store) : s.Keeps s :=
  ⟨.refl _, fun _ => .refl _, .refl _, rfl⟩

theorem Store.Keeps.trans {s u v : Store} (h : s.Keeps u) (h' : u.Keeps v) : s.Keeps v where
  buses := h.buses.trans h'.buses
  sinks k := (h.sinks k).trans (h'.sinks k)
  resultTables := h.resultTables.trans h'.resultTables
  sources := h'.sources.trans h.sources

end Linkage
