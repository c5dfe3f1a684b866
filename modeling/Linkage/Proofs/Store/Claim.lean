import Linkage.Proofs.Store.Insertion
import Linkage.Proofs.Store.Ownership

/-!
# Components that the data-buses of links claim

A data-bus claims components by their names; a link that owns the data-bus owns them.

* `Table.Claimed`            a link owns those components that a data-bus of it claims, and no others;
* `Table.Claimed.of_grows`   this stays true when components are added,
* `Table.Claimed.of_marked`  and when a data-bus is given to a link with all that it claims.
-/

namespace Linkage.Table

section
variable {δ : Type} {t u : Table (Component.key (δ := δ))}
  {buses buses' : Table (Component.key (δ := Feed))} {claims claims' : Bus → String → Prop}

/-- A link owns the components that a data-bus of it claims, and no others; they are all there. -/
structure Claimed (t : Table (Component.key (δ := δ))) (buses : Table (Component.key (δ := Feed)))
    (claims : Bus → String → Prop) : Prop where
  there : ∀ b ∈ buses.rows, b.val.owner ≠ "" → ∀ n, claims b.val n →
    ∃ x, t.named? b.val.scope n = some x
  owner_iff : ∀ x ∈ t.rows, ∀ l, l ≠ "" → (x.val.owner = l ↔
    ∃ b ∈ buses.rows, b.val.scope = x.val.scope ∧ b.val.owner = l ∧ claims b.val x.val.name)

theorem claimed_empty : Claimed (empty : Table (Component.key (δ := δ))) empty claims where
  there b hb := by cases hb
  owner_iff x hx := by cases hx

/-- a component that is new has a name that no data-bus of a link claims -/
theorem Claimed.of_grows (h : t.Claimed buses claims) (ht : t.Grows u) (hb : buses.Grows buses')
    (hc : ∀ b ∈ buses.rows, b.val.owner ≠ "" → ∀ n, claims' b.val n ↔ claims b.val n) :
    u.Claimed buses' claims' where
  there b hbm ho n hn := by
    have hbm := (hb.mem_iff ho).1 hbm
    obtain ⟨x, hx⟩ := h.there b hbm ho n ((hc b hbm ho n).1 hn)
    exact ⟨x, ht.named? hx⟩
  owner_iff x hx l hl := by
    have hbuses : (∃ b ∈ buses'.rows, b.val.scope = x.val.scope ∧ b.val.owner = l ∧
          claims' b.val x.val.name) ↔
        ∃ b ∈ buses.rows, b.val.scope = x.val.scope ∧ b.val.owner = l ∧
          claims b.val x.val.name := by
      constructor
      · rintro ⟨b, hbm, hs, ho, hn⟩
        have hne : b.val.owner ≠ "" := ho.symm ▸ hl
        have hbm := (hb.mem_iff hne).1 hbm
        exact ⟨b, hbm, hs, ho, (hc b hbm hne _).1 hn⟩
      · rintro ⟨b, hbm, hs, ho, hn⟩
        exact ⟨b, hb.mem b hbm, hs, ho, (hc b hbm (ho.symm ▸ hl) _).2 hn⟩
    rw [hbuses]
    rcases ht.fresh x hx with hx | ⟨howner, hnone⟩
    · exact h.owner_iff x hx l hl
    · constructor
      · intro ho
        exact absurd (ho.symm.trans howner) hl
      · rintro ⟨b, hbm, hs, ho, hn⟩
        obtain ⟨y, hy⟩ := h.there b hbm (ho.symm ▸ hl) _ hn
        rw [hs, hnone] at hy
        cases hy

/-- A data-bus is given to a link, and with it the components that it claims; none of them had an
owner. -/
theorem Claimed.of_marked {p : Row (Component δ) → Prop} {owner : String} {b : Row Bus}
    (h : t.Claimed buses claims) (ht : t.Marked u p owner)
    (hb : buses.Marked buses' (fun x => x = b) owner)
    (hp : ∀ x ∈ t.rows, p x ↔ x.val.scope = b.val.scope ∧ claims b.val x.val.name)
    (hfree : ∀ x ∈ t.rows, p x → x.val.owner = "") (hbm : b ∈ buses.rows) (hbo : b.val.owner = "")
    (hthere : ∀ n, claims b.val n → ∃ x, t.named? b.val.scope n = some x)
    (hc : ∀ c n, claims' c n ↔ claims c n) (hown : ∀ c o n, claims (c.own o) n ↔ claims c n) :
    u.Claimed buses' claims' where
  there c hc' ho n hn := by
    rw [hc] at hn
    have hkeep : ∀ s n x, t.named? s n = some x → ∃ y, u.named? s n = some y := by
      intro s n x hx
      rw [(ht.keeps hfree).named?, hx]
      exact ⟨_, rfl⟩
    obtain ⟨a, ha, ⟨rfl, rfl⟩ | ⟨_, rfl⟩⟩ := hb.mem_iff.1 hc'
    · obtain ⟨x, hx⟩ := hthere n ((hown _ _ _).1 hn)
      exact hkeep _ _ x hx
    · obtain ⟨x, hx⟩ := h.there c ha ho n hn
      exact hkeep _ _ x hx
  owner_iff x hx l hl := by
    obtain ⟨a, ha, ⟨hpa, rfl⟩ | ⟨hpa, rfl⟩⟩ := ht.mem_iff.1 hx
    · constructor
      · intro ho
        have ho : owner = l := ho
        obtain ⟨hs, hn⟩ := (hp a ha).1 hpa
        refine ⟨⟨b.id, b.val.own owner⟩, hb.mem_iff.2 ⟨b, hbm, .inl ⟨rfl, rfl⟩⟩, hs.symm, ho, ?_⟩
        exact (hc _ _).2 ((hown _ _ _).2 hn)
      · rintro ⟨c, hcm, hs, ho, hn⟩
        obtain ⟨d, hd, ⟨rfl, rfl⟩ | ⟨_, rfl⟩⟩ := hb.mem_iff.1 hcm
        · exact ho
        · have := (h.owner_iff a ha l hl).2 ⟨c, hd, hs, ho, (hc _ _).1 hn⟩
          exact absurd (this.symm.trans (hfree a ha hpa)) hl
    · rw [h.owner_iff x ha l hl]
      constructor
      · rintro ⟨c, hcm, hs, ho, hn⟩
        have hne : c ≠ b := by
          rintro rfl
          exact hl (ho.symm.trans hbo)
        exact ⟨c, hb.mem_iff.2 ⟨c, hcm, .inr ⟨hne, rfl⟩⟩, hs, ho, (hc _ _).2 hn⟩
      · rintro ⟨c, hcm, hs, ho, hn⟩
        rw [hc] at hn
        obtain ⟨d, hd, ⟨rfl, rfl⟩ | ⟨_, rfl⟩⟩ := hb.mem_iff.1 hcm
        · exact absurd ((hp x ha).2 ⟨hs.symm, (hown _ _ _).1 hn⟩) hpa
        · exact ⟨c, hd, hs, ho, hn⟩

/-- two data-buses of different links claim nothing in common -/
theorem Claimed.owner_eq (h : t.Claimed buses claims) {a b : Row Bus} (ha : a ∈ buses.rows)
    (hb : b ∈ buses.rows) (hao : a.val.owner ≠ "") (hbo : b.val.owner ≠ "")
    (hs : a.val.scope = b.val.scope) {n : String} (han : claims a.val n) (hbn : claims b.val n) :
    a.val.owner = b.val.owner := by
  obtain ⟨x, hx⟩ := h.there a ha hao n han
  obtain ⟨hxm, hxs, rfl⟩ := named?_eq_some_iff.1 hx
  have h1 := (h.owner_iff x hxm _ hao).2 ⟨a, ha, hxs.symm, rfl, han⟩
  have h2 := (h.owner_iff x hxm _ hbo).2 ⟨b, hb, (hxs.trans hs).symm, rfl, hbn⟩
  exact h1.symm.trans h2

end

end Linkage.Table
