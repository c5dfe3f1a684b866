import Mathlib.Data.List.Forall2
import Linkage.Proofs.Json.Records
import Linkage.Proofs.Json.Values

/-!
# The order of members

A value is read by the names of its members, so it does not matter in which order they stand.  A
reader gets them in the order in which they were written, or in the order of their names.

* `Json.Rearranged`            the same value, the members of its objects in another order;
* `Json.ReadAs`                a value that is read as one thing, in any order;
* `Record.Bears`               the members that a rearranged object has;
* `ReadAs.list`, `ReadAs.record`   arrays and objects are read so when their parts are;
* `Json.ReadsBack`             all that is written is read back.
-/

namespace Linkage

namespace Json

/-- The second value is the first one with the members of its objects in another order. -/
inductive Rearranged : Json → Json → Prop where
  | same (v : Json) : Rearranged v v
  | items {xs ys : List Json} (h : List.Forall₂ Rearranged xs ys) : Rearranged (arr xs) (arr ys)
  /-- the members are rearranged one by one, and then put in any order -/
  | members {es fs gs : List (String × Json)} (hkeys : es.map Prod.fst = fs.map Prod.fst)
      (h : List.Forall₂ Rearranged (es.map Prod.snd) (fs.map Prod.snd)) (hperm : fs.Perm gs) :
      Rearranged (obj es) (obj gs)

/-- A value that is put in order by names is rearranged. -/
def Ordered (v : Json) : Prop := v.Rearranged v.canonical

/-- The value is read as `a`, in whatever order its members stand, and can be put in order. -/
structure ReadAs {α : Type} (read : Json → Option α) (v : Json) (a : α) : Prop where
  read : ∀ w, v.Rearranged w → read w = some a
  ordered : v.Ordered

section
variable {v w : Json} {xs : List Json} {es : List (String × Json)}

theorem Rearranged.eq_of_scalar (h : v.Rearranged w) (hv : v.depth = 0) : w = v := by
  cases h with
  | same => rfl
  | items => cases hv
  | members => cases hv

theorem canonical_of_scalar (hv : v.depth = 0) : v.canonical = v := by
  cases v with
  | arr => cases hv
  | obj => cases hv
  | _ => rfl

theorem Rearranged.exists_items (h : (arr xs).Rearranged w) :
    ∃ ys, w = arr ys ∧ List.Forall₂ Rearranged xs ys := by
  cases h with
  | same => exact ⟨xs, rfl, List.forall₂_same.2 fun x _ => .same x⟩
  | items h => exact ⟨_, rfl, h⟩

/-- the members of a rearranged object, each with its name -/
theorem Rearranged.exists_members (h : (obj es).Rearranged w) :
    ∃ fs gs : List (String × Json), w = obj gs ∧
      List.Forall₂ (fun e f => e.1 = f.1 ∧ e.2.Rearranged f.2) es fs ∧ fs.Perm gs := by
  cases h with
  | same => exact ⟨es, es, rfl, List.forall₂_same.2 fun e _ => ⟨rfl, .same e.2⟩, .refl es⟩
  | @members _ fs gs hkeys h hperm =>
    refine ⟨fs, gs, rfl, ?_, hperm⟩
    have hnames : List.Forall₂ Eq (es.map Prod.fst) (fs.map Prod.fst) := by
      rw [List.forall₂_eq_eq_eq]
      exact hkeys
    rw [List.forall₂_map_left_iff, List.forall₂_map_right_iff] at hnames h
    exact hnames.mp (fun _ _ hname hvalue => ⟨hname, hvalue⟩) h

/-! ## putting in order -/

theorem ordered_of_scalar (hv : v.depth = 0) : v.Ordered := by
  unfold Ordered
  rw [canonical_of_scalar hv]
  exact .same v

@[simp] theorem ordered_str (s : String) : (str s).Ordered := ordered_of_scalar rfl

@[simp] theorem ordered_bool (b : Bool) : (bool b).Ordered := ordered_of_scalar rfl

@[simp] theorem ordered_nat (n : Nat) : (nat n).Ordered := ordered_of_scalar rfl

theorem ordered_arr (h : ∀ x ∈ xs, x.Ordered) : (arr xs).Ordered := by
  unfold Ordered
  rw [canonical, canonicalItems_eq]
  exact .items (List.forall₂_map_right_iff.2 (List.forall₂_same.2 h))

theorem ordered_obj (hkeys : (es.map Prod.fst).Nodup) (h : ∀ e ∈ es, e.2.Ordered) :
    (obj es).Ordered := by
  have hnames : (es.map fun e => (e.1, e.2.canonical)).map Prod.fst = es.map Prod.fst := by
    rw [List.map_map]
    rfl
  unfold Ordered
  rw [canonical, canonicalMembers_eq]
  refine .members hnames.symm ?_ (Dict.perm_ofList (by rwa [hnames]))
  rw [List.map_map]
  exact List.forall₂_map_left_iff.2 (List.forall₂_map_right_iff.2 (List.forall₂_same.2 h))

end

end Json

/-! ## members of a record -/

namespace Record

variable {r : Record Json} {es : List (String × Json)} {α : Type}

/-- The record has the members `es`, rearranged, and no others. -/
structure Bears (r : Record Json) (es : List (String × Json)) : Prop where
  present : ∀ e ∈ es, ∃ w, r.find? e.1 = some w ∧ e.2.Rearranged w
  absent : ∀ name, name ∉ es.map Prod.fst → r.find? name = none

theorem Bears.required (h : r.Bears es) {name : String} {v : Json} {read : Json → Option α} {a : α}
    (hmem : (name, v) ∈ es) (hv : Json.ReadAs read v a) : r.required name read = some a := by
  obtain ⟨w, hfind, hw⟩ := h.present _ hmem
  unfold Record.required
  rw [hfind]
  exact hv.read w hw

theorem Bears.defaulted (h : r.Bears es) {name : String} {v : Json} {read : Json → Option α}
    {a : α} (hmem : (name, v) ∈ es) (hv : Json.ReadAs read v a) (b : α) :
    r.defaulted name b read = some a := by
  obtain ⟨w, hfind, hw⟩ := h.present _ hmem
  unfold Record.defaulted
  rw [hfind]
  exact hv.read w hw

theorem Bears.defaulted_absent (h : r.Bears es) {name : String} (hname : name ∉ es.map Prod.fst)
    (b : α) (read : Json → Option α) : r.defaulted name b read = some b := by
  unfold Record.defaulted
  rw [h.absent name hname]

theorem of?_eq_some (hkeys : (es.map Prod.fst).Nodup) (names : List String) :
    of? names (Json.obj es) = some ⟨es, false⟩ := by
  rw [of?_obj, if_pos]
  exact List.all_eq_true.2 fun n _ => decide_eq_true (countP_le_one hkeys n)

/-- an object without repeated names has its members in any order -/
theorem exists_bears {w : Json} (hkeys : (es.map Prod.fst).Nodup)
    (h : (Json.obj es).Rearranged w) :
    ∃ gs, w = .obj gs ∧ (gs.map Prod.fst).Nodup ∧ (⟨gs, false⟩ : Record Json).Bears es := by
  obtain ⟨fs, gs, rfl, hmembers, hperm⟩ := h.exists_members
  have hnames : es.map Prod.fst = fs.map Prod.fst := by
    rw [← List.forall₂_eq_eq_eq, List.forall₂_map_left_iff, List.forall₂_map_right_iff]
    exact hmembers.imp fun _ _ h => h.1
  have hsame := hperm.map Prod.fst
  have hnodup : (gs.map Prod.fst).Nodup := by
    rw [← hsame.nodup_iff, ← hnames]
    exact hkeys
  -- a name is not repeated, so it is found with the one value that it has
  refine ⟨gs, rfl, hnodup, fun e he => ?_, fun name hname => ?_⟩
  · obtain ⟨i, hi, rfl⟩ := List.getElem_of_mem he
    have hj : i < fs.length := hmembers.length_eq ▸ hi
    obtain ⟨hname, hvalue⟩ := hmembers.get hi hj
    refine ⟨fs[i].2, (find?_eq_some_iff (countP_le_one hnodup _)).2 (hperm.mem_iff.1 ?_), hvalue⟩
    exact List.mem_of_getElem (Prod.ext hname.symm rfl)
  · refine Option.eq_none_iff_forall_ne_some.2 fun w hfind => hname ?_
    rw [hnames, hsame.mem_iff]
    exact List.mem_map_of_mem ((find?_eq_some_iff (countP_le_one hnodup name)).1 hfind)

end Record

namespace Json

/-- where no name is repeated, the last member of a name is the only one -/
theorem last?_eq_some {es : List (String × Json)} (hkeys : (es.map Prod.fst).Nodup) {k : String}
    {v : Json} (h : (k, v) ∈ es) : last? k es = some v := by
  have hget := Dict.get?_eq_some_iff.2 ((Dict.perm_ofList hkeys).mem_iff.1 h)
  rw [Dict.ofList, get?_putAll, Dict.get?_empty, Option.or_none] at hget
  exact hget

theorem mapM_of_forall₂ {α β : Type} {f : α → Option β} {xs : List α} {ys : List β}
    (h : List.Forall₂ (fun x y => f x = some y) xs ys) : xs.mapM f = some ys := by
  induction h with
  | nil => rfl
  | cons hx _ ih =>
    rw [List.mapM_cons, hx, ih]
    rfl

namespace ReadAs

variable {α β : Type} {read : Json → Option α} {a : α} {es : List (String × Json)}

/-- what is no array or object has no members to be put in another order -/
theorem scalar {v : Json} (hv : v.depth = 0) (h : read v = some a) : ReadAs read v a where
  read w hw := by rwa [hw.eq_of_scalar hv]
  ordered := ordered_of_scalar hv

theorem str (s : String) : ReadAs text? (.str s) s := scalar rfl rfl

theorem bool (b : Bool) : ReadAs bool? (.bool b) b := scalar rfl rfl

theorem nat (n : Nat) : ReadAs nat? (.nat n) n := scalar rfl rfl

theorem name {held : Bool} {ofText? : String → Option α} {s : String} (h : ofText? s = some a) :
    ReadAs (constant? held ofText?) (.str s) a := scalar rfl h

theorem list {write : α → Json} {as : List α} (h : ∀ a ∈ as, ReadAs read (write a) a) :
    ReadAs (list? read) (arr (as.map write)) as where
  read w hw := by
    obtain ⟨ys, rfl, hys⟩ := hw.exists_items
    rw [List.forall₂_map_left_iff] at hys
    have hread : List.Forall₂ (fun a y => read y = some a) as ys :=
      ((List.forall₂_and_left as ys).2 ⟨h, hys⟩).imp fun a y ⟨ha, hy⟩ => ha.read y hy
    exact mapM_of_forall₂ hread.flip
  ordered := by
    refine ordered_arr fun x hx => ?_
    obtain ⟨a, ha, rfl⟩ := List.mem_map.1 hx
    exact (h a ha).ordered

theorem texts (ss : List String) : ReadAs (list? text?) (texts ss) ss :=
  list fun s _ => str s

theorem record (hkeys : (es.map Prod.fst).Nodup) (hordered : ∀ e ∈ es, e.2.Ordered)
    (h : ∀ w r, (∀ names, Record.of? names w = some r) → r.Bears es → read w = some a) :
    ReadAs read (obj es) a where
  read w hw := by
    obtain ⟨gs, rfl, hnodup, hbears⟩ := Record.exists_bears hkeys hw
    exact h _ _ (Record.of?_eq_some hnodup) hbears
  ordered := ordered_obj hkeys hordered

end ReadAs

/-- What is written of a thing is read as this thing. -/
structure ReadsBack {α : Type} (write : α → Json) (read : Json → Option α) : Prop where
  written : ∀ a, read (write a) = some a
  /-- with the members in the order of their names -/
  ordered : ∀ a, read (write a).canonical = some a
  rearranged : ∀ a w, (write a).Rearranged w → read w = some a
  /-- a value that is read, written and read again is what it was read as -/
  again : ∀ v, ((read v).bind fun a => read (write a)) = read v

theorem ReadsBack.of_readAs {α : Type} {write : α → Json} {read : Json → Option α}
    (h : ∀ a, ReadAs read (write a) a) : ReadsBack write read := by
  have hwritten (a : α) : read (write a) = some a := (h a).read _ (.same _)
  refine ⟨hwritten, fun a => (h a).read _ (h a).ordered, fun a => (h a).read, fun v => ?_⟩
  cases read v with
  | none => rfl
  | some a => exact hwritten a

end Json

end Linkage
