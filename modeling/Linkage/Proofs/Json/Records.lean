import Mathlib.Data.List.Nodup
import Linkage.Record

/-!
# Members of a record

* `Record.find?_eq_some_iff`     the value of a name that is not repeated;
* `Record.of?_eq_some_iff`       what is a record;
* `Record.required_eq_some_iff` and its siblings   what a member of some kind is read as.
-/

namespace Linkage

namespace Record

variable {α β : Type} {r : Record α} {es : List (String × α)} {byPlace : Bool} {name : String}

theorem find?_eq_some_iff (h : r.members.countP (fun e => e.1 = name) ≤ 1) {v : α} :
    r.find? name = some v ↔ (name, v) ∈ r.members := by
  obtain ⟨es, byPlace⟩ := r
  unfold find?
  simp only at h ⊢
  induction es with
  | nil => exact ⟨nofun, nofun⟩
  | cons e es ih =>
    obtain ⟨n, w⟩ := e
    by_cases hn : n = name
    · rw [List.countP_cons_of_pos (by simpa using hn)] at h
      have hnone : es.countP (fun e => e.1 = name) = 0 := by omega
      have hrest : (name, v) ∉ es := fun hv =>
        List.countP_eq_zero.1 hnone _ hv (decide_eq_true rfl)
      rw [List.find?_cons_of_pos (by simpa using hn), List.mem_cons, or_iff_left hrest]
      simp [hn, eq_comm]
    · rw [List.countP_cons_of_neg (by simpa using hn)] at h
      rw [List.find?_cons_of_neg (by simpa using hn), ih h, List.mem_cons]
      simp [Ne.symm hn]

theorem eq_of_mem {v w : α} (h : es.countP (fun e => e.1 = name) ≤ 1) (hv : (name, v) ∈ es)
    (hw : (name, w) ∈ es) : v = w := by
  have hfind {u : α} := @find?_eq_some_iff α ⟨es, false⟩ name h u
  exact Option.some.inj ((hfind.2 hv).symm.trans (hfind.2 hw))

theorem countP_le_one (h : (es.map Prod.fst).Nodup) (name : String) :
    es.countP (fun e => e.1 = name) ≤ 1 := by
  have hcount := List.nodup_iff_count_le_one.1 h name
  rw [List.count_eq_countP, List.countP_map] at hcount
  exact hcount

section
variable (h : r.members.countP (fun e => e.1 = name) ≤ 1)
include h

theorem required_eq_some_iff {read : α → Option β} {b : β} :
    r.required name read = some b ↔ ∃ v, (name, v) ∈ r.members ∧ read v = some b := by
  unfold required
  rw [Option.bind_eq_some_iff]
  exact exists_congr fun v => and_congr_left fun _ => find?_eq_some_iff h

theorem defaulted_eq_some_iff {b c : β} {read : α → Option β} :
    r.defaulted name b read = some c ↔
      (∃ v, (name, v) ∈ r.members ∧ read v = some c) ∨ c = b ∧ ∀ v, (name, v) ∉ r.members := by
  have hfind (v : α) : r.find? name = some v ↔ (name, v) ∈ r.members := find?_eq_some_iff h
  unfold defaulted
  simp only [← hfind]
  cases r.find? name with
  | none => simp [eq_comm]
  | some v => simp

theorem optional_eq_some_iff [Written α] {c : Option β} {read : α → Option β} :
    r.optional name read = some c ↔
      (∃ v, (name, v) ∈ r.members ∧ nullable read v = some c) ∨
        c = none ∧ r.byPlace = false ∧ ∀ v, (name, v) ∉ r.members := by
  have hfind (v : α) : r.find? name = some v ↔ (name, v) ∈ r.members := find?_eq_some_iff h
  unfold optional
  simp only [← hfind]
  cases r.find? name with
  | none => cases r.byPlace <;> simp [eq_comm]
  | some v => simp

end

theorem nullable_eq_some_iff [Written α] {read : α → Option β} {v : α} {c : Option β} :
    nullable read v = some c ↔ Written.isNull v = true ∧ c = none ∨
      Written.isNull v = false ∧ ∃ b, read v = some b ∧ c = some b := by
  unfold nullable
  cases Written.isNull v with
  | true => simp [eq_comm]
  | false => simp [eq_comm]

theorem of?_eq_some_iff [Written α] {names : List String} {v : α} :
    of? names v = some r ↔
      (∃ es, Written.object? v = some es ∧ (∀ n ∈ names, es.countP (fun e => e.1 = n) ≤ 1) ∧
        r = ⟨es, false⟩) ∨
      Written.object? v = none ∧ ∃ xs, Written.array? v = some xs ∧
        (Written.strict α = true → xs.length ≤ names.length) ∧ r = ⟨names.zip xs, true⟩ := by
  unfold of?
  cases Written.object? v with
  | some es =>
    rw [or_iff_left fun h => nomatch h.1]
    simp only [Option.ite_none_right_eq_some, Option.some.injEq, List.all_eq_true,
      decide_eq_true_eq, exists_eq_left']
    exact and_congr_right fun _ => eq_comm
  | none =>
    rw [or_iff_right (by rintro ⟨_, h, -⟩; cases h)]
    cases Written.array? v with
    | none =>
      refine ⟨nofun, ?_⟩
      rintro ⟨-, _, h, -⟩
      cases h
    | some xs =>
      simp only [Option.ite_none_left_eq_some, Option.some.injEq, not_and, Nat.not_lt, exists_eq_left',
        true_and]
      exact and_congr_right fun _ => eq_comm

/-- an array repeats no member -/
theorem countP_zip_le (names : List String) (xs : List α) (name : String) :
    (names.zip xs).countP (fun e => e.1 = name) ≤ names.count name := by
  induction names generalizing xs with
  | nil => exact Nat.zero_le _
  | cons n names ih =>
    cases xs with
    | nil => exact Nat.zero_le _
    | cons x xs =>
      have hrest := ih xs
      rw [List.zip_cons_cons, List.countP_cons, List.count_cons]
      by_cases hn : n = name <;> simp [hn] <;> omega

theorem of?_obj (names : List String) (es : List (String × Json)) :
    of? names (Json.obj es) =
      if names.all fun n => es.countP (fun e => e.1 = n) ≤ 1 then some ⟨es, false⟩ else none := rfl

end Record

end Linkage
