import Linkage.Proofs.Dict.Last
import Linkage.Proofs.Json.Grammar
import Linkage.Store.Rows

/-!
# Written values are read back

What is read of the text of a value is this value, but for decimals, which a reader rounds.

* `Json.outline`             a value with nothing of its decimals but that they are there;
* `Json.value_compactChars`  a written value is read, up to its outline, at the depth that it has;
* `Json.parse?_compact`      and so is the text of a value;
* `Json.within_parse?`       what is read can be written, and read again;
* `Json.parse?_texts`        a list of texts is read as it is;
* `Json.within_canonical`    putting names in order makes a value no deeper;
* `readListColumn_listColumn`   a list of texts in a column is read back;
* `Link.readStrategy_text`, `Link.readTableIds_listColumn`   the columns of a link.
-/

namespace Linkage

namespace Json

mutual

/-- The value with nothing of its decimals but that they are there. -/
def outline : Json → Json
  | num n => num n.outline
  | arr xs => arr (outlineItems xs)
  | obj es => obj (outlineMembers es)
  | v => v

def outlineItems : List Json → List Json
  | [] => []
  | x :: xs => outline x :: outlineItems xs

def outlineMembers : List (String × Json) → List (String × Json)
  | [] => []
  | (k, v) :: es => (k, outline v) :: outlineMembers es

end

mutual

/-- All numbers of the value are such that a value can hold them. -/
def Held : Json → Prop
  | num n => n.Held
  | arr xs => HeldItems xs
  | obj es => HeldMembers es
  | _ => True

def HeldItems : List Json → Prop
  | [] => True
  | x :: xs => Held x ∧ HeldItems xs

def HeldMembers : List (String × Json) → Prop
  | [] => True
  | (_, v) :: es => Held v ∧ HeldMembers es

end

/-! ## the written form -/

theorem exists_head_compactChars {v : Json} (h : v.Held) :
    ∃ c cs, v.compactChars = c :: cs ∧ isGap c = false ∧ c ≠ ']' := by
  cases v with
  | null => exact ⟨_, _, rfl, rfl, by decide⟩
  | bool b => cases b <;> exact ⟨_, _, rfl, rfl, by decide⟩
  | num n =>
    obtain ⟨p, hp, hchars, -⟩ := Number.exists_parts h
    obtain ⟨c, cs, hcs, hc⟩ := exists_head_of_isSpelt hp.isSpelt
    refine ⟨c, cs, ?_, hc.isGap_eq, hc.ne rfl (by decide)⟩
    rw [compactChars, ← hchars, hcs]
  | str s => exact ⟨_, _, rfl, rfl, by decide⟩
  | arr xs => cases xs <;> exact ⟨_, _, rfl, rfl, by decide⟩
  | obj es =>
    cases es with
    | nil => exact ⟨_, _, rfl, rfl, by decide⟩
    | cons e es => exact ⟨_, _, rfl, rfl, by decide⟩

theorem behind_moreItems (xs : List Json) (rest : List Char) : Behind (moreItems xs ++ rest) := by
  rintro c hc
  cases xs with
  | nil =>
    cases hc
    decide
  | cons x xs =>
    cases hc
    decide

theorem behind_moreMembers (es : List (String × Json)) (rest : List Char) :
    Behind (moreMembers es ++ rest) := by
  rintro c hc
  cases es with
  | nil =>
    cases hc
    decide
  | cons e es =>
    cases hc
    decide

theorem length_moreItems (xs : List Json) : xs.length < (moreItems xs).length := by
  induction xs with
  | nil => exact Nat.zero_lt_one
  | cons x xs ih =>
    rw [moreItems, List.length_cons, List.length_append, List.length_cons]
    omega

theorem length_moreMembers (es : List (String × Json)) : es.length < (moreMembers es).length := by
  induction es with
  | nil => exact Nat.zero_lt_one
  | cons e es ih =>
    rw [moreMembers]
    simp only [List.length_cons, List.length_append]
    omega

theorem compactChars_items (x : Json) (xs : List Json) (rest : List Char) :
    (arr (x :: xs)).compactChars ++ rest = '[' :: (x.compactChars ++ (moreItems xs ++ rest)) := by
  rw [compactChars, List.cons_append, List.cons_append, List.append_assoc]

/-- The written form of a member and all that stands behind it. -/
def memberChars (k : String) (v : Json) (rest : List Char) : List Char :=
  quotedChars k.toList ++ (':' :: (v.compactChars ++ rest))

theorem compactChars_members (k : String) (v : Json) (es : List (String × Json)) (rest : List Char) :
    (obj ((k, v) :: es)).compactChars ++ rest = '\x7b' :: memberChars k v (moreMembers es ++ rest) := by
  rw [compactChars, memberChars]
  simp only [List.cons_append, List.append_assoc]

/-- a member is read when its value is -/
theorem member_memberChars {value : List Char → Option (Json × List Char)} {k : String} {v w : Json}
    {rest : List Char} (h : value (v.compactChars ++ rest) = some (w, rest)) :
    member name value (memberChars k v rest) = some ((k, w), rest) := by
  have hquoted : memberChars k v rest
      = '"' :: (k.toList.flatMap escaped ++ '"' :: (':' :: (v.compactChars ++ rest))) := by
    simp [memberChars, quotedChars]
  have hquote (r : List Char) : skipGap ('"' :: r) = '"' :: r := rfl
  have hcolon (r : List Char) : skipGap (':' :: r) = ':' :: r := rfl
  rw [hquoted, member, hquote]
  simp only
  rw [name_escaped]
  simp only
  rw [hcolon]
  simp only
  rw [h]

/-! ## reading -/

theorem depthItems_le_iff {d : Nat} {xs : List Json} :
    depthItems xs ≤ d ↔ ∀ x ∈ xs, x.depth ≤ d := by
  induction xs with
  | nil => simp [depthItems]
  | cons x xs ih => rw [depthItems, Nat.max_le, ih, List.forall_mem_cons]

theorem depthMembers_le_iff {d : Nat} {es : List (String × Json)} :
    depthMembers es ≤ d ↔ ∀ e ∈ es, e.2.depth ≤ d := by
  induction es with
  | nil => simp [depthMembers]
  | cons e es ih => rw [depthMembers, Nat.max_le, ih, List.forall_mem_cons]

theorem heldItems_iff {xs : List Json} : HeldItems xs ↔ ∀ x ∈ xs, x.Held := by
  induction xs with
  | nil => simp [HeldItems]
  | cons x xs ih => rw [HeldItems, ih, List.forall_mem_cons]

theorem heldMembers_iff {es : List (String × Json)} : HeldMembers es ↔ ∀ e ∈ es, e.2.Held := by
  induction es with
  | nil => simp [HeldMembers]
  | cons e es ih => rw [HeldMembers, ih, List.forall_mem_cons]

/-- A reader reads the written form of a value, whatever stands behind it. -/
def Reads (read : List Char → Option (Json × List Char)) (v : Json) : Prop :=
  ∀ rest, Behind rest →
    ∃ w, read (v.compactChars ++ rest) = some (w, rest) ∧ w.outline = v.outline

section
variable {read : List Char → Option (Json × List Char)}

theorem items_compactChars {x : Json} {xs : List Json} (h : ∀ y ∈ x :: xs, Reads read y)
    {fuel : Nat} (hfuel : xs.length < fuel) (rest : List Char) :
    ∃ ys, items read ']' fuel (x.compactChars ++ (moreItems xs ++ rest)) = some (ys, rest) ∧
      outlineItems ys = outlineItems (x :: xs) := by
  obtain ⟨hx, hxs⟩ := List.forall_mem_cons.1 h
  obtain ⟨y, hread, hy⟩ := hx _ (behind_moreItems xs rest)
  obtain ⟨fuel, rfl⟩ : ∃ n, fuel = n + 1 := ⟨fuel - 1, by omega⟩
  induction xs generalizing x y fuel with
  | nil =>
    refine ⟨[y], items_last fuel hread rfl (by decide), ?_⟩
    simp only [outlineItems, hy]
  | cons z zs ih =>
    rw [List.length_cons] at hfuel
    obtain ⟨hz, hzs⟩ := List.forall_mem_cons.1 hxs
    obtain ⟨w, hw, houtline⟩ := hz _ (behind_moreItems zs rest)
    obtain ⟨n, rfl⟩ : ∃ n, fuel = n + 1 := ⟨fuel - 1, by omega⟩
    obtain ⟨ys, hmore, hys⟩ := ih hxs hz hzs w hw houtline n (by omega)
    refine ⟨y :: ys, items_more hread ?_ hmore, ?_⟩
    · rw [moreItems]
      simp only [List.cons_append, List.append_assoc]
      rfl
    · simp only [outlineItems, hy, hys]

theorem members_compactChars {k : String} {x : Json} {es : List (String × Json)}
    (h : ∀ e ∈ (k, x) :: es, Reads read e.2) {fuel : Nat} (hfuel : es.length < fuel)
    (rest : List Char) :
    ∃ fs, items (member name read) '\x7d' fuel (memberChars k x (moreMembers es ++ rest))
        = some (fs, rest) ∧ outlineMembers fs = outlineMembers ((k, x) :: es) := by
  obtain ⟨hx, hes⟩ := List.forall_mem_cons.1 h
  obtain ⟨y, hread, hy⟩ := hx _ (behind_moreMembers es rest)
  obtain ⟨fuel, rfl⟩ : ∃ n, fuel = n + 1 := ⟨fuel - 1, by omega⟩
  induction es generalizing k x y fuel with
  | nil =>
    refine ⟨[(k, y)], items_last fuel (member_memberChars hread) rfl (by decide), ?_⟩
    simp only [outlineMembers, hy]
  | cons e es ih =>
    rw [List.length_cons] at hfuel
    obtain ⟨j, z⟩ := e
    obtain ⟨hz, hrest⟩ := List.forall_mem_cons.1 hes
    obtain ⟨w, hw, houtline⟩ := hz _ (behind_moreMembers es rest)
    obtain ⟨n, rfl⟩ : ∃ n, fuel = n + 1 := ⟨fuel - 1, by omega⟩
    obtain ⟨fs, hmore, hfs⟩ := ih hes hz hrest w hw houtline n (by omega)
    refine ⟨(k, y) :: fs, items_more (member_memberChars hread) ?_ hmore, ?_⟩
    · rw [moreMembers, memberChars]
      simp only [List.cons_append, List.append_assoc]
      rfl
    · simp only [outlineMembers, hy, hfs]

/-- a list is read when its items are -/
theorem sequence_items {x : Json} {xs : List Json} (hheld : x.Held)
    (h : ∀ y ∈ x :: xs, Reads read y) (rest : List Char) :
    ∃ ys, sequence read ']' (x.compactChars ++ (moreItems xs ++ rest)) = some (ys, rest) ∧
      outlineItems ys = outlineItems (x :: xs) := by
  have hfuel : xs.length < (x.compactChars ++ (moreItems xs ++ rest)).length := by
    have hlength := length_moreItems xs
    rw [List.length_append, List.length_append]
    omega
  obtain ⟨ys, hread, hys⟩ := items_compactChars h hfuel rest
  obtain ⟨c, cs, hcs, hgap, hclose⟩ := exists_head_compactChars hheld
  refine ⟨ys, ?_, hys⟩
  rw [hcs, List.cons_append] at hread ⊢
  have hskip (r : List Char) : skipGap (c :: r) = c :: r :=
    List.dropWhile_cons_of_neg (ne_true_of_eq_false hgap)
  unfold sequence
  rw [hskip]
  simp only
  rw [if_neg hclose]
  exact hread

theorem sequence_members {k : String} {x : Json} {es : List (String × Json)}
    (h : ∀ e ∈ (k, x) :: es, Reads read e.2) (rest : List Char) :
    ∃ fs, sequence (member name read) '\x7d' (memberChars k x (moreMembers es ++ rest))
        = some (fs, rest) ∧ outlineMembers fs = outlineMembers ((k, x) :: es) := by
  have hfuel : es.length < (memberChars k x (moreMembers es ++ rest)).length := by
    have hlength := length_moreMembers es
    unfold memberChars
    simp only [List.length_append, List.length_cons]
    omega
  obtain ⟨fs, hread, hfs⟩ := members_compactChars h hfuel rest
  exact ⟨fs, hread, hfs⟩

end

/-- what is no array or object is read at any depth -/
theorem reads_scalar (d : Nat) {v : Json} (hdepth : v.depth = 0) (hheld : v.Held) :
    Reads (reading.value d) v := by
  intro rest hrest
  cases v with
  | null => exact ⟨null, by cases d <;> rfl, rfl⟩
  | bool b => exact ⟨bool b, by cases d <;> cases b <;> rfl, rfl⟩
  | num n =>
    obtain ⟨m, hread, hm⟩ := value_number d hheld hrest
    exact ⟨num m, hread, congrArg num hm⟩
  | str s => exact ⟨str s, value_quoted d s rest, rfl⟩
  | arr xs => cases hdepth
  | obj es => cases hdepth

/-- a written value is read at the depth that it has -/
theorem value_compactChars {d : Nat} {v : Json} (hdepth : v.depth ≤ d) (hheld : v.Held) :
    Reads (reading.value d) v := by
  induction d generalizing v with
  | zero => exact reads_scalar 0 (Nat.le_zero.1 hdepth) hheld
  | succ d ih =>
    intro rest hrest
    match v with
    | arr [] => exact ⟨arr [], rfl, rfl⟩
    | arr (x :: xs) =>
      have hdeep := depthItems_le_iff.1 (Nat.le_of_succ_le_succ hdepth)
      have hheld : ∀ y ∈ x :: xs, y.Held := heldItems_iff.1 hheld
      obtain ⟨ys, hread, hys⟩ := sequence_items (hheld x List.mem_cons_self)
        (fun y hy => ih (hdeep y hy) (hheld y hy)) rest
      have hopen (r : List Char) : skipGap ('[' :: r) = '[' :: r := rfl
      refine ⟨arr ys, ?_, congrArg arr hys⟩
      rw [compactChars_items, Reading.value, hopen]
      simp only
      rw [hread]
      rfl
    | obj [] => exact ⟨obj [], rfl, rfl⟩
    | obj ((k, x) :: es) =>
      have hdeep := depthMembers_le_iff.1 (Nat.le_of_succ_le_succ hdepth)
      have hheld : ∀ e ∈ (k, x) :: es, e.2.Held := heldMembers_iff.1 hheld
      obtain ⟨fs, hread, hfs⟩ := sequence_members
        (fun e he => ih (hdeep e he) (hheld e he)) rest
      have hopen (r : List Char) : skipGap ('\x7b' :: r) = '\x7b' :: r := rfl
      refine ⟨obj fs, ?_, congrArg obj hfs⟩
      have hmembers : sequence (member reading.name fun s => reading.value d s) '\x7d'
          (memberChars k x (moreMembers es ++ rest)) = some (fs, rest) := hread
      rw [compactChars_members, Reading.value, hopen]
      simp only
      rw [hmembers]
      rfl
    | null => exact reads_scalar _ rfl hheld rest hrest
    | bool b => exact reads_scalar _ rfl hheld rest hrest
    | num n => exact reads_scalar _ rfl hheld rest hrest
    | str s => exact reads_scalar _ rfl hheld rest hrest

/-- the text of a value is read as a value with the same outline -/
theorem parse?_compact {v : Json} (hdepth : v.depth ≤ depthLimit) (hheld : v.Held) :
    ∃ w, parse? v.compact = some w ∧ w.outline = v.outline := by
  obtain ⟨w, hread, hw⟩ := value_compactChars hdepth hheld [] nofun
  refine ⟨w, ?_, hw⟩
  unfold parse? ofChars? compact Reading.whole?
  rw [List.append_nil] at hread
  rw [String.toList_ofList, hread]
  rfl

/-! ## what is read -/

section
variable {α : Type} {item : List Char → Option (α × List Char)} {close : Char}
  {s rest : List Char} {xs : List α} {P : α → Prop}

theorem forall_items (hitem : ∀ s x r, item s = some (x, r) → P x) {fuel : Nat}
    (h : items item close fuel s = some (xs, rest)) : ∀ x ∈ xs, P x := by
  induction fuel generalizing s xs rest with
  | zero => cases h
  | succ fuel ih =>
    unfold items at h
    split at h
    · cases h
    rename_i x r hx
    have hfirst := hitem s x r hx
    split at h
    · split at h
      · cases h
      rename_i ys rest' hmore
      cases h
      exact List.forall_mem_cons.2 ⟨hfirst, ih hmore⟩
    · split at h
      · cases h
        exact List.forall_mem_singleton.2 hfirst
      · cases h
    · cases h

theorem forall_sequence (hitem : ∀ s x r, item s = some (x, r) → P x)
    (h : sequence item close s = some (xs, rest)) : ∀ x ∈ xs, P x := by
  unfold sequence at h
  split at h
  · cases h
  split at h
  · cases h
    exact List.forall_mem_nil P
  · exact forall_items hitem h

end

theorem of_member {value : List Char → Option (Json × List Char)} {s rest : List Char}
    {e : String × Json} (h : member name value s = some (e, rest)) :
    ∃ s' r, value s' = some (e.2, r) := by
  unfold member at h
  split at h
  · split at h
    · cases h
    split at h
    · split at h
      · cases h
      · rename_i hv
        cases h
        exact ⟨_, _, hv⟩
    · cases h
  · cases h

theorem within_scalar {s rest : List Char} {v : Json} (h : scalar s = some (v, rest)) :
    v.depth = 0 ∧ v.Held := by
  unfold scalar at h
  split at h
  · split at h
    · cases h
    · cases h
      exact ⟨rfl, trivial⟩
  · cases h
    exact ⟨rfl, trivial⟩
  · cases h
    exact ⟨rfl, trivial⟩
  · cases h
    exact ⟨rfl, trivial⟩
  · unfold number at h
    split at h
    · cases h
    split at h
    · cases h
    · rename_i hn
      cases h
      exact ⟨rfl, Number.held_of_ofParts? hn⟩

theorem within_value {d : Nat} {s rest : List Char} {v : Json} (h : reading.value d s = some (v, rest)) :
    v.depth ≤ d ∧ v.Held := by
  induction d generalizing s rest v with
  | zero =>
    rw [Reading.value] at h
    obtain ⟨hdepth, hheld⟩ := within_scalar h
    exact ⟨hdepth.le, hheld⟩
  | succ d ih =>
    rw [Reading.value] at h
    split at h
    · split at h
      · cases h
      rename_i xs rest' hxs
      cases h
      have hitems : ∀ x ∈ xs, x.depth ≤ d ∧ x.Held := forall_sequence (fun _ _ _ hx => ih hx) hxs
      exact ⟨Nat.succ_le_succ (depthItems_le_iff.2 fun x hx => (hitems x hx).1),
        heldItems_iff.2 fun x hx => (hitems x hx).2⟩
    · split at h
      · cases h
      rename_i es rest' hes
      cases h
      have hmembers : ∀ e ∈ es, e.2.depth ≤ d ∧ e.2.Held := by
        refine forall_sequence (fun _ e _ he => ?_) hes
        obtain ⟨s', r, hv⟩ := of_member he
        exact ih hv
      exact ⟨Nat.succ_le_succ (depthMembers_le_iff.2 fun e he => (hmembers e he).1),
        heldMembers_iff.2 fun e he => (hmembers e he).2⟩
    · obtain ⟨hdepth, hheld⟩ := within_scalar h
      exact ⟨hdepth.le.trans (Nat.zero_le _), hheld⟩

/-- so what is read of a text can be written and read again -/
theorem within_parse? {s : String} {v : Json} (h : parse? s = some v) :
    v.depth ≤ depthLimit ∧ v.Held := by
  unfold parse? ofChars? Reading.whole? at h
  split at h
  · rename_i hv
    split at h
    · cases h
      exact within_value hv
    · cases h
  · cases h

/-! ## what an outline keeps -/

theorem outlineItems_eq (xs : List Json) : outlineItems xs = xs.map outline := by
  induction xs with
  | nil => rfl
  | cons x xs ih => rw [outlineItems, ih, List.map_cons]

theorem array?_outline (v : Json) : v.outline.array? = v.array?.map (List.map outline) := by
  cases v with
  | arr xs => exact congrArg some (outlineItems_eq xs)
  | _ => rfl

theorem text?_outline (v : Json) : v.outline.text? = v.text? := by
  cases v <;> rfl

theorem member?_outline (k : String) (v : Json) :
    v.outline.member? k = (v.member? k).map outline := by
  cases v with
  | obj es =>
    show last? k (outlineMembers es) = (last? k es).map outline
    induction es with
    | nil => rfl
    | cons e es ih =>
      obtain ⟨j, w⟩ := e
      simp only [outlineMembers, last?, ih]
      cases last? k es with
      | some u => rfl
      | none =>
        simp only [Option.map_none]
        split <;> rfl
  | _ => rfl

/-- a text is all that has its outline -/
theorem eq_of_outline_text {v : Json} {s : String} (h : v.outline = str s) : v = str s := by
  cases v <;> first | exact h | cases h

theorem eq_of_map_outline {ys : List Json} {ss : List String}
    (h : ys.map outline = ss.map str) : ys = ss.map str := by
  induction ys generalizing ss with
  | nil =>
    cases ss with
    | nil => rfl
    | cons s ss => cases h
  | cons y ys ih =>
    cases ss with
    | nil => cases h
    | cons s ss =>
      obtain ⟨hy, hmore⟩ := List.cons.inj h
      rw [eq_of_outline_text hy, ih hmore]
      rfl

theorem eq_of_outline_texts {v : Json} {ss : List String} (h : v.outline = texts ss) :
    v = texts ss := by
  cases v with
  | arr ys =>
    have hys : outlineItems ys = ss.map str := Json.arr.inj h
    rw [outlineItems_eq] at hys
    exact congrArg arr (eq_of_map_outline hys)
  | _ => cases h

/-- a written list of texts is read back -/
theorem parse?_texts (ss : List String) : parse? (texts ss).compact = some (texts ss) := by
  have htext : ∀ x ∈ ss.map str, ∃ s, str s = x := fun x hx =>
    (List.mem_map.1 hx).imp fun _ hs => hs.2
  have hdepth : (texts ss).depth ≤ depthLimit := by
    have hitems : depthItems (ss.map str) ≤ 0 := depthItems_le_iff.2 fun x hx => by
      obtain ⟨s, rfl⟩ := htext x hx
      exact le_rfl
    exact (Nat.succ_le_succ hitems).trans (by decide)
  have hheld : (texts ss).Held := heldItems_iff.2 fun x hx => by
    obtain ⟨s, rfl⟩ := htext x hx
    trivial
  have houtline : (texts ss).outline = texts ss := by
    rw [texts, outline, outlineItems_eq, List.map_map]
    rfl
  obtain ⟨w, hread, hw⟩ := parse?_compact hdepth hheld
  rw [hread, eq_of_outline_texts (hw.trans houtline)]

/-! ## names in order -/

theorem canonicalItems_eq (xs : List Json) : canonicalItems xs = xs.map canonical := by
  induction xs with
  | nil => rfl
  | cons x xs ih => rw [canonicalItems, ih, List.map_cons]

theorem canonicalMembers_eq (es : List (String × Json)) :
    canonicalMembers es = es.map fun e => (e.1, e.2.canonical) := by
  induction es with
  | nil => rfl
  | cons e es ih => rw [canonicalMembers, ih, List.map_cons]

theorem array?_canonical (v : Json) : v.canonical.array? = v.array?.map (List.map canonical) := by
  cases v with
  | arr xs =>
    rw [canonical]
    exact congrArg some (canonicalItems_eq xs)
  | obj es =>
    rw [canonical]
    rfl
  | _ => rfl

theorem text?_canonical (v : Json) : v.canonical.text? = v.text? := by
  cases v with
  | arr xs =>
    rw [canonical]
    rfl
  | obj es =>
    rw [canonical]
    rfl
  | _ => rfl

/-- putting names in order makes a value no deeper, and keeps its numbers -/
theorem within_canonical {d : Nat} {v : Json} (hdepth : v.depth ≤ d) (hheld : v.Held) :
    v.canonical.depth ≤ d ∧ v.canonical.Held := by
  induction d generalizing v with
  | zero =>
    cases v with
    | arr xs => cases hdepth
    | obj es => cases hdepth
    | _ => exact ⟨le_rfl, hheld⟩
  | succ d ih =>
    cases v with
    | arr xs =>
      have hdeep := depthItems_le_iff.1 (Nat.le_of_succ_le_succ hdepth)
      have hheld := heldItems_iff.1 hheld
      have hitems : ∀ y ∈ xs.map canonical, y.depth ≤ d ∧ y.Held := by
        rintro _ hy
        obtain ⟨x, hx, rfl⟩ := List.mem_map.1 hy
        exact ih (hdeep x hx) (hheld x hx)
      rw [canonical, canonicalItems_eq]
      exact ⟨Nat.succ_le_succ (depthItems_le_iff.2 fun y hy => (hitems y hy).1),
        heldItems_iff.2 fun y hy => (hitems y hy).2⟩
    | obj es =>
      have hdeep := depthMembers_le_iff.1 (Nat.le_of_succ_le_succ hdepth)
      have hheld := heldMembers_iff.1 hheld
      have hmembers : ∀ e ∈ (Dict.ofList (canonicalMembers es)).entries,
          e.2.depth ≤ d ∧ e.2.Held := by
        rintro _ he
        have hmem := Dict.mem_of_mem_ofList he
        rw [canonicalMembers_eq] at hmem
        obtain ⟨x, hx, rfl⟩ := List.mem_map.1 hmem
        exact ih (hdeep x hx) (hheld x hx)
      rw [canonical]
      exact ⟨Nat.succ_le_succ (depthMembers_le_iff.2 fun e he => (hmembers e he).1),
        heldMembers_iff.2 fun e he => (hmembers e he).2⟩
    | _ => exact ⟨Nat.zero_le _, hheld⟩

end Json

/-- a list of texts in a column is read back -/
theorem readListColumn_listColumn (table : String) (ss : List String) :
    readListColumn table (listColumn ss) = .ok ss := by
  unfold readListColumn listColumn
  rw [Json.parse?_texts, Option.bind_some, Json.list?_texts]

theorem Link.readStrategy_text {l : Link} {strategy : Strategy} (h : l.strategy = strategy.text) :
    l.readStrategy = .ok strategy := by
  rw [readStrategy, h, Strategy.ofText?_text]

theorem Link.readTableIds_listColumn {l : Link} {ids : List String} (h : l.tableIds = listColumn ids) :
    l.readTableIds = .ok ids := by
  rw [readTableIds, h]
  exact readListColumn_listColumn _ _

end Linkage
