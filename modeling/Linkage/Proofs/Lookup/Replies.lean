import Linkage.Lookup.Api
import Linkage.Proofs.Json.Grammar
import Linkage.Proofs.Json.Records

/-!
# The bodies that are replies

A reply is a record that is written in JSON.  Its members are there by their names in an object, once
each, or by their places in an array; of other members nothing is asked but that they are written in
the syntax.  So it is said of the members of a body which reply it is, and the reader agrees.

* `Raw.Lists`          the members of a record;
* `Raw.IsSpaceData`    what tells about a space;
* `Raw.IsReply`        what is a reply;
* `ApiReply.IsBody`    the bytes write this reply;
* `ApiReply.ofBytes?_eq_some_iff`   these bodies are read as replies, and no others.
-/

namespace Linkage

/-- The parts of a whole number: no fraction, no exponent, and a minus sign for negative ones only. -/
structure Number.Parts.IsInt (p : Parts) (i : Int) : Prop where
  fraction : p.fraction = none
  exponent : p.exponent = none
  value : i = if p.negative then -(Nat.ofDigitChars 10 p.whole 0 : Int)
    else (Nat.ofDigitChars 10 p.whole 0 : Int)
  sign : p.negative = true → Nat.ofDigitChars 10 p.whole 0 ≠ 0

namespace Json.Raw

/-- The value has the members `es` of a record: it is an object that repeats none of the names, or an
array of no more items than there are names. -/
def Lists (v : Raw) (names : List String) (es : List (String × Raw)) : Prop :=
  v.members? = some es ∧ (∀ n ∈ names, es.countP (fun e => e.1 = n) ≤ 1) ∨
    ∃ xs, v = .arr xs ∧ xs.length ≤ names.length ∧ es = names.zip xs

/-- A truth value. -/
def IsBool (v : Raw) (b : Bool) : Prop := v = .bool b

/-- A text between quotes. -/
def IsText (v : Raw) (t : String) : Prop := ∃ ps, v = .str ps ∧ text? ps = some t

/-- A whole number of 64 bits. -/
def IsInt64 (v : Raw) (i : Int) : Prop :=
  (∃ p, v = .num p ∧ p.IsInt i) ∧ Text.Decimal.int64Min ≤ i ∧ i ≤ Text.Decimal.int64Max

/-- A text, or nothing. -/
def IsLabel (v : Raw) (u : Option String) : Prop :=
  v = .null ∧ u = none ∨ ∃ t, v.IsText t ∧ u = some t

/-- A space: it has a business, and may have a uid. -/
def IsSpaceData (v : Raw) (d : ApiReplyData) : Prop :=
  ∃ es, v.Lists ["bk_biz_id", "space_uid"] es ∧
    (∃ w, ("bk_biz_id", w) ∈ es ∧ w.IsInt64 d.business) ∧
    ((∃ w, ("space_uid", w) ∈ es ∧ w.IsLabel d.uid) ∨ d.uid = none ∧ ∀ w, ("space_uid", w) ∉ es)

/-- A space, or nothing. -/
def IsData (v : Raw) (d : Option ApiReplyData) : Prop :=
  v = .null ∧ d = none ∨ ∃ x, v.IsSpaceData x ∧ d = some x

/-- The members of a reply. -/
structure AreReply (es : List (String × Raw)) (e : ApiReply) : Prop where
  result : ∃ v, ("result", v) ∈ es ∧ v.IsBool e.result
  code : (∃ v, ("code", v) ∈ es ∧ v.IsInt64 e.code) ∨ e.code = 0 ∧ ∀ v, ("code", v) ∉ es
  message : (∃ v, ("message", v) ∈ es ∧ v.IsText e.message) ∨
    e.message = "" ∧ ∀ v, ("message", v) ∉ es
  data : (∃ v, ("data", v) ∈ es ∧ v.IsData e.data) ∨ e.data = none ∧ ∀ v, ("data", v) ∉ es

/-- A reply; in an array the data must be there. -/
def IsReply (v : Raw) (e : ApiReply) : Prop :=
  ∃ es, v.Lists ["result", "code", "message", "data"] es ∧ AreReply es e ∧
    ((∃ xs, v = .arr xs) → ∃ w, ("data", w) ∈ es)

end Json.Raw

/-! ## values that are no array or object -/

theorem Number.of_bind_decimal {negative : Bool} {u : Option Nat} {i : Int} :
    (u.bind fun u => (Decimal.ofMagnitude? negative u).map Number.decimal) ≠ some (.int i) := by
  intro h
  obtain ⟨u, -, hu⟩ := Option.bind_eq_some_iff.1 h
  obtain ⟨d, -, hd⟩ := Option.map_eq_some_iff.1 hu
  cases hd

theorem Number.ofParts?_eq_int_iff {p : Parts} {i : Int} (hmin : Text.Decimal.int64Min ≤ i)
    (hmax : i ≤ Text.Decimal.int64Max) : ofParts? p = some (.int i) ↔ p.IsInt i := by
  obtain ⟨negative, whole, fraction, exponent⟩ := p
  have hlimit : Text.Decimal.int64Max ≤ Text.Decimal.uint64Max := by decide
  constructor
  · intro h
    unfold ofParts? at h
    simp only at h
    split at h
    · split at h
      · rename_i hneg
        split at h
        · rename_i hfit
          cases h
          exact ⟨rfl, rfl, (if_pos hneg).symm, fun _ => hfit.1⟩
        · exact absurd h of_bind_decimal
      split at h
      · rename_i hneg _
        cases h
        exact ⟨rfl, rfl, (if_neg hneg).symm, fun h => absurd h hneg⟩
      · exact absurd h of_bind_decimal
    · exact absurd h of_bind_decimal
    · split at h
      · exact absurd h of_bind_decimal
      split at h
      · cases h
      · exact absurd h of_bind_decimal
  · rintro ⟨rfl, rfl, hvalue, hsign⟩
    unfold ofParts?
    simp only at hvalue hsign ⊢
    by_cases hneg : negative = true
    · rw [if_pos hneg] at hvalue ⊢
      rw [if_pos ⟨hsign hneg, hvalue ▸ hmin⟩, hvalue]
    · rw [if_neg hneg] at hvalue ⊢
      rw [if_pos (by omega), hvalue]

namespace Json

variable {v : Json}

theorem int64?_eq_some_iff {i : Int} : v.int64? = some i ↔
    v = .num (.int i) ∧ Text.Decimal.int64Min ≤ i ∧ i ≤ Text.Decimal.int64Max := by
  unfold int64?
  rw [Option.filter_eq_some_iff, Bool.and_eq_true, decide_eq_true_iff, decide_eq_true_iff]
  refine and_congr_left fun _ => ?_
  unfold int?
  split
  · simp
  · rename_i hv
    exact ⟨nofun, fun h => absurd h (hv i)⟩

end Json

namespace Json.Raw

variable {v : Raw}

theorem read?_bool {b : Bool} : v.read? Json.bool? = some b ↔ v.IsBool b := by
  unfold IsBool
  cases v with
  | num p =>
    simp only [read?, scalar?]
    cases Number.ofParts? p <;> simp [Json.bool?]
  | str ps =>
    simp only [read?, scalar?]
    cases text? ps <;> simp [Json.bool?]
  | _ => simp [read?, scalar?, Json.bool?]

theorem read?_text {t : String} : v.read? Json.text? = some t ↔ v.IsText t := by
  unfold IsText
  cases v with
  | num p =>
    simp only [read?, scalar?]
    cases Number.ofParts? p <;> simp [Json.text?]
  | str ps =>
    simp only [read?, scalar?]
    cases htext : text? ps <;> simp [htext, Json.text?]
  | _ => simp [read?, scalar?, Json.text?]

theorem read?_int64 {i : Int} : v.read? Json.int64? = some i ↔ v.IsInt64 i := by
  unfold read? IsInt64
  rw [Option.bind_eq_some_iff]
  simp only [Json.int64?_eq_some_iff]
  constructor
  · rintro ⟨w, hw, rfl, hmin, hmax⟩
    cases v with
    | num p =>
      obtain ⟨n, hn, hw⟩ := Option.map_eq_some_iff.1 hw
      cases hw
      exact ⟨⟨p, rfl, (Number.ofParts?_eq_int_iff hmin hmax).1 hn⟩, hmin, hmax⟩
    | str ps =>
      obtain ⟨t, -, hw⟩ := Option.map_eq_some_iff.1 hw
      cases hw
    | _ => cases hw
  · rintro ⟨⟨p, rfl, hp⟩, hmin, hmax⟩
    refine ⟨.num (.int i), ?_, rfl, hmin, hmax⟩
    rw [scalar?, (Number.ofParts?_eq_int_iff hmin hmax).2 hp]
    rfl

theorem nullable_eq_some_iff {β : Type} {read : Raw → Option β} (hread : read .null = none)
    {u : Option β} : Record.nullable read v = some u ↔
      v = .null ∧ u = none ∨ ∃ b, read v = some b ∧ u = some b := by
  have hnull : Written.isNull v = true ↔ v = .null := by cases v <;> simp [Written.isNull]
  have hnone : Written.isNull v = false ↔ v ≠ .null := by cases v <;> simp [Written.isNull]
  rw [Record.nullable_eq_some_iff, hnull, hnone]
  refine or_congr_right (and_iff_right_of_imp ?_)
  rintro ⟨b, hb, -⟩ rfl
  cases hread.symm.trans hb

theorem nullable_text {u : Option String} :
    Record.nullable (read? Json.text?) v = some u ↔ v.IsLabel u := by
  have hnull : (null : Raw).read? Json.text? = none := rfl
  simp only [nullable_eq_some_iff hnull, read?_text, IsLabel]

/-! ## records -/

/-- a value is a record exactly when it lists the members of one -/
theorem of?_eq_some_iff {names : List String} {r : Record Raw} :
    Record.of? names v = some r ↔
      v.Lists names r.members ∧ (r.byPlace = true ↔ ∃ xs, v = .arr xs) := by
  have hobject : ∀ {es}, v.members? = some es → ¬∃ xs, v = .arr xs := by
    rintro es hes ⟨xs, rfl⟩
    cases hes
  rw [Record.of?_eq_some_iff]
  constructor
  · rintro (⟨es, hes, honce, rfl⟩ | ⟨-, xs, hxs, hlength, rfl⟩)
    · exact ⟨.inl ⟨hes, honce⟩, nofun, fun h => absurd h (hobject hes)⟩
    · cases v with
      | arr ys =>
        cases hxs
        exact ⟨.inr ⟨_, rfl, hlength rfl, rfl⟩, fun _ => ⟨_, rfl⟩, fun _ => rfl⟩
      | _ => cases hxs
  · obtain ⟨es, byPlace⟩ := r
    rintro ⟨⟨hes, honce⟩ | ⟨xs, rfl, hlength, rfl⟩, hplace⟩
    · obtain rfl : byPlace = false := Bool.eq_false_iff.2 fun h => hobject hes (hplace.1 h)
      exact .inl ⟨es, hes, honce, rfl⟩
    · obtain rfl : byPlace = true := hplace.2 ⟨xs, rfl⟩
      exact .inr ⟨rfl, xs, rfl, fun _ => hlength, rfl⟩

/-- what is said of the record that a value is, said of its members -/
theorem exists_of?_iff {names : List String} {P : Prop → List (String × Raw) → Prop} :
    (∃ r, Record.of? names v = some r ∧ P (r.byPlace = true) r.members) ↔
      ∃ es, v.Lists names es ∧ P (∃ xs, v = .arr xs) es := by
  constructor
  · rintro ⟨r, hr, hP⟩
    obtain ⟨hlists, hplace⟩ := of?_eq_some_iff.1 hr
    exact ⟨r.members, hlists, propext hplace ▸ hP⟩
  · rintro ⟨es, hlists, hP⟩
    by_cases harr : ∃ xs, v = .arr xs
    · refine ⟨⟨es, true⟩, of?_eq_some_iff.2 ⟨hlists, fun _ => harr, fun _ => rfl⟩, ?_⟩
      rwa [eq_true harr, ← eq_true (rfl : true = true)] at hP
    · refine ⟨⟨es, false⟩, of?_eq_some_iff.2 ⟨hlists, nofun, fun h => absurd h harr⟩, ?_⟩
      rwa [eq_false harr, ← eq_false Bool.false_ne_true] at hP

theorem Lists.countP_le {names : List String} (hnames : names.Nodup) {es : List (String × Raw)}
    (h : v.Lists names es) {n : String} (hn : n ∈ names) : es.countP (fun e => e.1 = n) ≤ 1 := by
  rcases h with ⟨-, honce⟩ | ⟨xs, -, -, rfl⟩
  · exact honce n hn
  · exact (Record.countP_zip_le names xs n).trans (List.nodup_iff_count_le_one.1 hnames n)

end Json.Raw

theorem ApiReplyData.ofRaw?_eq_some_iff {v : Json.Raw} {d : ApiReplyData} :
    ofRaw? v = some d ↔ v.IsSpaceData d := by
  unfold Json.Raw.IsSpaceData
  rw [← Json.Raw.exists_of?_iff (P := fun _ es =>
    (∃ w, ("bk_biz_id", w) ∈ es ∧ w.IsInt64 d.business) ∧
      ((∃ w, ("space_uid", w) ∈ es ∧ w.IsLabel d.uid) ∨ d.uid = none ∧ ∀ w, ("space_uid", w) ∉ es))]
  unfold ofRaw?
  refine Option.bind_eq_some_iff.trans (exists_congr fun r => and_congr_right fun hr => ?_)
  have honce {n : String} := (Json.Raw.of?_eq_some_iff.1 hr).1.countP_le (by decide) (n := n)
  obtain ⟨business, uid⟩ := d
  have hbusiness : r.required "bk_biz_id" (Json.Raw.read? Json.int64?) = some business ↔ _ :=
    Record.required_eq_some_iff (honce (by decide))
  have huid : r.defaulted "space_uid" none (Record.nullable (Json.Raw.read? Json.text?))
      = some uid ↔ _ := Record.defaulted_eq_some_iff (honce (by decide))
  simp only [Json.Raw.read?_int64, Json.Raw.nullable_text] at hbusiness huid
  rw [← hbusiness, ← huid]
  simp [bind, Option.bind_eq_some_iff]

theorem Json.Raw.nullable_data {v : Json.Raw} {d : Option ApiReplyData} :
    Record.nullable ApiReplyData.ofRaw? v = some d ↔ v.IsData d := by
  have hnull : ApiReplyData.ofRaw? .null = none := rfl
  simp only [Json.Raw.nullable_eq_some_iff hnull, ApiReplyData.ofRaw?_eq_some_iff, Json.Raw.IsData]

namespace ApiReply

theorem ofRaw?_eq_some_iff {v : Json.Raw} {e : ApiReply} : ofRaw? v = some e ↔ v.IsReply e := by
  unfold Json.Raw.IsReply
  rw [← Json.Raw.exists_of?_iff (P := fun byPlace es =>
    Json.Raw.AreReply es e ∧ (byPlace → ∃ w, ("data", w) ∈ es))]
  unfold ofRaw?
  refine Option.bind_eq_some_iff.trans (exists_congr fun r => and_congr_right fun hr => ?_)
  have honce {n : String} := (Json.Raw.of?_eq_some_iff.1 hr).1.countP_le (by decide) (n := n)
  obtain ⟨result, code, message, data⟩ := e
  have hresult : r.required "result" (Json.Raw.read? Json.bool?) = some result ↔ _ :=
    Record.required_eq_some_iff (honce (by decide))
  have hcode : r.defaulted "code" 0 (Json.Raw.read? Json.int64?) = some code ↔ _ :=
    Record.defaulted_eq_some_iff (honce (by decide))
  have hmessage : r.defaulted "message" "" (Json.Raw.read? Json.text?) = some message ↔ _ :=
    Record.defaulted_eq_some_iff (honce (by decide))
  have hdata : r.optional "data" ApiReplyData.ofRaw? = some data ↔ _ :=
    Record.optional_eq_some_iff (honce (by decide))
  simp only [Json.Raw.read?_bool, Json.Raw.read?_int64, Json.Raw.read?_text,
    Json.Raw.nullable_data] at hresult hcode hmessage hdata
  trans r.required "result" (Json.Raw.read? Json.bool?) = some result ∧
    r.defaulted "code" 0 (Json.Raw.read? Json.int64?) = some code ∧
    r.defaulted "message" "" (Json.Raw.read? Json.text?) = some message ∧
    r.optional "data" ApiReplyData.ofRaw? = some data
  · simp [bind, Option.bind_eq_some_iff, -Bool.exists_bool]
  -- the two sides differ in what they say of an array without data
  rw [hresult, hcode, hmessage, hdata]
  constructor
  · rintro ⟨hresult, hcode, hmessage, ⟨w, hw, hd⟩ | ⟨hnone, hplace, hno⟩⟩
    · exact ⟨⟨hresult, hcode, hmessage, .inl ⟨w, hw, hd⟩⟩, fun _ => ⟨w, hw⟩⟩
    · exact ⟨⟨hresult, hcode, hmessage, .inr ⟨hnone, hno⟩⟩, fun h => nomatch hplace.symm.trans h⟩
  · rintro ⟨⟨hresult, hcode, hmessage, hd | ⟨hnone, hno⟩⟩, hplace⟩
    · exact ⟨hresult, hcode, hmessage, .inl hd⟩
    · have hobject : r.byPlace = false := Bool.eq_false_iff.2 fun h => by
        obtain ⟨w, hw⟩ := hplace h
        exact hno w hw
      exact ⟨hresult, hcode, hmessage, .inr ⟨hnone, hobject, hno⟩⟩

/-- The bytes write the reply. -/
def IsBody (b : ByteArray) (e : ApiReply) : Prop := ∃ v, Json.Writes b v ∧ v.IsReply e

/-- a body is read as a reply exactly when it writes this reply -/
theorem ofBytes?_eq_some_iff {b : ByteArray} {e : ApiReply} : ofBytes? b = some e ↔ IsBody b e := by
  unfold ofBytes? IsBody
  rw [Option.bind_eq_some_iff]
  simp only [Json.Raw.parse?_eq_some_iff, ofRaw?_eq_some_iff]

end ApiReply

end Linkage
