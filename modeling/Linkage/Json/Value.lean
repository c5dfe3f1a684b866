import Linkage.Dict
import Linkage.Json.Number

/-!
# JSON values

An object keeps its members as they were written, also those that repeat a name.

* `Json.member?`      the value of a name, the last one if it is repeated;
* `Json.canonical`    each name once and in order, in all objects of a value;
* `Json.depth`        how deep arrays and objects are nested;
* `Json.member?_canonical`   putting names in order changes no member of the outermost object.
-/

namespace Linkage

inductive Json where
  | null
  | bool (b : Bool)
  | num (n : Number)
  | str (s : String)
  | arr (xs : List Json)
  | obj (es : List (String × Json))
  deriving Inhabited, BEq

namespace Json

def int (i : Int) : Json := num (.int i)

def nat (n : Nat) : Json := int n

def texts (ss : List String) : Json := arr (ss.map str)

/-- A value that may be missing. -/
def option {α : Type} (f : α → Json) : Option α → Json
  | none => null
  | some a => f a

/-- The value of the last pair with the name `k`. -/
def last? (k : String) : List (String × Json) → Option Json
  | [] => none
  | (j, v) :: es => match last? k es with
    | some w => some w
    | none => if j = k then some v else none

/-- The member `k` of an object. -/
def member? (k : String) : Json → Option Json
  | obj es => last? k es
  | _ => none

/-- The text that a value is. -/
def text? : Json → Option String
  | str s => some s
  | _ => none

/-- The whole number that a value is. -/
def int? : Json → Option Int
  | num (.int i) => some i
  | _ => none

/-- The whole number in signed 64 bits that a value is. -/
def int64? (v : Json) : Option Int :=
  v.int?.filter fun i => Text.Decimal.int64Min ≤ i && i ≤ Text.Decimal.int64Max

/-- The count that a value is. -/
def nat? : Json → Option Nat
  | num (.int (.ofNat n)) => some n
  | _ => none

/-- The truth value that a value is. -/
def bool? : Json → Option Bool
  | bool b => some b
  | _ => none

def array? : Json → Option (List Json)
  | arr xs => some xs
  | _ => none

def object? : Json → Option (List (String × Json))
  | obj es => some es
  | _ => none

/-- What the name of a constant stands for: a text, or an object whose only member has this name and
says nothing.  In a value that is held until its variant is known, an empty object says nothing too. -/
def constant? {α : Type} (held : Bool) (ofText? : String → Option α) : Json → Option α
  | str s => ofText? s
  | obj [(s, null)] => ofText? s
  | obj [(s, obj [])] => if held then ofText? s else none
  | _ => none

/-- The list read from an array by a reader of its items. -/
def list? {α : Type} (f : Json → Option α) (v : Json) : Option (List α) :=
  v.array?.bind (List.mapM f)

mutual

/-- The value with the members of every object in the order of their names, each name once. -/
def canonical : Json → Json
  | arr xs => arr (canonicalItems xs)
  | obj es => obj (Dict.ofList (canonicalMembers es)).entries
  | v => v

def canonicalItems : List Json → List Json
  | [] => []
  | x :: xs => canonical x :: canonicalItems xs

def canonicalMembers : List (String × Json) → List (String × Json)
  | [] => []
  | (k, v) :: es => (k, canonical v) :: canonicalMembers es

end

mutual

/-- The number of arrays and objects around the innermost value. -/
def depth : Json → Nat
  | arr xs => depthItems xs + 1
  | obj es => depthMembers es + 1
  | _ => 0

def depthItems : List Json → Nat
  | [] => 0
  | x :: xs => max (depth x) (depthItems xs)

def depthMembers : List (String × Json) → Nat
  | [] => 0
  | (_, v) :: es => max (depth v) (depthMembers es)

end

theorem int64?_int {i : Int} (h : Text.Decimal.int64Min ≤ i ∧ i ≤ Text.Decimal.int64Max) :
    (int i).int64? = some i := by
  simp [int, int64?, int?, h]

theorem list?_map {α : Type} {f : Json → Option α} {g : α → Json} (h : ∀ a, f (g a) = some a)
    (xs : List α) : (arr (xs.map g)).list? f = some xs := by
  simp only [list?, array?, Option.bind_some]
  induction xs with
  | nil => rfl
  | cons x xs ih => simp [List.mapM_cons, ih, h]

theorem list?_texts (ss : List String) : (texts ss).list? text? = some ss :=
  list?_map (g := str) (fun _ => rfl) ss

theorem last?_canonicalMembers (k : String) (es : List (String × Json)) :
    last? k (canonicalMembers es) = (last? k es).map canonical := by
  induction es with
  | nil => simp [canonicalMembers, last?]
  | cons e es ih =>
    obtain ⟨j, v⟩ := e
    simp only [canonicalMembers, last?, ih]
    cases last? k es with
    | some w => simp
    | none => by_cases h : j = k <;> simp [h]

/-- a read after all pairs of a list are put -/
theorem get?_putAll (d : Dict String Json) (es : List (String × Json)) (k : String) :
    (d.putAll es).get? k = (last? k es).or (d.get? k) := by
  induction es generalizing d with
  | nil => simp [Dict.putAll, last?]
  | cons e es ih =>
    obtain ⟨j, v⟩ := e
    have : d.putAll ((j, v) :: es) = (d.put j v).putAll es := rfl
    rw [this, ih, Dict.get?_put]
    simp only [last?]
    cases last? k es with
    | some w => simp
    | none =>
      by_cases h : k = j
      · simp [h]
      · simp [h, Ne.symm h]

theorem last?_entries (d : Dict String Json) (k : String) : last? k d.entries = d.get? k := by
  obtain ⟨es, h⟩ := d
  simp only [Dict.get?]
  induction es with
  | nil => rfl
  | cons e es ih =>
    obtain ⟨j, v⟩ := e
    obtain ⟨hj, hes⟩ := List.pairwise_cons.1 h
    simp only [last?, Dict.find?, ih hes]
    by_cases hk : k = j
    · subst hk
      rw [Dict.find?_eq_none_of_lt hj]
      simp
    · have : compare k j ≠ .eq := fun hc => hk (Std.LawfulEqCmp.eq_of_compare hc)
      simp only [this, if_false, Ne.symm hk]
      cases Dict.find? k es <;> rfl

/-- putting names in order keeps every member -/
theorem member?_canonical (k : String) (v : Json) :
    v.canonical.member? k = (v.member? k).map canonical := by
  cases v <;> simp only [canonical, member?, Option.map_none]
  rw [last?_entries, Dict.ofList, get?_putAll, last?_canonicalMembers]
  simp

end Json
end Linkage
