import Linkage.Text.Cut

/-!
# Sinks of a data-bus

* `SinkKind`          the kinds of components a data-bus can end in;
* `SinkEntry.ofText?` an entry of a sink list, `kind:name`, cut at its first colon.
-/

namespace Linkage

open Std

/-- The kinds of components a data-bus can end in. -/
inductive SinkKind where
  | vm
  | elastic
  | doris
  | conditional
  deriving DecidableEq

namespace SinkKind

def all : List SinkKind := [vm, elastic, doris, conditional]

/-- The place of a kind in the order. -/
def rank : SinkKind → Nat
  | vm => 0
  | elastic => 1
  | doris => 2
  | conditional => 3

/-- The name of a kind in a sink list. -/
def text : SinkKind → String
  | vm => "VmStorageBinding"
  | elastic => "ElasticSearchBinding"
  | doris => "DorisBinding"
  | conditional => "ConditionalSink"

def ofText? (s : String) : Option SinkKind := all.find? fun k => k.text = s

/-- Storage bindings refer to a result table, conditional sinks do not. -/
def isStorage : SinkKind → Bool
  | conditional => false
  | _ => true

theorem rank_injective {a b : SinkKind} (h : a.rank = b.rank) : a = b := by
  cases a <;> cases b <;> simp [rank] at h ⊢

theorem text_injective {a b : SinkKind} (h : a.text = b.text) : a = b := by
  cases a <;> cases b <;> simp [text] at h ⊢

theorem ofText?_text (k : SinkKind) : ofText? k.text = some k := by cases k <;> decide

theorem ofText?_eq_some_iff {s : String} {k : SinkKind} : ofText? s = some k ↔ s = k.text := by
  refine ⟨fun h => ?_, fun h => h ▸ ofText?_text k⟩
  have := List.find?_some h
  simpa [eq_comm] using this

instance : Ord SinkKind := ⟨compareOn rank⟩

instance : TransOrd SinkKind := inferInstanceAs (TransCmp (compareOn rank))

instance : LawfulEqOrd SinkKind := ⟨fun {a b} h => by
  have h : compare a.rank b.rank = .eq := h
  exact rank_injective (Std.compare_eq_iff_eq.1 h)⟩

end SinkKind

/-- An entry of a sink list: the name of a kind, which may be unknown, and a component's name. -/
structure SinkEntry where
  kind : String
  name : String
  deriving DecidableEq

namespace SinkEntry

def text (e : SinkEntry) : String := e.kind ++ ":" ++ e.name

/-- The entry that a text writes; a text without a colon is none. -/
def ofText? (s : String) : Option SinkEntry :=
  (Text.cut? ':' s.toList).map fun p => ⟨String.ofList p.1, String.ofList p.2⟩

theorem ofText?_eq_none_iff {s : String} : ofText? s = none ↔ ':' ∉ s.toList := by
  simp [ofText?, Text.cut?_eq_none_iff]

/-- an entry reads back when its kind has no colon -/
theorem ofText?_text {e : SinkEntry} (h : ':' ∉ e.kind.toList) : ofText? e.text = some e := by
  have : e.text.toList = e.kind.toList ++ ':' :: e.name.toList := by simp [text]
  simp [ofText?, this, Text.cut?_append _ h]

end SinkEntry
end Linkage
