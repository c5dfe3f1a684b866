import Linkage.Toml.Scalar
import Linkage.Toml.Section

/-!
# Statements of a TOML text

A text is a list of statements, each on a line of its own: a header of a table, a header of one more
table in a list, or a value for a name.

* `Toml.value`              one value and the rest behind it;
* `Toml.statements?`        the statements of a text.
-/

namespace Linkage.Toml

/-- A statement; names may be dotted. -/
inductive Statement where
  | table (path : List String)
  | element (path : List String)
  | assign (path : List String) (v : Toml)

/-- The number of nested arrays and inline tables that are read. -/
def depthLimit : Nat := 80

/-- The text without the blanks it begins with. -/
def skipSpace (s : List Char) : List Char := s.dropWhile isSpace

/-- What follows the comment that a text begins with, on the next line. -/
def comment? : List Char → Option (List Char)
  | [] => some []
  | '\n' :: r => some r
  | '\r' :: '\n' :: r => some r
  | c :: r => if isPlain c then comment? r else none

/-- The next line, if nothing but a comment stands before it. -/
def lineEnd? (s : List Char) : Option (List Char) :=
  match skipSpace s with
  | [] => some []
  | '\n' :: r => some r
  | '\r' :: '\n' :: r => some r
  | '#' :: r => comment? r
  | _ => none

/-- The text without the blanks, line breaks and comments it begins with. -/
def gap? (inComment : Bool) : List Char → Option (List Char)
  | [] => some []
  | '\n' :: r => gap? false r
  | '\r' :: '\n' :: r => gap? false r
  | c :: r =>
    if inComment then (if isPlain c then gap? true r else none)
    else if isSpace c then gap? false r
    else if c = '#' then gap? true r
    else some (c :: r)

/-- Characters of a name without quotes. -/
def isNameChar (c : Char) : Bool := c.isAlphanum || c = '_' || c = '-'

def name? (s : List Char) : Option (String × List Char) :=
  match s.takeWhile isNameChar with
  | [] => (quotedName? s).map fun p => (String.ofList p.1, p.2)
  | w => some (String.ofList w, s.dropWhile isNameChar)

/-- A name with its dots; the first argument bounds the number of names. -/
def path? : Nat → List Char → Option (List String × List Char)
  | 0, _ => none
  | n + 1, s =>
    match name? (skipSpace s) with
    | none => none
    | some (k, r) => match skipSpace r with
      | '.' :: r => (path? n r).map fun p => (k :: p.1, p.2)
      | r => some ([k], r)

/-- A name, an equals sign and a value. -/
def assignment? (value : List Char → Option (Toml × List Char)) (s : List Char) :
    Option ((List String × Toml) × List Char) := do
  let (p, r) ← path? s.length s
  let (v, r) ← value (skipSpace (← mark? '=' r))
  return ((p, v), r)

/-- The items of an array up to its closing bracket; a comma may stand behind the last one. -/
def arrayItems? (value : List Char → Option (Toml × List Char)) :
    Nat → List Char → Option (List Toml × List Char)
  | 0, _ => none
  | n + 1, s => do
    match ← gap? false s with
    | ']' :: r => return ([], r)
    | s =>
      let (v, r) ← value s
      match ← gap? false r with
      | ',' :: r =>
        let (vs, rest) ← arrayItems? value n r
        return (v :: vs, rest)
      | ']' :: r => return ([v], r)
      | _ => none

/-- The members of an inline table up to its closing brace. -/
def inlineMembers? (value : List Char → Option (Toml × List Char)) :
    Nat → List Char → Option (List (List String × Toml) × List Char)
  | 0, _ => none
  | n + 1, s => do
    let (e, r) ← assignment? value s
    match skipSpace r with
    | ',' :: r =>
      let (es, rest) ← inlineMembers? value n r
      return (e :: es, rest)
    | '\x7d' :: r => return ([e], r)
    | _ => none

/-- An inline table whose opening brace is read. -/
def inlineTable? (value : List Char → Option (Toml × List Char)) (s : List Char) :
    Option (Toml × List Char) :=
  match skipSpace s with
  | '\x7d' :: r => some (.table [], r)
  | s => do
    let (es, r) ← inlineMembers? value s.length s
    let t ← es.foldlM (fun (t : Section) e => t.assign? e.2 e.1) []
    return (t.toToml, r)

/-- A value that is no array or inline table. -/
def scalar? (s : List Char) : Option (Toml × List Char) :=
  match s with
  | '"' :: _ | '\'' :: _ => (quoted? s).map fun p => (.text (String.ofList p.1), p.2)
  | _ =>
    let (w, r) := cutWord s
    (word? w).map (·, r)

/-- A value, inside at most `d` further arrays and inline tables. -/
def value : Nat → List Char → Option (Toml × List Char)
  | 0, s => scalar? s
  | d + 1, s =>
    match s with
    | '[' :: r =>
      (arrayItems? (fun s => value d s) (r.length + 1) r).map fun p => (.array p.1, p.2)
    | '\x7b' :: r => inlineTable? (fun s => value d s) r
    | s => scalar? s

/-- The statement that a text begins with, and the next line. -/
def statement? (s : List Char) : Option (Statement × List Char) :=
  match s with
  | '[' :: '[' :: r => do
    let (p, r) ← path? r.length r
    return (.element p, ← lineEnd? (← mark? ']' (← mark? ']' r)))
  | '[' :: r => do
    let (p, r) ← path? r.length r
    return (.table p, ← lineEnd? (← mark? ']' r))
  | s => do
    let ((p, v), r) ← assignment? (value depthLimit) s
    return (.assign p v, ← lineEnd? r)

/-- The statements of at most so many lines. -/
def statementsIn? : Nat → List Char → Option (List Statement)
  | 0, _ => none
  | n + 1, s =>
    match skipSpace s with
    | [] => some []
    | s => match lineEnd? s with
      | some r => statementsIn? n r
      | none => do
        let (t, r) ← statement? s
        return t :: (← statementsIn? n r)

def statements? (s : List Char) : Option (List Statement) := statementsIn? (s.length + 1) s

end Linkage.Toml
