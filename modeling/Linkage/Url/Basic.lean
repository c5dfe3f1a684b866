import Linkage.Url.Host

/-!
# URLs of the web

* `Url.parse?`      reads a URL with the scheme `http` or `https`;
* `Url.text`        writes it, without name and password;
* `Url.withPair`    one more pair in the query.

Reading is lenient: blanks are dropped, a backslash counts as a slash, and the segments `.` and `..`
of a path are resolved.
-/

namespace Linkage

/-- A URL of the web; `portNumber` is kept only if it is not the one of the scheme. -/
structure Url where
  secure : Bool
  host : Url.Host
  portNumber : Option Nat
  path : List (List Char)
  query : Option (List Char)
  fragment : Option (List Char)
  deriving DecidableEq

namespace Url

open Text

/-- Whether a text begins as a URL of the web must. -/
def isWeb (s : String) : Bool :=
  (dropWord? "http://".toList s.toList).isSome || (dropWord? "https://".toList s.toList).isSome

/-- Characters that are dropped wherever they stand. -/
def isDropped (c : Char) : Bool := c = '\t' || c = '\n' || c = '\r'

def isSlash (c : Char) : Bool := c = '/' || c = '\\'

/-- The text behind the name and password. -/
def dropUser (s : List Char) : List Char :=
  match (splitAt '@' s).getLast? with
  | some r => r
  | none => s

/-- The host of an address and what stands behind its colon, which may be empty. -/
def cutAddress (s : List Char) : List Char × Option (List Char) :=
  let inBrackets := s.head? = some '['
  let host := if inBrackets then s.takeWhile (· ≠ ']') ++ [']'] else s.takeWhile (· ≠ ':')
  match s.drop host.length with
  | ':' :: p => (host, some p)
  | [] => (if inBrackets then s else host, none)
  | r => (host ++ r, none)

/-- The number that digits write behind the host, if it is not the one of the scheme. -/
def portNumber? (secure : Bool) : Option (List Char) → Option (Option Nat)
  | none | some [] => some none
  | some ds => match Decimal.nat? ds with
    | some n =>
      if 65535 < n then none
      else if n = (if secure then 443 else 80) then some none
      else some (some n)
    | none => none

/-- A segment that stands for the one it is in; a dot may be escaped. -/
def isDot (s : List Char) : Bool :=
  let s := s.map Char.toLower
  s = ".".toList || s = "%2e".toList

/-- A segment that stands for the one before. -/
def isDots (s : List Char) : Bool :=
  let s := s.map Char.toLower
  s = "..".toList || s = ".%2e".toList || s = "%2e.".toList || s = "%2e%2e".toList

/-- The segments of a text at its slashes. -/
def segments (s : List Char) : List (List Char) :=
  splitAt '/' (s.map fun c => if isSlash c then '/' else c)

/-- The path with the segments behind it. -/
def resolve : List (List Char) → List (List Char) → List (List Char)
  | done, [] => done
  | done, s :: rest =>
    if isDots s then
      let done := done.dropLast
      resolve (if rest = [] then done ++ [[]] else done) rest
    else if isDot s then resolve (if rest = [] then done ++ [[]] else done) rest
    else resolve (done ++ [encode escapesInPath s]) rest

/-- The path that a text writes. -/
def pathOf (s : List Char) : List (List Char) :=
  match s with
  | [] => [[]]
  | c :: r => resolve [] (segments (if isSlash c then r else c :: r))

/-- The URL that a text writes. -/
def parse? (names : Naming) (s : String) : Option Url := do
  let s := s.toList.filter fun c => !isDropped c
  let (secure, s) ← match dropWord? "https:".toList s with
    | some r => some (true, r)
    | none => (dropWord? "http:".toList s).map (false, ·)
  let s := s.dropWhile isSlash
  let isEnd (c : Char) : Bool := isSlash c || c = '?' || c = '#'
  let (hostText, numberText) := cutAddress (dropUser (s.takeWhile fun c => !isEnd c))
  let s := s.dropWhile fun c => !isEnd c
  let host ← Host.parse? names hostText
  let portNumber ← portNumber? secure numberText
  let (s, fragment) := match cut? '#' s with
    | some (a, f) => (a, some (encode escapesInFragment f))
    | none => (s, none)
  let (s, query) := match cut? '?' s with
    | some (a, q) => (a, some (encode escapesInQuery q))
    | none => (s, none)
  return { secure, host, portNumber, path := pathOf s, query, fragment }

/-- A part behind its mark, if it is there. -/
def marked (c : Char) : Option (List Char) → List Char
  | some s => c :: s
  | none => []

/-- What is asked of the host. -/
def target (u : Url) : List Char := '/' :: joinWith ['/'] u.path ++ marked '?' u.query

def text (u : Url) : String :=
  String.ofList <|
    (if u.secure then "https://".toList else "http://".toList) ++ u.host.text ++
      marked ':' (u.portNumber.map Decimal.nat) ++ u.target ++ marked '#' u.fragment

/-- The URL with one more pair in its query. -/
def withPair (u : Url) (key value : String) : Url :=
  let pair := formEncode key.toList ++ '=' :: formEncode value.toList
  { u with query := match u.query with
      | none | some [] => some pair
      | some q => some (q ++ '&' :: pair) }

end Url
end Linkage
