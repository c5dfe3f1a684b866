import Linkage.Store.Spaces

/-!
# Queries on data sources, components and links

* `insertBus`, `insertSink`, `insertResultTable`   add a component that no link owns;
* `sinks`, `resultTables`                          components by their names, batch by batch;
* `stampSinks`, `stampResultTables`                give components an owner;
* `upsertLink`                                     writes a link under its scope and name;
* `commitLink`                                     writes a link and stamps all that it owns.
-/

namespace Linkage

/-- What is written for a link. -/
structure LinkDraft where
  scope : Scope
  name : String
  strategy : Strategy
  dataId : DataId
  tableIds : List String
  deriving DecidableEq

/-- A link and the rows it is to own, the sinks by their kind. -/
structure LinkCommit where
  draft : LinkDraft
  busId : Int
  sinkIds : Dict SinkKind (List Int)
  tableRowIds : List Int
  deriving DecidableEq

/-- A link that was written, and whether it is new. -/
structure Upserted where
  row : Row Link
  created : Bool
  deriving DecidableEq

namespace Query

def insertSource (a : DataSource) : Query Unit :=
  write (fun _ => []) fun s =>
    if s.sources.any fun b => b.id = a.id then .error taken
    else .ok ((), { s with sources := s.sources ++ [a] })

/-- The data source with an id. -/
def source? (id : DataId) : Query (Option DataSource) :=
  read fun s => s.sources.find? fun a => a.id = id

section
variable {δ : Type}

/-- A component that no link owns. -/
def unowned (scope : Scope) (name : String) (detail : δ) : Component δ := ⟨scope, name, "", detail⟩

/-- Whether a row is the component of a name. -/
def isNamed (scope : Scope) (name : String) (r : Row (Component δ)) : Bool :=
  r.val.scope = scope ∧ r.val.name = name

/-- Whether a row is a component of one of the names. -/
def isAmong (scope : Scope) (names : List String) (r : Row (Component δ)) : Bool :=
  r.val.scope = scope ∧ names.contains r.val.name

/-- The table with an owner for the rows that satisfy a condition. -/
def stamped (t : Table (Component.key (δ := δ))) (p : Row (Component δ) → Bool) (owner : String) :
    Table (Component.key (δ := δ)) :=
  t.modify p (Component.own owner) (Component.key_own owner)

/-- Gives an owner to the rows of a table that satisfy a condition, in one statement; the answer is
their number. -/
def stamp (name : TableName) (get : Store → Table (Component.key (δ := δ)))
    (set : Store → Table (Component.key (δ := δ)) → Store) (p : Row (Component δ) → Bool)
    (owner : String) : Query Nat :=
  write (fun s => if (get s).rows.any p then [(name, .update)] else []) fun s =>
    .ok ((get s).count p, set s (stamped (get s) p owner))

/-- Gives an owner to the rows with the given ids, batch by batch. -/
def stampIds (name : TableName) (get : Store → Table (Component.key (δ := δ)))
    (set : Store → Table (Component.key (δ := δ)) → Store) (ids : List Int) (owner : String) :
    Query Nat :=
  total (fun ids => stamp name get set (fun r => ids.contains r.id) owner) (batches ids)

end

/-- The store with another table of data-buses. -/
def setBuses (s : Store) (t : Table (Component.key (δ := Feed))) : Store := { s with buses := t }

/-- The table of a kind of sink. -/
def getSinks (k : SinkKind) (s : Store) : Table (Component.key (δ := Option String)) :=
  s.sinks.get k

/-- The store with another table for a kind of sink. -/
def setSinks (k : SinkKind) (s : Store) (t : Table (Component.key (δ := Option String))) : Store :=
  { s with sinks := s.sinks.set k t }

/-- The store with another table of result tables. -/
def setResultTables (s : Store) (t : Table (Component.key (δ := String))) : Store :=
  { s with resultTables := t }

/-- Adds a data-bus with a sink list as it is written. -/
def insertBus (scope : Scope) (name : String) (dataId : DataId) (sinkList : String) : Query Int :=
  insertRow [(.buses, .insert)] Store.buses setBuses (unowned scope name ⟨dataId, sinkList⟩)

def bus? (scope : Scope) (name : String) : Query (Option (Row Bus)) :=
  read fun s => s.buses.find? (isNamed scope name)

/-- The data-buses of a scope that no link owns. -/
def unlinkedBuses (scope : Scope) : Query (List (Row Bus)) :=
  read fun s => s.buses.select fun r => r.val.scope = scope ∧ r.val.owner = ""

/-- Sets the owner of a data-bus. -/
def setBusOwner (id : Int) (owner : String) : Query Unit :=
  (stamp .buses Store.buses setBuses (fun r => r.id = id) owner).bind fun _ => pure ()

/-- Adds a sink; only storage bindings keep the name of a result table. -/
def insertSink (k : SinkKind) (scope : Scope) (name table : String) : Query Int :=
  insertRow [(.sinks k, .insert)] (getSinks k) (setSinks k)
    (unowned scope name (if k.isStorage then some table else none))

/-- The sinks of a kind with the given names; names without one are left out. -/
def sinks (k : SinkKind) (scope : Scope) (names : List String) : Query (List (Row Sink)) :=
  each (fun names => read fun s => (s.sinks.get k).select (isAmong scope names)) (batches names)

/-- Gives an owner to the sinks of a kind with the given ids. -/
def stampSinks (k : SinkKind) (ids : List Int) (owner : String) : Query Nat :=
  stampIds (.sinks k) (getSinks k) (setSinks k) ids owner

def insertResultTable (scope : Scope) (name tableId : String) : Query Int :=
  insertRow [(.resultTables, .insert)] Store.resultTables setResultTables
    (unowned scope name tableId)

/-- The result tables with the given names; names without one are left out. -/
def resultTables (scope : Scope) (names : List String) : Query (List (Row ResultTable)) :=
  each (fun names => read fun s => s.resultTables.select (isAmong scope names)) (batches names)

/-- Gives an owner to the result tables with the given ids. -/
def stampResultTables (ids : List Int) (owner : String) : Query Nat :=
  stampIds .resultTables Store.resultTables setResultTables ids owner

/-- Gives an owner to the components of a name in one table, whatever their scope. -/
def claim (table : TableName) (name owner : String) : Query Nat :=
  match table with
  | .buses => stamp .buses Store.buses setBuses (fun r => r.val.name = name) owner
  | .sinks k => stamp (.sinks k) (getSinks k) (setSinks k) (fun r => r.val.name = name) owner
  | .resultTables =>
    stamp .resultTables Store.resultTables setResultTables (fun r => r.val.name = name) owner
  | _ => pure 0

/-- Whether a row is the link of a name. -/
def isLink (scope : Scope) (name : String) (r : Row Link) : Bool :=
  r.val.scope = scope ∧ r.val.name = name

def link? (scope : Scope) (name : String) : Query (Option (Row Link)) :=
  read fun s => s.links.find? (isLink scope name)

/-- A new link as a draft says. -/
def newLink (d : LinkDraft) (now : Int) : Link where
  scope := d.scope
  name := d.name
  strategy := d.strategy.text
  dataId := d.dataId
  tableIds := listColumn d.tableIds
  created := now
  updated := now

/-- A stored link changed as a draft says; name and time of creation stay. -/
def renewed (d : LinkDraft) (now : Int) (l : Link) : Link :=
  { l with
    strategy := d.strategy.text
    dataId := d.dataId
    tableIds := listColumn d.tableIds
    updated := now }

/-- The row operations of writing a link. -/
def touchedLinks (d : LinkDraft) (s : Store) : List (TableName × RowEvent) :=
  if s.links.rows.any (isLink d.scope d.name) then [(.links, .insert), (.links, .update)]
  else [(.links, .insert)]

/-- Writes a link: changes the row of its scope and name, or adds one.  An id is given in either
case; a changed row keeps its own. -/
def putLink (d : LinkDraft) (now : Int) : Query (Row Link) :=
  write (touchedLinks d) fun s =>
    match s.links.find? (isLink d.scope d.name) with
    | some r =>
      .ok (⟨r.id, renewed d now r.val⟩, { s with
        links := (s.links.modify (isLink d.scope d.name) (renewed d now) fun _ => rfl).advance })
    | none => match s.links.insert? (newLink d now) with
      | some (t, id) => .ok (⟨id, newLink d now⟩, { s with links := t })
      | none => .error taken

/-- Writes a link and tells whether it is new. -/
def upsertLink (d : LinkDraft) (now : Int) : Query Upserted :=
  (link? d.scope d.name).bind fun before =>
    (putLink d now).bind fun row => pure ⟨row, before.isNone⟩

/-- Columns of a link that are set to other values. -/
structure LinkColumns where
  strategy : Option String
  tableIds : Option String
  created : Option Int
  updated : Option Int

/-- Sets columns of all links of a name, whatever their scope; the answer is their number. -/
def setLinkColumns (name : String) (c : LinkColumns) : Query Nat :=
  let p (r : Row Link) : Bool := r.val.name = name
  let f (l : Link) : Link :=
    { l with
      strategy := c.strategy.getD l.strategy
      tableIds := c.tableIds.getD l.tableIds
      created := c.created.getD l.created
      updated := c.updated.getD l.updated }
  write (fun s => if s.links.rows.any p then [(.links, .update)] else []) fun s =>
    .ok (s.links.count p, { s with links := s.links.modify p f fun _ => rfl })

/-- Stamps the sinks of each kind in turn. -/
def stampAll (owner : String) : List (SinkKind × List Int) → Query Unit
  | [] => pure ()
  | (k, ids) :: rest => (stampSinks k ids owner).bind fun _ => stampAll owner rest

/-- Writes a link, and gives it to its data-bus, sinks and result tables. -/
def commitLink (c : LinkCommit) (now : Int) : Query Upserted :=
  transaction <|
    (upsertLink c.draft now).bind fun u =>
      (setBusOwner c.busId c.draft.name).bind fun _ =>
        (stampAll c.draft.name c.sinkIds.entries).bind fun _ =>
          (skipIf (c.tableRowIds = []) 0 (stampResultTables c.tableRowIds c.draft.name)).bind
            fun _ => pure u

end Query
end Linkage
