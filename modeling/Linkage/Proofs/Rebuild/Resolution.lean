import Linkage.Proofs.Store.Named

/-!
# What a data-bus resolves to, in a store

Resolving only reads, so it is a function of the store:

* `Store.resolve`        the checks in their order, on a store;
* `Observes.resolve`     a query that resolves a data-bus answers with it and changes nothing.
-/

namespace Linkage

namespace Store

/-- The sinks of a group, in the order of the names. -/
def groupSinks (s : Store) (scope : Scope) (g : SinkGroup) : Except Skip (List ListedSink) :=
  let t := s.sinks.get g.kind
  if t.lost scope g.names = [] then .ok ((t.found scope g.names).map fun r => ⟨g.kind, r⟩)
  else .error ⟨.missingComponent,
    g.kind.text ++ ": " ++ Text.joined ", " (t.lost scope g.names)⟩

/-- The sinks of all groups. -/
def allSinks (s : Store) (scope : Scope) : List SinkGroup → Except Skip (List ListedSink)
  | [] => .ok []
  | g :: gs => (s.groupSinks scope g).bind fun ss =>
    (allSinks s scope gs).bind fun rest => .ok (ss ++ rest)

/-- The result tables of the names; all must exist and be unowned. -/
def ownableTables (s : Store) (scope : Scope) (names : List String) :
    Except Skip (List (Row ResultTable)) :=
  if s.resultTables.lost scope names = [] then
    match (s.resultTables.found scope names).find? fun t => t.val.isOwned with
    | some t => .error ⟨.resultTableConflict, t.val.name ++ " owned by " ++ t.val.owner⟩
    | none => .ok (s.resultTables.found scope names)
  else .error ⟨.missingResultTable, Text.joined ", " (s.resultTables.lost scope names)⟩

/-- The strategy that a data source gives. -/
def sourceStrategy (b : Bus) : Option DataSource → Except Skip Strategy
  | none => .error ⟨.missingDataSource, "bk_data_id " ++ Text.Decimal.text b.detail.dataId.toInt⟩
  | some source => match Strategy.ofEtlConfig? source.etlConfig with
    | some t => .ok t
    | none => .error ⟨.unmappedEtlConfig, "etl_config " ++ source.etlConfig⟩

/-- Whether a group is of a kind. -/
def hasKind (gs : List SinkGroup) (k : SinkKind) : Bool := gs.any fun g => g.kind = k

/-- The strategy of a data-bus with these groups of sinks. -/
def strategyOf (s : Store) (b : Bus) (gs : List SinkGroup) : Except Skip Strategy :=
  if hasKind gs .elastic && hasKind gs .doris then .ok .log
  else sourceStrategy b (s.sources.find? fun a => a.id = b.detail.dataId)

/-- All that a data-bus resolves to, or the first check that fails. -/
def resolve (s : Store) (b : Bus) : Except Skip Resolution :=
  (SinkGroup.ofBus b).bind fun gs =>
    (s.allSinks b.scope gs).bind fun ss =>
      (Query.unownedSinks ss).bind fun _ =>
        (tableNames [] ss).bind fun names =>
          (s.ownableTables b.scope names).bind fun ts =>
            (s.strategyOf b gs).bind fun strategy =>
              .ok ⟨b.scope.linkName b.name, strategy, ss, ts⟩

end Store

namespace Query

theorem Observes.andThen {α β : Type} {c : Check α} {f : Store → Except Skip α} {g : α → Check β}
    {k : α → Store → Except Skip β} (hc : Observes c f) (hg : ∀ a, Observes (g a) (k a)) :
    Observes (andThen c g) fun s => (f s).bind fun a => k a s := by
  unfold Query.andThen
  refine (hc.bind (k := fun r s => r.bind fun a => k a s) fun r => ?_).congr fun s => rfl
  cases r with
  | error e => exact Observes.pure (Except.error e)
  | ok a => exact hg a

theorem Observes.groupSinks (scope : Scope) (g : SinkGroup) :
    Observes (groupSinks scope g) fun s => s.groupSinks scope g := by
  have hread := (Observes.sinks g.kind scope g.names).unlessEmpty
  refine (hread.bind fun rows => Observes.pure _).congr fun s => ?_
  rw [missing_readByName, filterMap_readByName]
  rfl

theorem Observes.allSinks (scope : Scope) (gs : List SinkGroup) :
    Observes (allSinks scope gs) fun s => s.allSinks scope gs := by
  induction gs with
  | nil => exact Observes.pure _
  | cons g gs ih =>
    exact (Observes.groupSinks scope g).andThen fun ss =>
      ih.andThen fun rest => Observes.pure (Except.ok (ss ++ rest))

theorem Observes.ownableTables (scope : Scope) (names : List String) :
    Observes (ownableTables scope names) fun s => s.ownableTables scope names := by
  have hread := (Observes.resultTables scope names).unlessEmpty
  refine (hread.bind fun rows => Observes.pure _).congr fun s => ?_
  rw [missing_readByName, filterMap_readByName]
  rfl

theorem Observes.strategyOf (b : Bus) (gs : List SinkGroup) :
    Observes (strategyOf b gs) fun s => s.strategyOf b gs := by
  show Observes (if (Store.hasKind gs .elastic && Store.hasKind gs .doris) = true then _ else _) _
  by_cases h : (Store.hasKind gs .elastic && Store.hasKind gs .doris) = true
  · rw [if_pos h]
    refine (Observes.pure _).congr fun s => ?_
    rw [Store.strategyOf, if_pos h]
  · rw [if_neg h]
    have hread : Observes (Query.transaction (source? b.detail.dataId))
        fun s => s.sources.find? fun a => a.id = b.detail.dataId := (Observes.read _).transaction
    refine (hread.bind (k := fun source _ => Store.sourceStrategy b source) fun source => ?_).congr
      fun s => ?_
    · cases source <;> exact Observes.pure _
    · rw [Store.strategyOf, if_neg h]

/-- resolving a data-bus answers with what it resolves to in the store -/
theorem Observes.resolve (b : Bus) : Observes (resolve b) fun s => s.resolve b :=
  (Observes.pure (SinkGroup.ofBus b)).andThen fun gs =>
    (Observes.allSinks b.scope gs).andThen fun ss =>
      (Observes.pure (Query.unownedSinks ss)).andThen fun _ =>
        (Observes.pure (tableNames [] ss)).andThen fun names =>
          (Observes.ownableTables b.scope names).andThen fun ts =>
            (Observes.strategyOf b gs).andThen fun strategy =>
              Observes.pure (Except.ok
                (⟨b.scope.linkName b.name, strategy, ss, ts⟩ : Resolution))

end Query
end Linkage
