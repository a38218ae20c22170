import QueryBuilder.Query.Options

set_option autoImplicit false

namespace QueryBuilder

structure Query where
  columns : List Column
  options : Options Query

namespace Query

mutual

theorem induction {P : Query → Prop}
    (step : ∀ q, (∀ o ∈ q.options.setOperations, P o.query) → P q) : ∀ q, P q
  | ⟨_, { setOperations := sets, .. }⟩ => step _ (forall_operation step sets)

theorem forall_operation {P : Query → Prop}
    (step : ∀ q, (∀ o ∈ q.options.setOperations, P o.query) → P q) :
    ∀ (sets : List (SetOperation Query)), ∀ o ∈ sets, P o.query
  | [] => nofun
  | ⟨_, _, q⟩ :: rest => List.forall_mem_cons.mpr ⟨induction step q, forall_operation step rest⟩

end

def empty : Query := ⟨[], .default⟩

def column? (q : Query) (key : FieldKey) : Option Column := q.columns.find? (·.key = key)

def selected (q : Query) : List Column := q.columns.filter (·.selected)

def hasAccumulator (q : Query) : Bool := q.selected.any (·.accumulator?.isSome)

def needsGrouping (q : Query) : Bool := q.hasAccumulator || q.options.groupByAll

def groupKeys (q : Query) : List Column :=
  if q.needsGrouping then q.selected.filter (·.isGroupCandidate) else []

-- Of two columns with one number the earlier one comes first.
def sortedColumns (q : Query) : List (Column × Sorting) :=
  (q.columns.filterMap fun c => c.sort.map (c, ·)).mergeSort
    fun a b => a.2.order ≤ b.2.order

def windowKeys (w : Window) : List FieldKey := w.partitionBy ++ w.orderBy.map (·.key)

def keys (q : Query) : List FieldKey :=
  q.columns.map (·.key) ++ (q.selected.filterMap (·.window?)).flatMap windowKeys

def referencedEntities (q : Query) : List String := (q.keys.map (·.entity)).eraseDups

def isEmpty (q : Query) : Bool :=
  q.selected.isEmpty && q.columns.all (·.filter.isNone) && q.options.customWhere?.isNone

def nextSortOrder (q : Query) : UInt64 :=
  match (q.columns.filterMap fun c => c.sort.map (·.order)).max? with
  | none => 1
  | some n => n + 1

end Query

end QueryBuilder
