import QueryBuilder.Proofs.Json.Record

set_option autoImplicit false

namespace QueryBuilder

open Json (Value Document memberOf_eq written)
open Json.Document

/-- Whether a document's spelling of each word is read as that word and no other one. -/
class Keyword.Readable (α : Type) [Keyword α] : Prop where
  read_name : ∀ a : α, Keyword.read? (Keyword.name a) = some a

instance : Keyword.Readable Operator := ⟨fun a => by cases a <;> rfl⟩

instance : Keyword.Readable Accumulator := ⟨fun a => by cases a <;> rfl⟩

instance : Keyword.Readable WindowFunction := ⟨fun a => by cases a <;> rfl⟩

instance : Keyword.Readable SortDirection := ⟨fun a => by cases a <;> rfl⟩

instance : Keyword.Readable JoinType := ⟨fun a => by cases a <;> rfl⟩

instance : Keyword.Readable LookupType := ⟨fun a => by cases a <;> rfl⟩

instance : Keyword.Readable SetOperator := ⟨fun a => by cases a <;> rfl⟩

instance : Keyword.Readable StagePosition := ⟨fun a => by cases a <;> rfl⟩

section

variable {α : Type} [Keyword α] [Keyword.Readable α]

@[simp]
theorem keyword_ofValue (a : α) : keyword? (ofValue (Value.keyword a)) = some a :=
  Keyword.Readable.read_name a

@[simp]
theorem nestedKeyword_ofValue (a : α) : nestedKeyword? (ofValue (Value.keyword a)) = some a :=
  Keyword.Readable.read_name a

@[simp]
theorem keyword_ofField (key : String) (o : Option α) :
    Json.Document.optional none (nullable? keyword?) (ofField (key, o.map Value.keyword)) =
      some o :=
  nullable_ofField rfl key fun a _ => keyword_ofValue a

end

@[simp]
theorem string_ofValue (s : String) : string? (ofValue (.string s)) = some s := rfl

@[simp]
theorem string_ofField (key : String) (o : Option String) :
    Json.Document.optional none (nullable? string?) (ofField (key, o.map .string)) = some o :=
  nullable_ofField rfl key fun s _ => string_ofValue s

@[simp]
theorem bool_ofValue (b : Bool) : bool? (ofValue (.bool b)) = some b := rfl

@[simp]
theorem uint64_ofValue (n : UInt64) : uint64? (ofValue (.ofUInt64 n)) = some n := by
  have positive : 0 ≤ (n.toNat : Int) := by omega
  simp [ofValue, Value.ofUInt64, Json.Integer.ofUInt64, uint64?, positive]

@[simp]
theorem int64_ofField (key : String) (o : Option Int64) :
    Json.Document.optional none (nullable? int64?) (ofField (key, o.map .ofInt64)) = some o := by
  refine nullable_ofField rfl key fun n _ => ?_
  have fits : n.toInt < 0x8000000000000000 := n.toInt_lt
  simp [ofValue, Value.ofInt64, Json.Integer.ofInt64, int64?, fits]

namespace FieldKey

def fields (k : FieldKey) : List (String × Option Value) :=
  [("entity", some (.string k.entity)), ("field", some (.string k.field))]

@[simp]
theorem ofDocument_written (k : FieldKey) :
    ofDocument? (.object (ofMembers (written k.fields))) = some k := by
  have own : record? [entityNames, fieldNames] (.object (ofMembers (written k.fields))) = _ :=
    record_written k.fields rfl
  rw [ofDocument?, own]
  rfl

@[simp]
theorem ofDocument_toValue (k : FieldKey) : ofDocument? (ofValue k.toValue) = some k :=
  k.ofDocument_written

end FieldKey

@[simp]
theorem Predicate.ofDocument_toValue (p : Predicate) : ofDocument? (ofValue p.toValue) = some p := by
  have fields : p.toValue = .object (written
      [("operator", some (Value.keyword p.operator)), ("value", some (.string p.rawValue)),
        ("value2", p.rawSecond.map .string)]) := by
    rw [toValue, memberOf_eq]
    rfl
  rw [fields, ofDocument?, record_written _ rfl]
  simp

@[simp]
theorem OrderKey.ofDocument_toValue (o : OrderKey) : ofDocument? (ofValue o.toValue) = some o := by
  have fields : o.toValue = .object (written
      (o.key.fields ++ [("direction", some (Value.keyword o.direction))])) := rfl
  rw [fields, ofDocument?, shared_written [_] o.key.fields rfl rfl]
  simp

@[simp]
theorem Window.ofDocument_toValue (w : Window) : ofDocument? (ofValue w.toValue) = some w := by
  have fields : w.toValue = .object (written
      [("function", some (Value.keyword w.function)),
        ("partitionBy", some (.array (w.partitionBy.map (·.toValue)))),
        ("orderBy", some (.array (w.orderBy.map (·.toValue)))),
        ("offset", w.offset.map .ofInt64)]) := by
    rw [toValue, memberOf_eq]
    rfl
  have partition : list? FieldKey.ofDocument? (ofValue (.array (w.partitionBy.map (·.toValue)))) =
      some w.partitionBy :=
    list_written fun k _ => k.ofDocument_toValue
  have order : list? OrderKey.ofDocument? (ofValue (.array (w.orderBy.map (·.toValue)))) =
      some w.orderBy :=
    list_written fun o _ => o.ofDocument_toValue
  rw [fields, ofDocument?, record_written _ rfl]
  simp [partition, order]

@[simp]
theorem Sorting.ofDocument_toValue (s : Sorting) : ofDocument? (ofValue s.toValue) = some s := by
  have fields : s.toValue = .object (written
      [("direction", some (Value.keyword s.direction)), ("sortOrder", some (.ofUInt64 s.order))]) :=
    rfl
  rw [fields, ofDocument?, record_written _ rfl]
  simp

theorem Aggregation.ofParts_parts (c : Column) :
    Aggregation.ofParts c.accumulator? c.window? = c.aggregation := by
  unfold Column.accumulator? Column.window?
  cases c.aggregation <;> rfl

namespace Column

def fields (c : Column) : List (String × Option Value) :=
  [("selected", some (.bool c.selected)), ("accumulator", c.accumulator?.map Value.keyword),
    ("window", c.window?.map Window.toValue), ("sort", c.sort.map Sorting.toValue),
    ("filter", c.filter.map Predicate.toValue), ("having", c.having.map Predicate.toValue),
    ("alias", c.rawAlias.map .string), ("expression", c.rawExpression.map .string)]

theorem toValue_eq (c : Column) : c.toValue = .object (written (c.key.fields ++ c.fields)) := by
  simp only [toValue, memberOf_eq, List.append_assoc, ← Json.written_append]
  rfl

@[simp]
theorem ofDocument_toValue (c : Column) : ofDocument? (ofValue c.toValue) = some c := by
  have window : Json.Document.optional none (nullable? Window.ofDocument?)
      (ofField ("window", c.window?.map Window.toValue)) = some c.window? :=
    nullable_ofField rfl _ fun w _ => w.ofDocument_toValue
  have sort : Json.Document.optional none (nullable? Sorting.ofDocument?)
      (ofField ("sort", c.sort.map Sorting.toValue)) = some c.sort :=
    nullable_ofField rfl _ fun s _ => s.ofDocument_toValue
  have predicate (key : String) (o : Option Predicate) :
      Json.Document.optional none (nullable? Predicate.ofDocument?)
        (ofField (key, o.map Predicate.toValue)) = some o :=
    nullable_ofField rfl _ fun p _ => p.ofDocument_toValue
  rw [toValue_eq, ofDocument?, shared_written c.fields c.key.fields rfl rfl]
  simp [fields, window, sort, predicate, Aggregation.ofParts_parts]

end Column

@[simp]
theorem SortKey.ofDocument_toValue (k : SortKey) : ofDocument? (ofValue k.toValue) = some k := by
  have fields : k.toValue = .object (written
      [("path", some (.string k.path)), ("direction", some (Value.keyword k.direction))]) := rfl
  rw [fields, ofDocument?, record_written _ rfl]
  simp

namespace StageBody

def fields : StageBody → List (String × Option Value)
  | .unwind path preserveEmpty =>
    [("path", some (.string path)), ("preserveNullAndEmptyArrays", some (.bool preserveEmpty))]
  | .addFields fields | .set fields => [("fields", some (.object fields))]
  | .group spec => [("spec", some (.object spec))]
  | .sort keys => [("keys", some (.array (keys.map (·.toValue))))]
  | .computed field operator args =>
    [("field", some (.string field)), ("operator", some (.string operator)),
      ("args", some (.strings args))]

def maps : StageBody → List Json.Object
  | .addFields fields | .set fields => [fields]
  | .group spec => [spec]
  | .unwind .. | .sort _ | .computed .. => []

theorem members_eq (b : StageBody) : b.members = written b.fields := by
  cases b <;> rfl

theorem type_typeName (b : StageBody) : type? (.string b.typeName) = some b.typeName := by
  cases b <;> rfl

theorem ofType_typeName {b : StageBody}
    (distinct : ∀ o ∈ b.maps, (Value.object o).DistinctKeys) :
    ofType? b.typeName (ofValue (.object (written b.fields))) = some b := by
  cases b with
  | unwind path preserveEmpty =>
    simp only [typeName, ofType?, fields]
    rw [record_written _ rfl]
    simp
  | addFields o | set o | group o =>
    have kept := object_ofValue (distinct o (List.mem_singleton_self o))
    simp only [typeName, ofType?, fields]
    rw [record_written _ rfl]
    simp [kept]
  | sort keys =>
    have kept : list? SortKey.ofDocument? (ofValue (.array (keys.map (·.toValue)))) = some keys :=
      list_written fun k _ => k.ofDocument_toValue
    simp only [typeName, ofType?, fields]
    rw [record_written _ rfl]
    simp [kept]
  | computed field operator args =>
    have kept : list? string? (ofValue (.strings args)) = some args :=
      list_written fun s _ => string_ofValue s
    simp only [typeName, ofType?, fields]
    rw [record_written _ rfl]
    simp [kept]

theorem ofMembers_written {b : StageBody}
    (distinct : ∀ o ∈ b.maps, (Value.object o).DistinctKeys) :
    ofMembers?
        (Json.Document.ofMembers (written (("type", some (.string b.typeName)) :: b.fields))) =
      some b := by
  have type : member? ["type"] (Json.Document.ofMembers
      (written (("type", some (.string b.typeName)) :: b.fields))) =
      some (some (.string b.typeName)) := by
    cases b <;> rfl
  -- No body has a member of the name that its type goes by.
  have others : (Json.Document.ofMembers
      (written (("type", some (.string b.typeName)) :: b.fields))).filter (·.1 ≠ "type") =
      Json.Document.ofMembers (written b.fields) := by
    cases b <;> rfl
  have body := ofType_typeName distinct
  rw [ofValue] at body
  simp only [ofMembers?, type, others, Option.bind_eq_bind, Option.bind_some, required,
    type_typeName, body]

end StageBody

theorem CustomStage.ofDocument_toValue {s : CustomStage}
    (distinct : ∀ o ∈ s.body.maps, (Value.object o).DistinctKeys) :
    ofDocument? (ofValue s.toValue) = some s := by
  obtain ⟨position, body⟩ := s
  have fields : toValue ⟨position, body⟩ = .object (written
      (("position", some (Value.keyword position)) :: ("type", some (.string body.typeName)) ::
        body.fields)) := by
    rw [toValue, StageBody.members_eq]
    rfl
  rw [fields, ofDocument?, shared_written [("position", some (Value.keyword position))]
    (("type", some (.string body.typeName)) :: body.fields)
    (by cases body <;> rfl) (by cases body <;> rfl)]
  simp [StageBody.ofMembers_written distinct]

namespace Options

variable {Q : Type} {query? : Document → Option Q}

theorem setOperation_toValue {s : SetOperation Q} {v : Value}
    (reads : query? (ofValue v) = some s.query) :
    setOperation? query? (ofValue (s.toValue v)) = some s := by
  have fields : s.toValue v = .object (written
      [("type", some (Value.keyword s.operator)), ("all", some (.bool s.all)),
        ("query", some v)]) := rfl
  rw [fields, setOperation?, record_written _ rfl]
  simp [reads]

theorem ofDocument_toValue {o : Options Q} {sets : List Value}
    (distinct : ∀ s ∈ o.customStages, ∀ o ∈ s.body.maps, (Value.object o).DistinctKeys)
    (reads : list? (setOperation? query?) (ofValue (.array sets)) = some o.setOperations) :
    ofDocument? query? (ofValue (o.toValue sets)) = some o := by
  have fields : o.toValue sets = .object (written
      [("distinct", some (.bool o.distinct)), ("groupByAll", some (.bool o.groupByAll)),
        ("limit", some (.ofOption .ofUInt64 o.limit)),
        ("offset", some (.ofOption .ofUInt64 o.offset)),
        ("joinType", some (Value.keyword o.joinType)),
        ("lookupType", some (Value.keyword o.lookupType)),
        ("customWhere", some (.ofOption .string o.rawWhere)), ("setOperations", some (.array sets)),
        ("customStages", some (.array (o.customStages.map (·.toValue))))]) := rfl
  have number (n : Option UInt64) :
      nullable? uint64? (ofValue (.ofOption .ofUInt64 n)) = some n :=
    nullable_ofOption rfl fun n _ => uint64_ofValue n
  have text (s : Option String) : nullable? string? (ofValue (.ofOption .string s)) = some s :=
    nullable_ofOption rfl fun s _ => string_ofValue s
  have stages : list? CustomStage.ofDocument?
      (ofValue (.array (o.customStages.map (·.toValue)))) = some o.customStages :=
    list_written fun s mem => CustomStage.ofDocument_toValue (distinct s mem)
  rw [fields, ofDocument?, record_written _ rfl]
  simp [number, text, stages, reads]

end Options

namespace Query

mutual

def maps : Query → List Json.Object
  | ⟨_, { setOperations := sets, customStages := stages, .. }⟩ =>
    stages.flatMap (·.body.maps) ++ setMaps sets

def setMaps : List (SetOperation Query) → List Json.Object
  | [] => []
  | s :: rest => s.query.maps ++ setMaps rest

end

theorem mem_maps {q : Query} {o : Json.Object} :
    o ∈ q.maps ↔ (∃ s ∈ q.options.customStages, o ∈ s.body.maps) ∨
      ∃ s ∈ q.options.setOperations, o ∈ s.query.maps := by
  obtain ⟨columns, options⟩ := q
  have sets (sets : List (SetOperation Query)) :
      setMaps sets = sets.flatMap (·.query.maps) := by
    induction sets with
    | nil => rfl
    | cons s rest ih => rw [setMaps, ih, List.flatMap_cons]
  rw [maps, sets, List.mem_append, List.mem_flatMap, List.mem_flatMap]

theorem setValues_eq (sets : List (SetOperation Query)) :
    setValues sets = sets.map fun s => s.toValue s.query.toValue := by
  induction sets with
  | nil => rfl
  | cons s rest ih => rw [setValues, ih, List.map_cons]

theorem toValue_eq (q : Query) :
    q.toValue = .object (written
      [("columns", some (.array (q.columns.map (·.toValue)))),
        ("options", some (q.options.toValue (setValues q.options.setOperations)))]) := by
  obtain ⟨columns, options⟩ := q
  rw [toValue]
  rfl

theorem depth_operand {q : Query} {s : SetOperation Query} (mem : s ∈ q.options.setOperations) :
    (ofValue s.query.toValue).depth < (ofValue q.toValue).depth := by
  have sets : s.toValue s.query.toValue ∈ setValues q.options.setOperations := by
    rw [setValues_eq]
    exact List.mem_map_of_mem mem
  calc (ofValue s.query.toValue).depth
      < (ofValue (s.toValue s.query.toValue)).depth :=
        depth_lt_object (m := ("query", _)) (by simp)
    _ < (ofValue (.array (setValues q.options.setOperations))).depth := depth_lt_array sets
    _ < (ofValue (q.options.toValue (setValues q.options.setOperations))).depth :=
        depth_lt_object (m := ("setOperations", .array (setValues q.options.setOperations)))
          (by simp)
    _ < (ofValue q.toValue).depth := by
        rw [toValue_eq]
        exact depth_lt_object
          (m := ("options", q.options.toValue (setValues q.options.setOperations)))
          (by simp [written])

theorem mk_parts (q : Query) : Query.mk q.columns q.options = q := by
  cases q
  rfl

theorem within_toValue {q : Query} (distinct : ∀ o ∈ q.maps, (Value.object o).DistinctKeys)
    {fuel : Nat} (enough : (ofValue q.toValue).depth < fuel) :
    within? fuel (ofValue q.toValue) = some q := by
  induction q using Query.induction generalizing fuel with
  | step q ih =>
    obtain ⟨fuel, rfl⟩ : ∃ n, fuel = n + 1 := ⟨fuel - 1, by omega⟩
    have columns : list? Column.ofDocument? (ofValue (.array (q.columns.map (·.toValue)))) =
        some q.columns :=
      list_written fun c _ => c.ofDocument_toValue
    have sets : list? (Options.setOperation? (within? fuel))
        (ofValue (.array (setValues q.options.setOperations))) = some q.options.setOperations := by
      rw [setValues_eq]
      refine list_written fun s mem => Options.setOperation_toValue (ih s mem ?_ ?_)
      · exact fun o inside => distinct o (mem_maps.mpr (.inr ⟨s, mem, inside⟩))
      -- What is left of the fuel is enough, for an operand is less deep than its query.
      · have deeper := depth_operand mem
        omega
    have options := Options.ofDocument_toValue
      (fun s mem o inside => distinct o (mem_maps.mpr (.inl ⟨s, mem, inside⟩))) sets
    rw [toValue_eq, within?, record_written _ rfl]
    simp [columns, options, mk_parts]

end Query

@[simp]
theorem floatFree_keyword {α : Type} [Keyword α] (a : α) : (Value.keyword a).FloatFree :=
  .string _

@[simp]
theorem floatFree_ofUInt64 (n : UInt64) : (Value.ofUInt64 n).FloatFree := .int _

@[simp]
theorem floatFree_ofInt64 (n : Int64) : (Value.ofInt64 n).FloatFree := .int _

@[simp]
theorem floatFree_ofOption {α : Type} {f : α → Value} (each : ∀ a, (f a).FloatFree)
    (o : Option α) : (Value.ofOption f o).FloatFree := by
  cases o with
  | none => exact .null
  | some a => exact each a

@[simp]
theorem floatFree_memberOf {α : Type} {f : α → Value} (each : ∀ a, (f a).FloatFree) (key : String)
    (o : Option α) : ∀ m ∈ Json.memberOf key f o, m.2.FloatFree := by
  cases o with
  | none => nofun
  | some a => simpa [Json.memberOf] using each a

theorem FieldKey.floatFree (k : FieldKey) : k.toValue.FloatFree := by
  simp [toValue, members]

theorem Predicate.floatFree (p : Predicate) : p.toValue.FloatFree := by
  simp only [toValue, Value.floatFree_object, List.forall_mem_append]
  exact ⟨by simp, floatFree_memberOf .string _ _⟩

theorem OrderKey.floatFree (o : OrderKey) : o.toValue.FloatFree := by
  simp [toValue, FieldKey.members]

theorem Window.floatFree (w : Window) : w.toValue.FloatFree := by
  simp only [toValue, Value.floatFree_object, List.forall_mem_append]
  exact ⟨by simp [FieldKey.floatFree, OrderKey.floatFree], floatFree_memberOf floatFree_ofInt64 _ _⟩

theorem Sorting.floatFree (s : Sorting) : s.toValue.FloatFree := by
  simp [toValue]

theorem Column.floatFree (c : Column) : c.toValue.FloatFree := by
  simp only [toValue, Value.floatFree_object, List.forall_mem_append]
  and_intros
  · simp [FieldKey.members]
  · simp
  · exact floatFree_memberOf floatFree_keyword _ _
  · exact floatFree_memberOf Window.floatFree _ _
  · exact floatFree_memberOf Sorting.floatFree _ _
  · exact floatFree_memberOf Predicate.floatFree _ _
  · exact floatFree_memberOf Predicate.floatFree _ _
  · exact floatFree_memberOf .string _ _
  · exact floatFree_memberOf .string _ _

theorem SortKey.floatFree (k : SortKey) : k.toValue.FloatFree := by
  simp [toValue]

theorem StageBody.floatFree {b : StageBody} (exact : ∀ o ∈ b.maps, (Value.object o).FloatFree) :
    ∀ m ∈ b.members, m.2.FloatFree := by
  cases b with
  | unwind | computed => simp [members, Value.strings]
  | sort keys => simp [members, SortKey.floatFree]
  | addFields o | set o | group o =>
    exact List.forall_mem_singleton.mpr (exact o (List.mem_singleton_self o))

theorem CustomStage.floatFree {s : CustomStage}
    (exact : ∀ o ∈ s.body.maps, (Value.object o).FloatFree) : s.toValue.FloatFree := by
  simp only [toValue, Value.floatFree_object, List.forall_mem_append]
  exact ⟨by simp, StageBody.floatFree exact⟩

theorem Query.floatFree {q : Query} (exact : ∀ o ∈ q.maps, (Value.object o).FloatFree) :
    q.toValue.FloatFree := by
  induction q using Query.induction with
  | step q ih =>
    have sets : (Value.array (setValues q.options.setOperations)).FloatFree := by
      rw [setValues_eq, Value.floatFree_array, List.forall_mem_map]
      intro s mem
      have inner := ih s mem fun o inside => exact o (mem_maps.mpr (.inr ⟨s, mem, inside⟩))
      simp [SetOperation.toValue, inner]
    have stages : (Value.array (q.options.customStages.map (·.toValue))).FloatFree := by
      rw [Value.floatFree_array, List.forall_mem_map]
      exact fun s mem => CustomStage.floatFree fun o inside =>
        exact o (mem_maps.mpr (.inl ⟨s, mem, inside⟩))
    have options : (q.options.toValue (setValues q.options.setOperations)).FloatFree := by
      rw [Options.toValue, Value.floatFree_object]
      simp only [List.forall_mem_cons, sets, stages]
      simp
    rw [toValue_eq]
    simp [written, Column.floatFree, options]

-- The maps of custom stages have each of their keys once, as maps do.
theorem Query.read_compact {q : Query} (exact : ∀ o ∈ q.maps, (Value.object o).FloatFree)
    (distinct : ∀ o ∈ q.maps, (Value.object o).DistinctKeys)
    (shallow : (ofValue q.toValue).depth ≤ maxDepth) : read? q.toValue.compact = some q := by
  rw [read?, Json.Document.read_value (floatFree exact) shallow, Option.bind_some, ofDocument?]
  exact within_toValue distinct (Nat.lt_succ_self _)

-- Texts that are there and empty, a window beside a sort, and a map with a map inside.
def ledgerCard : Query :=
  { columns :=
      [{ Column.ofKey ⟨"ledger", "amount \"net\""⟩ with
          aggregation := .window ⟨.lag, [⟨"ledger", ""⟩], [⟨⟨"ledger", "day"⟩, .desc⟩], some (-1)⟩
          sort := some ⟨.asc, 18446744073709551615⟩
          filter := some ⟨.notEq, "", some ""⟩
          rawAlias := some "" },
        { Column.ofKey ⟨"ledger", "day"⟩ with
          selected := false
          aggregation := .accumulator .stdDevPop
          having := some ⟨.between, "1\n", none⟩ }]
    options :=
      { (Options.default : Options Query) with
        offset := some 0
        setOperations := [⟨.except, true, .empty⟩]
        customStages :=
          [⟨.atEnd, .addFields [("n", .ofInt64 (-5)), ("inner", .object [("n", .null)])]⟩] } }

theorem ledgerCard_read :
    (∀ o ∈ ledgerCard.maps, (Value.object o).FloatFree) ∧
      (∀ o ∈ ledgerCard.maps, (Value.object o).DistinctKeys) ∧
      (ofValue ledgerCard.toValue).depth ≤ maxDepth ∧
      Query.read? ledgerCard.toValue.compact = some ledgerCard := by
  have maps : ledgerCard.maps = [[("n", .ofInt64 (-5)), ("inner", .object [("n", .null)])]] := rfl
  have exact : ∀ o ∈ ledgerCard.maps, (Value.object o).FloatFree := by
    rw [maps, List.forall_mem_singleton]
    refine .object ?_
    rw [List.forall_mem_cons, List.forall_mem_singleton]
    exact ⟨.int _, .object (List.forall_mem_singleton.mpr .null)⟩
  have distinct : ∀ o ∈ ledgerCard.maps, (Value.object o).DistinctKeys := by
    rw [maps, List.forall_mem_singleton]
    refine .object (by decide) ?_
    rw [List.forall_mem_cons, List.forall_mem_singleton]
    exact ⟨.number _, .object (by decide) (List.forall_mem_singleton.mpr .null)⟩
  have shallow : (ofValue ledgerCard.toValue).depth ≤ maxDepth := by decide
  exact ⟨exact, distinct, shallow, Query.read_compact exact distinct shallow⟩

end QueryBuilder
