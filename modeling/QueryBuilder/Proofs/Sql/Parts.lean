import QueryBuilder.Sql.Statement

set_option autoImplicit false

namespace QueryBuilder.Sql

-- A part of a text: a field behind its entity, an entity that is brought in, or what is around.
inductive Part where
  | plain (text : String)
  | field (key : FieldKey)
  | entity (name : String)

namespace Part

def text (d : Dialect) : Part → String
  | plain text => text
  | field k => d.quoteIdent k.entity ++ "." ++ d.quoteIdent k.field
  | entity name => d.quoteIdent name

def field? : Part → Option FieldKey
  | field k => some k
  | _ => none

def entity? : Part → Option String
  | entity name => some name
  | _ => none

def join (d : Dialect) (ps : List Part) : String := String.join (ps.map (text d))

def listed (separator : String) (items : List (List Part)) : List Part :=
  [plain separator].intercalate items

end Part

def Operand.parts : Operand → List Part
  | .field k => [.field k]
  | .raw text => [.plain text]

def aggregateHead (d : Dialect) : Accumulator → String
  | .count => "COUNT("
  | .countDistinct => "COUNT(DISTINCT "
  | .sum => "SUM("
  | .avg => "AVG("
  | .min => "MIN("
  | .max => "MAX("
  | .stdDevPop => "STDDEV_POP("
  | .stdDevSamp => "STDDEV_SAMP("
  | .push => d.arrayAggregate ++ "("
  | .addToSet => d.arrayAggregate ++ if d = .mysql then "(" else "(DISTINCT "
  | .first | .last => "ANY_VALUE("

def windowArgumentParts (w : Window) (operand : List Part) : List Part :=
  if w.function.takesArgument then
    match w.offset with
    | some n =>
      if w.function.takesOffset then operand ++ [.plain (", " ++ Digits.intText n.toInt)]
      else operand
    | none => operand
  else []

def partitionParts (keys : List FieldKey) : List (List Part) :=
  if keys.isEmpty then []
  else [.plain "PARTITION BY " :: Part.listed ", " (keys.map fun k => [.field k])]

def orderParts (keys : List OrderKey) : List (List Part) :=
  if keys.isEmpty then []
  else [.plain "ORDER BY " ::
    Part.listed ", " (keys.map fun o => [.field o.key, .plain (" " ++ o.direction.name)])]

def Term.parts (d : Dialect) : Term → List Part
  | .operand o => o.parts
  | .aggregate a o => .plain (aggregateHead d a) :: (o.parts ++ [.plain ")"])
  | .window w o =>
    .plain (w.function.name ++ "(") :: (windowArgumentParts w o.parts ++
      .plain ") OVER (" :: (Part.listed " " (partitionParts w.partitionBy ++ orderParts w.orderBy) ++
        [.plain ")"]))

def Condition.parts (d : Dialect) : Condition → List Part
  | .compare t op value => t.parts d ++ [.plain (" " ++ op.name ++ " " ++ literalText value)]
  | .like t op pattern => t.parts d ++ [.plain (" " ++ op.name ++ " " ++ stringLiteral pattern)]
  | .among t op values =>
    t.parts d ++ [.plain (" " ++ op.name ++ " (" ++ commas (values.map literalText) ++ ")")]
  | .range t op low high =>
    t.parts d ++
      [.plain (" " ++ op.name ++ " " ++ literalText low ++ " AND " ++ literalText high)]
  | .test t op => t.parts d ++ [.plain (" " ++ op.name)]
  | .subquery text => [.plain ("EXISTS (" ++ text ++ ")")]
  | .raw text => [.plain text]

def SortTarget.parts (d : Dialect) : SortTarget → List Part
  | .named name => [.plain (d.quoteIdent name)]
  | .term t => t.parts d

def Item.parts (d : Dialect) (i : Item) : List Part :=
  match i.name with
  | some name => i.term.parts d ++ [.plain (" AS " ++ d.quoteIdent name)]
  | none => i.term.parts d

def Clause.parts (d : Dialect) : Clause → List Part
  | .select distinct items =>
    .plain (if distinct then "SELECT DISTINCT " else "SELECT ") ::
      if items.isEmpty then [.plain "*"] else Part.listed ", " (items.map (·.parts d))
  | .source entity => [.plain "FROM ", .entity entity]
  | .join type step =>
    [.plain (type.name ++ " JOIN "), .entity step.toEntity, .plain " ON ",
      .field ⟨step.fromEntity, step.fromField⟩, .plain " = ", .field ⟨step.toEntity, step.toField⟩]
  | .crossJoin entity => [.plain "CROSS JOIN ", .entity entity]
  | .filter conditions => .plain "WHERE " :: Part.listed " AND " (conditions.map (·.parts d))
  | .groupByAll => [.plain "GROUP BY ALL"]
  | .groupBy keys => .plain "GROUP BY " :: Part.listed ", " (keys.map fun k => [.field k])
  | .having conditions => .plain "HAVING " :: Part.listed " AND " (conditions.map (·.parts d))
  | .orderBy targets =>
    .plain "ORDER BY " ::
      Part.listed ", " (targets.map fun t => t.1.parts d ++ [.plain (" " ++ t.2.name)])
  | .limit n => [.plain ("LIMIT " ++ Digits.text n.toNat)]
  | .offset n => [.plain ("OFFSET " ++ Digits.text n.toNat)]
  | .combine operator all => [.plain (operator.name ++ if all then " ALL" else "")]

def Operand.keys : Operand → List FieldKey
  | .field k => [k]
  | .raw _ => []

def Term.keys : Term → List FieldKey
  | .operand o | .aggregate _ o => o.keys
  | .window w o => (if w.function.takesArgument then o.keys else []) ++ Query.windowKeys w

def Condition.keys : Condition → List FieldKey
  | .compare t _ _ | .like t _ _ | .among t _ _ | .range t _ _ _ | .test t _ => t.keys
  | .subquery _ | .raw _ => []

def SortTarget.keys : SortTarget → List FieldKey
  | .named _ => []
  | .term t => t.keys

def Clause.keys : Clause → List FieldKey
  | .select _ items => items.flatMap (·.term.keys)
  | .join _ s => [⟨s.fromEntity, s.fromField⟩, ⟨s.toEntity, s.toField⟩]
  | .filter conditions | .having conditions => conditions.flatMap Condition.keys
  | .groupBy keys => keys
  | .orderBy targets => targets.flatMap (·.1.keys)
  | .source _ | .crossJoin _ | .groupByAll | .limit _ | .offset _ | .combine _ _ => []

def Clause.sources : Clause → List String
  | .source e | .crossJoin e => [e]
  | .join _ s => [s.toEntity]
  | _ => []

variable {d : Dialect}

namespace Part

@[simp] theorem text_plain (s : String) : (plain s).text d = s := rfl

@[simp] theorem text_field (k : FieldKey) : (field k).text d = columnText d k := rfl

@[simp] theorem text_entity (name : String) : (entity name).text d = d.quoteIdent name := rfl

@[simp] theorem join_nil : join d [] = "" := rfl

@[simp] theorem join_cons (p : Part) (ps : List Part) :
    join d (p :: ps) = p.text d ++ join d ps := by
  simp [join]

@[simp] theorem join_append (ps qs : List Part) : join d (ps ++ qs) = join d ps ++ join d qs := by
  simp [join]

@[simp] theorem join_listed (separator : String) (items : List (List Part)) :
    join d (listed separator items) = separator.intercalate (items.map (join d)) := by
  unfold listed
  induction items with
  | nil => rfl
  | cons ps items ih =>
    cases items with
    | nil => simp
    | cons qs items => simp_all [text, String.append_assoc]

theorem filterMap_listed {α : Type} {f : Part → Option α} (silent : ∀ s, f (plain s) = none)
    (separator : String) (items : List (List Part)) :
    (listed separator items).filterMap f = items.flatMap (List.filterMap f) := by
  unfold listed
  induction items with
  | nil => rfl
  | cons ps items ih =>
    cases items with
    | nil => simp
    | cons qs items => simp_all [List.filterMap_append]

end Part

@[simp] theorem Operand.join_parts (o : Operand) : Part.join d o.parts = o.text d := by
  cases o <;> simp [parts, text]

theorem aggregateText_eq (a : Accumulator) (operand : String) :
    aggregateText d a operand = aggregateHead d a ++ operand ++ ")" := by
  cases a with
  | countDistinct =>
    rw [aggregateText, call, ← String.append_assoc]
    rfl
  | addToSet =>
    have distinct : "(DISTINCT " = "(" ++ "DISTINCT " := rfl
    rw [aggregateText, call, aggregateHead]
    split
    · rfl
    · simp only [distinct, String.append_assoc]
  | _ => rfl

theorem join_windowArgumentParts (w : Window) (ps : List Part) :
    Part.join d (windowArgumentParts w ps) = windowArgument w (Part.join d ps) := by
  unfold windowArgumentParts windowArgument
  cases w.function.takesArgument <;> cases w.offset <;> simp
  split <;> simp [String.append_assoc]

theorem join_partitionParts (keys : List FieldKey) :
    (partitionParts keys).map (Part.join d) = partitionText d keys := by
  unfold partitionParts partitionText
  split <;> simp [commas, Function.comp_def]

theorem join_orderParts (keys : List OrderKey) :
    (orderParts keys).map (Part.join d) = orderText d keys := by
  unfold orderParts orderText
  have each (o : OrderKey) :
      columnText d o.key ++ (" " ++ o.direction.name) = orderKeyText d o := by
    rw [orderKeyText, String.append_assoc]
  split <;> simp [commas, Function.comp_def, each]

@[simp] theorem Term.join_parts (t : Term) : Part.join d (t.parts d) = t.text d := by
  cases t with
  | operand o => exact o.join_parts
  | aggregate a o => simp [parts, text, aggregateText_eq, String.append_assoc]
  | window w o =>
    simp [parts, text, windowText, call, join_windowArgumentParts, join_partitionParts,
      join_orderParts, String.append_assoc]

@[simp] theorem Condition.join_parts (c : Condition) : Part.join d (c.parts d) = c.text d := by
  cases c <;> simp [parts, text, String.append_assoc]

@[simp] theorem SortTarget.join_parts (t : SortTarget) : Part.join d (t.parts d) = t.text d := by
  cases t <;> simp [parts, text]

@[simp] theorem Item.join_parts (i : Item) : Part.join d (i.parts d) = i.text d := by
  unfold parts text
  cases i.name <;> simp [String.append_assoc]

theorem Clause.join_parts (c : Clause) : Part.join d (c.parts d) = c.text d := by
  cases c with
  | select distinct items =>
    simp only [parts, text]
    split <;> split <;> simp_all [commas, Function.comp_def]
  | _ => simp [parts, text, commas, conditionsText, Function.comp_def, String.append_assoc]

section

-- What is looked for in the parts; in a term or a condition it can only be in the fields.
variable {α : Type} {f : Part → Option α} (silent : ∀ s, f (.plain s) = none)
include silent

theorem Operand.filterMap_parts (o : Operand) :
    o.parts.filterMap f = o.keys.filterMap fun k => f (.field k) := by
  cases o <;> simp [parts, keys, List.filterMap_cons, silent]

theorem filterMap_windowArgumentParts (w : Window) (ps : List Part) :
    (windowArgumentParts w ps).filterMap f =
      if w.function.takesArgument then ps.filterMap f else [] := by
  unfold windowArgumentParts
  cases w.function.takesArgument <;> cases w.offset <;> simp
  split <;> simp [silent]

omit silent in
theorem flatMap_field (keys : List FieldKey) :
    keys.flatMap (fun k => [Part.field k].filterMap f) = keys.filterMap fun k => f (.field k) := by
  induction keys with
  | nil => rfl
  | cons k keys ih =>
    rw [List.flatMap_cons, ih]
    cases h : f (.field k) <;> simp [h]

theorem filterMap_partitionParts (keys : List FieldKey) :
    (partitionParts keys).flatMap (List.filterMap f) = keys.filterMap fun k => f (.field k) := by
  unfold partitionParts
  split
  · next none => rw [List.isEmpty_iff.mp none]; rfl
  · rw [List.flatMap_singleton, List.filterMap_cons_none (silent _), Part.filterMap_listed silent,
      List.flatMap_map, flatMap_field]

theorem filterMap_orderParts (keys : List OrderKey) :
    (orderParts keys).flatMap (List.filterMap f) =
      (keys.map (·.key)).filterMap fun k => f (.field k) := by
  unfold orderParts
  split
  · next none => rw [List.isEmpty_iff.mp none]; rfl
  · have bare (o : OrderKey) : [Part.field o.key, .plain (" " ++ o.direction.name)].filterMap f =
        [Part.field o.key].filterMap f := by
      simp [List.filterMap_cons, silent]
    rw [List.flatMap_singleton, List.filterMap_cons_none (silent _), Part.filterMap_listed silent,
      List.flatMap_map, ← flatMap_field, List.flatMap_map]
    simp only [bare]

theorem Term.filterMap_parts (t : Term) :
    (t.parts d).filterMap f = t.keys.filterMap fun k => f (.field k) := by
  cases t with
  | operand o => exact o.filterMap_parts silent
  | aggregate a o => simp [parts, keys, silent, o.filterMap_parts silent]
  | window w o =>
    simp only [parts, keys, List.filterMap_cons_none (silent _), List.filterMap_append,
      List.filterMap_nil, List.append_nil, filterMap_windowArgumentParts silent,
      o.filterMap_parts silent, Part.filterMap_listed silent, List.flatMap_append,
      filterMap_partitionParts silent, filterMap_orderParts silent, Query.windowKeys]
    split <;> simp

theorem Condition.filterMap_parts (c : Condition) :
    (c.parts d).filterMap f = c.keys.filterMap fun k => f (.field k) := by
  cases c <;> simp [parts, keys, silent, Term.filterMap_parts silent]

theorem SortTarget.filterMap_parts (t : SortTarget) :
    (t.parts d).filterMap f = t.keys.filterMap fun k => f (.field k) := by
  cases t <;> simp [parts, keys, silent, Term.filterMap_parts silent]

theorem Item.filterMap_parts (i : Item) :
    (i.parts d).filterMap f = i.term.keys.filterMap fun k => f (.field k) := by
  unfold parts
  cases i.name <;> simp [silent, Term.filterMap_parts silent]

theorem filterMap_conditions (separator : String) (conditions : List Condition) :
    (Part.listed separator (conditions.map (·.parts d))).filterMap f =
      (conditions.flatMap Condition.keys).filterMap fun k => f (.field k) := by
  rw [Part.filterMap_listed silent, List.flatMap_map, List.filterMap_flatMap]
  simp only [Condition.filterMap_parts silent]

theorem filterMap_items (separator : String) (items : List Item) :
    (Part.listed separator (items.map (·.parts d))).filterMap f =
      (items.flatMap (·.term.keys)).filterMap fun k => f (.field k) := by
  rw [Part.filterMap_listed silent, List.flatMap_map, List.filterMap_flatMap]
  simp only [Item.filterMap_parts silent]

theorem filterMap_targets (separator : String) (targets : List (SortTarget × SortDirection)) :
    (Part.listed separator
        (targets.map fun t => t.1.parts d ++ [.plain (" " ++ t.2.name)])).filterMap f =
      (targets.flatMap (·.1.keys)).filterMap fun k => f (.field k) := by
  rw [Part.filterMap_listed silent, List.flatMap_map, List.filterMap_flatMap]
  simp [silent, SortTarget.filterMap_parts silent]

theorem filterMap_groups (separator : String) (keys : List FieldKey) :
    (Part.listed separator (keys.map fun k => [.field k])).filterMap f =
      keys.filterMap fun k => f (.field k) := by
  rw [Part.filterMap_listed silent, List.flatMap_map, flatMap_field]

theorem Clause.filterMap_parts (c : Clause) :
    (c.parts d).filterMap f =
      (c.sources.filterMap fun e => f (.entity e)) ++ c.keys.filterMap fun k => f (.field k) := by
  cases c with
  | select distinct items =>
    rw [parts, List.filterMap_cons_none (silent _)]
    split
    · next none => simp [List.isEmpty_iff.mp none, sources, keys, silent]
    · exact filterMap_items silent _ items
  | source e | crossJoin e => simp [parts, sources, keys, List.filterMap_cons, silent]
  | join type step =>
    cases h : f (.entity step.toEntity) <;>
      simp [parts, sources, keys, List.filterMap_cons, silent, h]
  | filter conditions | having conditions =>
    rw [parts, List.filterMap_cons_none (silent _)]
    exact filterMap_conditions silent _ conditions
  | groupBy keys =>
    rw [parts, List.filterMap_cons_none (silent _)]
    exact filterMap_groups silent _ keys
  | orderBy targets =>
    rw [parts, List.filterMap_cons_none (silent _)]
    exact filterMap_targets silent _ targets
  | groupByAll | limit | offset | combine => simp [parts, sources, keys, silent]

end

theorem Clause.fields_parts (c : Clause) : (c.parts d).filterMap Part.field? = c.keys := by
  rw [c.filterMap_parts fun _ => rfl]
  simp [Part.field?]

theorem Clause.entities_parts (c : Clause) : (c.parts d).filterMap Part.entity? = c.sources := by
  rw [c.filterMap_parts fun _ => rfl]
  simp [Part.entity?]

end QueryBuilder.Sql
