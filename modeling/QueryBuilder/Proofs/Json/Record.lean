import QueryBuilder.Query.Document
import QueryBuilder.Proofs.Json.Tree

set_option autoImplicit false

namespace QueryBuilder.Json

inductive Value.DistinctKeys : Value → Prop
  | null : DistinctKeys .null
  | bool (b : Bool) : DistinctKeys (.bool b)
  | number (n : Number) : DistinctKeys (.number n)
  | string (s : String) : DistinctKeys (.string s)
  | array {items : List Value} (each : ∀ v ∈ items, v.DistinctKeys) : DistinctKeys (.array items)
  | object {members : List (String × Value)} (own : (Object.keys members).Nodup)
    (each : ∀ m ∈ members, m.2.DistinctKeys) : DistinctKeys (.object members)

namespace Document

theorem valueItems_eq (items : List Document) : valueItems? items = items.mapM value? := by
  induction items with
  | nil => rfl
  | cons d rest ih => rw [valueItems?, ih, List.mapM_cons]

theorem valueMembers_eq (members : List (String × Document)) :
    valueMembers? members = members.mapM fun m => m.2.value?.map (m.1, ·) := by
  induction members with
  | nil => rfl
  | cons m rest ih =>
    rw [valueMembers?, ih, List.mapM_cons]
    cases m.2.value? <;> rfl

theorem exists_mapM {α β : Type} {f : α → Option β} {xs : List α}
    (each : ∀ x ∈ xs, ∃ y, f x = some y) : ∃ ys, xs.mapM f = some ys := by
  induction xs with
  | nil => exact ⟨[], rfl⟩
  | cons x rest ih =>
    rw [List.forall_mem_cons] at each
    obtain ⟨y, first⟩ := each.1
    obtain ⟨ys, others⟩ := ih each.2
    exact ⟨y :: ys, by rw [List.mapM_cons, first, others]; rfl⟩

theorem exists_valueMembers {members : List (String × Value)}
    (each : ∀ m ∈ members, ∃ w, (ofValue m.2).value? = some w) :
    ∃ ws, valueMembers? (ofMembers members) = some ws := by
  rw [valueMembers_eq, ofMembers_eq]
  refine exists_mapM fun d mem => ?_
  obtain ⟨m, inside, rfl⟩ := List.mem_map.mp mem
  obtain ⟨w, value⟩ := each m inside
  exact ⟨(m.1, w), by rw [value, Option.map_some]⟩

theorem exists_value (v : Value) : ∃ w, (ofValue v).value? = some w := by
  induction v using Value.induction with
  | null | bool | number | string => exact ⟨_, rfl⟩
  | array items each =>
    have items : ∃ ws, valueItems? (ofItems items) = some ws := by
      rw [valueItems_eq, ofItems_eq]
      exact exists_mapM (by simpa using each)
    obtain ⟨ws, values⟩ := items
    exact ⟨_, by rw [ofValue, value?, values, Option.map_some]⟩
  | object members each =>
    obtain ⟨ws, values⟩ := exists_valueMembers each
    exact ⟨_, by rw [ofValue, value?, values, Option.map_some]⟩

theorem value_ofValue {v : Value} (distinct : v.DistinctKeys) : (ofValue v).value? = some v := by
  induction distinct with
  | null | bool | number | string => rfl
  | @array items each ih =>
    have items : (items.map ofValue).mapM value? = some (items.map id) := mapM_map_some ih
    rw [ofValue, ofItems_eq, value?, valueItems_eq, items, Option.map_some, List.map_id]
  | @object members own each ih =>
    have members' : (members.map fun m => (m.1, ofValue m.2)).mapM
        (fun m => m.2.value?.map (m.1, ·)) = some (members.map id) :=
      mapM_map_some fun m mem => by simp [ih m mem]
    rw [ofValue, ofMembers_eq, value?, valueMembers_eq, members', Option.map_some, List.map_id,
      Object.ofMembers_of_nodup own]

end Document

def written (fields : List (String × Option Value)) : List (String × Value) :=
  fields.filterMap fun f => f.2.map (f.1, ·)

theorem written_append (fields others : List (String × Option Value)) :
    written (fields ++ others) = written fields ++ written others :=
  List.filterMap_append

theorem memberOf_eq {α : Type} (key : String) (f : α → Value) (o : Option α) :
    memberOf key f o = written [(key, o.map f)] := by
  cases o <;> rfl

namespace Document

def ofField (f : String × Option Value) : Option Document := f.2.map ofValue

theorem ofMembers_written (fields : List (String × Option Value)) :
    ofMembers (written fields) = fields.filterMap fun f => f.2.map fun v => (f.1, ofValue v) := by
  rw [ofMembers_eq, written, List.map_filterMap]
  simp only [Option.map_map, Function.comp_def]

theorem filter_written (p : String → Bool) (fields : List (String × Option Value)) :
    (ofMembers (written fields)).filter (fun m => p m.1) =
      ofMembers (written (fields.filter fun f => p f.1)) := by
  rw [ofMembers_written, ofMembers_written, List.filter_filterMap, List.filterMap_filter]
  congr 1
  funext f
  cases f.2 <;> cases kept : p f.1 <;> simp [kept]

def onlyMember? : List (String × Document) → Option (Option Document)
  | [] => some none
  | [m] => some (some m.2)
  | _ => none

theorem members_written {names : List (List String)} {fields own : List (String × Option Value)}
    (apart : names.map (fun ns => fields.filter (·.1 ∈ ns)) = own.map ([·])) :
    (names.mapM fun ns => member? ns (ofMembers (written fields))) =
      some (own.map ofField) := by
  have found (ns : List String) : member? ns (ofMembers (written fields)) =
      onlyMember? (ofMembers (written (fields.filter (·.1 ∈ ns)))) := by
    rw [← filter_written fun k => k ∈ ns]
    rfl
  have single : ∀ f ∈ own, onlyMember? (ofMembers (written [f])) = some (ofField f) := by
    rintro ⟨key, v⟩ -
    cases v <;> rfl
  calc names.mapM (fun ns => member? ns (ofMembers (written fields)))
      = (names.map fun ns => fields.filter (·.1 ∈ ns)).mapM
          (fun fs => onlyMember? (ofMembers (written fs))) := by
        rw [List.mapM_map]
        simp only [found, Function.comp_def]
    _ = some (own.map ofField) := by
        rw [apart]
        exact mapM_map_some single

theorem record_written {names : List (List String)} (fields : List (String × Option Value))
    (apart : names.map (fun ns => fields.filter (·.1 ∈ ns)) = fields.map ([·])) :
    record? names (ofValue (.object (written fields))) =
      some (fields.map ofField) :=
  members_written apart

theorem shared_written {names : List (List String)} {fields : List (String × Option Value)}
    (own left : List (String × Option Value))
    (apart : names.map (fun ns => fields.filter (·.1 ∈ ns)) = own.map ([·]))
    (others : fields.filter (fun f => f.1 ∉ names.flatten) = left) :
    shared? names (ofValue (.object (written fields))) =
      some (own.map ofField, ofMembers (written left)) := by
  have rest : (ofMembers (written fields)).filter (fun m => m.1 ∉ names.flatten) =
      ofMembers (written left) := by
    rw [← others, ← filter_written fun k => k ∉ names.flatten]
  have readable : ∃ ws, valueMembers? (ofMembers (written left)) = some ws :=
    exists_valueMembers fun m _ => exists_value m.2
  obtain ⟨ws, readable⟩ := readable
  simp only [ofValue, shared?, members_written apart, rest, readable, Option.bind_eq_bind,
    Option.bind_some]
  rfl

section

variable {α : Type} {f : Document → Option α} {g : α → Value}

@[simp]
theorem required_ofField (key : String) (v : Value) :
    required f (ofField (key, some v)) = f (ofValue v) := rfl

@[simp]
theorem optional_ofField (default : α) (key : String) (v : Value) :
    optional default f (ofField (key, some v)) = f (ofValue v) := rfl

theorem nullable_ofValue (null : f .null = none) {a : α} (reads : f (ofValue (g a)) = some a) :
    nullable? f (ofValue (g a)) = some (some a) := by
  unfold nullable?
  split
  · next empty =>
    rw [empty, null] at reads
    cases reads
  · rw [reads, Option.map_some]

theorem nullable_ofField (null : f .null = none) (key : String) {o : Option α}
    (reads : ∀ a ∈ o, f (ofValue (g a)) = some a) :
    optional none (nullable? f) (ofField (key, o.map g)) = some o := by
  cases o with
  | none => rfl
  | some a => exact nullable_ofValue null (reads a rfl)

theorem nullable_ofOption (null : f .null = none) {o : Option α}
    (reads : ∀ a ∈ o, f (ofValue (g a)) = some a) :
    nullable? f (ofValue (.ofOption g o)) = some o := by
  cases o with
  | none => rfl
  | some a => exact nullable_ofValue null (reads a rfl)

theorem object_ofValue {o : Object} (distinct : (Value.object o).DistinctKeys) :
    object? (ofValue (.object o)) = some o := by
  have value := value_ofValue distinct
  rw [ofValue] at value ⊢
  rw [object?, value]

theorem list_written {xs : List α} (reads : ∀ a ∈ xs, f (ofValue (g a)) = some a) :
    list? f (ofValue (.array (xs.map g))) = some xs := by
  rw [ofValue, ofItems_eq, list?, List.map_map]
  exact (mapM_map_some reads).trans (congrArg some (List.map_id' xs))

end

end Document

end QueryBuilder.Json
