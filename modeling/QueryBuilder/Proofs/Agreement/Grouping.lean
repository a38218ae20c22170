import QueryBuilder.Proofs.Agreement.Filters
import QueryBuilder.Proofs.Pipeline.Naming

set_option autoImplicit false

namespace QueryBuilder

open Json (Value Object)

-- The document that a pipeline groups by, and the paths that stand in it.
inductive Pipeline.KeyedBy : Value → List String → Prop
  | all : KeyedBy .null []
  | one (path : String) : KeyedBy (.string ("$" ++ path)) [path]
  | several (names paths : List String) (many : 2 ≤ paths.length)
      (length : names.length = paths.length) (distinct : names.Nodup) :
      KeyedBy (.object (names.zip (paths.map fun p => .string ("$" ++ p)))) paths

section

variable {q : Query} {c : Column}

end

namespace Sql

variable {s : Schema} {d : Dialect} {q : Query}

end Sql

namespace Pipeline

variable {s : Schema} {q : Query} {p : Pipeline}

theorem isGroupKey_outputs {root : String} {o : Output} (h : o ∈ outputs root true q) :
    o.isGroupKey = o.column.isGroupCandidate := by
  have selected := (List.mem_filter.mp (column_mem_selected h)).2
  rcases role_cases h with ⟨a, role, agg⟩ | ⟨w, role, agg⟩ | ⟨text, role, agg, own⟩ |
    ⟨role, agg, own⟩
  · simp [Output.isGroupKey, role, Column.isGroupCandidate, agg]
  · simp [Output.isGroupKey, role, Column.isGroupCandidate, agg]
  · simp [Output.isGroupKey, role, Column.isGroupCandidate, own]
  · simp [Output.isGroupKey, role, Column.isGroupCandidate, selected, agg, own]

theorem groupId_keyedBy (root : String) {os : List Output}
    (distinct : ((groupKeyOutputs os).map (·.name)).Nodup) :
    KeyedBy (groupId root os).render
      ((groupKeyOutputs os).map fun o => fieldPath root o.column.key) := by
  unfold groupId
  split
  · next none =>
    rw [none]
    exact .all
  · next o one =>
    rw [one]
    exact .one _
  · next others more =>
    generalize groupKeyOutputs os = keys at distinct others more
    have many : 2 ≤ keys.length := by
      match keys, others, more with
      | [], others, _ => exact absurd rfl others
      | [o], _, more => exact absurd rfl (more o)
      | _ :: _ :: rest, _, _ => simp
    have members : (keys.map fun o => (o.name, fieldPath root o.column.key)).map
        (fun k => (k.1, Value.string (reference k.2))) =
        (keys.map (·.name)).zip
          ((keys.map fun o => fieldPath root o.column.key).map fun p => .string (reference p)) := by
      rw [List.map_map, List.map_map, List.zip_map']
      rfl
    rw [GroupId.render, members, Object.ofMembers_of_nodup]
    · exact .several _ _ (by simpa using many) (by simp) distinct
    · rw [Object.keys, List.map_fst_zip]
      · exact distinct
      · simp

theorem nodup_groupKeyNames (root : String) (q : Query) :
    ((groupKeyOutputs (outputs root true q)).map (·.name)).Nodup :=
  (List.nodup_cons.mp (nodup_names_of_grouped root q)).2.sublist (List.filter_sublist.map _)

end Pipeline

end QueryBuilder
