import QueryBuilder.Proofs.Pipeline.Sources

set_option autoImplicit false

namespace QueryBuilder

section

variable {α β : Type} [BEq α] [LawfulBEq α] [BEq β] [LawfulBEq β]

theorem eraseDups_snoc (xs : List α) (x : α) :
    (xs ++ [x]).eraseDups = if x ∈ xs then xs.eraseDups else xs.eraseDups ++ [x] := by
  rw [List.eraseDups_append]
  split <;> simp [List.removeAll, List.eraseDups_cons, *]

theorem eraseDups_map {f : α → β} {xs : List α}
    (apart : ∀ x ∈ xs, ∀ y ∈ xs, f x = f y → x = y) :
    (xs.map f).eraseDups = xs.eraseDups.map f := by
  induction xs using List.reverseRecOn with
  | nil => rfl
  | append_singleton xs x ih =>
    have earlier := ih fun y hy z hz => apart y (by simp [hy]) z (by simp [hz])
    have known : f x ∈ xs.map f ↔ x ∈ xs := by
      refine ⟨fun mem => ?_, List.mem_map_of_mem⟩
      obtain ⟨y, hy, same⟩ := List.mem_map.mp mem
      exact apart y (by simp [hy]) x (by simp) same ▸ hy
    rw [List.map_append, List.map_singleton, eraseDups_snoc, eraseDups_snoc, earlier]
    simp only [known]
    split <;> simp

theorem length_eraseDups_le (xs : List α) : xs.eraseDups.length ≤ xs.length := by
  induction xs using List.reverseRecOn with
  | nil => exact Nat.le_refl _
  | append_singleton xs x ih =>
    rw [eraseDups_snoc, List.length_append]
    split
    · exact Nat.le_add_right_of_le ih
    · rw [List.length_append]
      exact Nat.add_le_add_right ih _

theorem nodup_of_length_eraseDups {xs : List α} (full : xs.length ≤ xs.eraseDups.length) :
    xs.Nodup := by
  induction xs using List.reverseRecOn with
  | nil => exact .nil
  | append_singleton xs x ih =>
    have le := length_eraseDups_le xs
    rw [eraseDups_snoc, List.length_append, List.length_singleton] at full
    split at full
    · omega
    · next fresh =>
      rw [List.length_append, List.length_singleton] at full
      refine List.nodup_append.mpr ⟨ih (by omega), List.nodup_singleton x, ?_⟩
      rintro y hy z hz rfl
      exact fresh (List.mem_singleton.mp hz ▸ hy)

end

namespace Json.Object

theorem ofMembers_snoc (members : List (String × Value)) (key : String) (v : Value) :
    ofMembers (members ++ [(key, v)]) = insert key v (ofMembers members) := by
  simp [ofMembers, List.foldl_append]

theorem keys_ofMembers (members : List (String × Value)) :
    keys (ofMembers members) = (keys members).eraseDups := by
  induction members using List.reverseRecOn with
  | nil => rfl
  | append_singleton members m ih =>
    obtain ⟨key, v⟩ := m
    have snoc : keys (members ++ [(key, v)]) = keys members ++ [key] := by simp [keys]
    have known : key ∈ keys (ofMembers members) ↔ key ∈ keys members := by
      rw [ih, List.mem_eraseDups]
    rw [ofMembers_snoc, snoc, eraseDups_snoc, ← ih]
    split
    · next mem => exact keys_insert_of_mem (known.mpr mem) v
    · next fresh =>
      rw [insert_of_not_mem (mt known.mp fresh)]
      simp [keys]

theorem get?_insert (key other : String) (v : Value) (o : Object) :
    get? (insert key v o) other = if other = key then some v else get? o other := by
  induction o with
  | nil => by_cases same : other = key <;> simp [insert, get?, same]
  | cons m o ih =>
    obtain ⟨k, w⟩ := m
    unfold get? at ih ⊢
    by_cases here : k = key
    · subst here
      rw [insert, if_pos rfl, List.lookup_cons, List.lookup_cons]
      by_cases same : other = k <;> simp [same, beq_eq_false_iff_ne.mpr]
    · rw [insert, if_neg here, List.lookup_cons, List.lookup_cons, ih]
      by_cases there : other = k
      · simp [there, here]
      · simp [beq_eq_false_iff_ne.mpr there]

theorem get?_ofMembers {key : String} {after : List (String × Value)} (last : key ∉ keys after)
    (before : List (String × Value)) (v : Value) :
    get? (ofMembers (before ++ (key, v) :: after)) key = some v := by
  induction after using List.reverseRecOn with
  | nil => rw [ofMembers_snoc, get?_insert, if_pos rfl]
  | append_singleton after m ih =>
    obtain ⟨k, w⟩ := m
    simp only [keys, List.map_append, List.map_singleton, List.mem_append, List.mem_singleton,
      not_or] at last
    rw [← List.cons_append, ← List.append_assoc, ofMembers_snoc, get?_insert, if_neg last.2]
    exact ih last.1

end Json.Object

namespace Pipeline

open Json (Value Object)

variable {root : String}

theorem text_injective {a b : FieldKey} (ha : a.Undotted) (hb : b.Undotted)
    (same : a.text = b.text) : a = b := by
  have dot : ".".toList = ['.'] := rfl
  have chars := congrArg String.toList same
  simp only [FieldKey.text, String.toList_append, dot, List.append_assoc,
    List.singleton_append] at chars
  have before := congrArg (List.takeWhile (· != '.')) chars
  rw [takeWhile_append_dot ha.entity, takeWhile_append_dot hb.entity] at before
  rw [before, List.append_cancel_left_eq, List.cons.injEq] at chars
  obtain ⟨entity, field⟩ := a
  cases b
  cases String.toList_injective before
  cases String.toList_injective chars.2
  rfl

theorem fieldPath_injective {a b : FieldKey} (ha : a.Undotted) (hb : b.Undotted)
    (same : fieldPath root a = fieldPath root b) : a = b := by
  have dotted (k k' : FieldKey) (plain : k'.Undotted) : k.text ≠ k'.field := by
    intro same
    have plain := plain.field
    rw [← same] at plain
    simp [FieldKey.text] at plain
  unfold fieldPath at same
  split at same <;> split at same
  · next own own' =>
    cases a
    cases b
    cases own.trans own'.symm
    cases same
    rfl
  · exact absurd same.symm (dotted b a ha)
  · exact absurd same (dotted a b hb)
  · exact text_injective ha hb same

def partitionName (root : String) (k : FieldKey) : String :=
  if k.entity = root then k.field else k.entity ++ "_" ++ k.field

theorem underscored_of_undotted {text : String} (plain : '.' ∉ text.toList) :
    text.toList.map (fun c => if c = '.' then '_' else c) = text.toList := by
  have kept : text.toList.map (fun c => if c = '.' then '_' else c) = text.toList.map id := by
    apply List.map_congr_left
    intro c mem
    have other : c ≠ '.' := fun same => plain (same ▸ mem)
    simp [other]
  rw [kept, List.map_id]

theorem underscored_fieldPath {k : FieldKey} (undotted : k.Undotted) :
    WindowStage.underscored (fieldPath root k) = partitionName root k := by
  have field := underscored_of_undotted undotted.field
  have entity := underscored_of_undotted undotted.entity
  unfold WindowStage.underscored fieldPath partitionName
  split
  · rw [field, String.ofList_toList]
  · apply String.toList_injective
    simp [FieldKey.text, entity, field]

def partitionEntry (root : String) (k : FieldKey) : String × Value :=
  (partitionName root k, .string ("$" ++ fieldPath root k))

def partitionObject (root : String) (keys : List FieldKey) : Object :=
  Object.ofMembers (keys.map (partitionEntry root))

/-- Whether documents, given as what is found at their paths, fall into one partition: they have
the same wherever the document of the keys refers to. -/
def SamePartition {α : Type} (doc : Object) (d d' : String → α) : Prop :=
  ∀ m ∈ doc, ∀ path, m.2 = .string ("$" ++ path) → d path = d' path

def PartitionsRows (root : String) (keys : List FieldKey) (doc : Object) : Prop :=
  ∀ (α : Type) (d d' : String → α),
    SamePartition doc d d' ↔ ∀ k ∈ keys, d (fieldPath root k) = d' (fieldPath root k)

structure KeepsPartition (root : String) (keys : List FieldKey) (doc : Object) : Prop where
  entries : doc.length = keys.length
  paths : doc.map Prod.snd = keys.map fun k => .string ("$" ++ fieldPath root k)
  rows : PartitionsRows root keys doc

theorem samePartition_entries {α : Type} (root : String) (keys : List FieldKey)
    (d d' : String → α) :
    SamePartition (keys.map (partitionEntry root)) d d' ↔
      ∀ k ∈ keys, d (fieldPath root k) = d' (fieldPath root k) := by
  constructor
  · intro same k mem
    exact same _ (List.mem_map_of_mem mem) _ rfl
  · intro same m mem path refers
    obtain ⟨k, hk, rfl⟩ := List.mem_map.mp mem
    have here : fieldPath root k = path := dollar_injective (Value.string.inj refers)
    exact here ▸ same k hk

section

variable {keys : List FieldKey}

theorem partitionObject_of_apart (apart : (keys.map (partitionName root)).Nodup) :
    partitionObject root keys = keys.map (partitionEntry root) := by
  apply Object.ofMembers_of_nodup
  simpa [Object.keys, Function.comp_def, partitionEntry] using apart

theorem keepsPartition_of_apart (apart : (keys.map (partitionName root)).Nodup) :
    KeepsPartition root keys (partitionObject root keys) := by
  rw [partitionObject_of_apart apart]
  exact ⟨List.length_map .., by simp [Function.comp_def, partitionEntry],
    fun _ => samePartition_entries root keys⟩

theorem length_partitionObject (root : String) (keys : List FieldKey) :
    (partitionObject root keys).length = (keys.map (partitionName root)).eraseDups.length := by
  have names := congrArg List.length (Object.keys_ofMembers (keys.map (partitionEntry root)))
  simpa [Object.keys, Function.comp_def, partitionEntry, partitionObject] using names

theorem apart_of_length (full : keys.length ≤ (partitionObject root keys).length) :
    (keys.map (partitionName root)).Nodup := by
  apply nodup_of_length_eraseDups
  rwa [← length_partitionObject, List.length_map]

theorem mem_of_partitionsRows {doc : Object} (rows : PartitionsRows root keys doc) {k : FieldKey}
    (mem : k ∈ keys) : .string ("$" ++ fieldPath root k) ∈ doc.map Prod.snd := by
  by_contra absent
  have same : SamePartition doc (fun _ => false) (fun path => path == fieldPath root k) := by
    intro m hm path refers
    symm
    rw [beq_eq_false_iff_ne]
    rintro rfl
    exact absent (refers ▸ List.mem_map_of_mem hm)
  have read := (rows Bool _ _).mp same k mem
  simp at read

theorem length_le_of_partitionsRows {doc : Object} (distinct : keys.Nodup)
    (undotted : ∀ k ∈ keys, k.Undotted) (rows : PartitionsRows root keys doc) :
    keys.length ≤ doc.length := by
  have paths : (keys.map fun k => Value.string ("$" ++ fieldPath root k)).Nodup := by
    refine distinct.map_on fun a ha b hb same => ?_
    have same := dollar_injective (Value.string.inj same)
    exact fieldPath_injective (undotted a ha) (undotted b hb) same
  have within : (keys.map fun k => Value.string ("$" ++ fieldPath root k)) ⊆
      doc.map Prod.snd := by
    intro v mem
    obtain ⟨k, hk, rfl⟩ := List.mem_map.mp mem
    exact mem_of_partitionsRows rows hk
  simpa using (List.subperm_of_subset paths within).length_le

end

-- One entry for each key, in order. Of repeated keys the last direction counts.
structure KeepsOrder (root : String) (order : List OrderKey) (doc : Object) : Prop where
  keys : doc.map Prod.fst = (order.map (·.key)).eraseDups.map (fieldPath root)
  directions : ∀ before k after, order = before ++ k :: after → k.key ∉ after.map (·.key) →
    doc.get? (fieldPath root k.key) =
      some (match k.direction with | .asc => .ofInt64 1 | .desc => .ofInt64 (-1))

def orderEntry (root : String) (k : OrderKey) : String × SortDirection :=
  (fieldPath root k.key, k.direction)

theorem keepsOrder_sortObject (root : String) {order : List OrderKey}
    (undotted : ∀ k ∈ order, k.key.Undotted) :
    KeepsOrder root order (sortObject (order.map (orderEntry root))) := by
  have apart : ∀ a ∈ order.map (·.key), ∀ b ∈ order.map (·.key),
      fieldPath root a = fieldPath root b → a = b := by
    intro a ha b hb
    obtain ⟨k, hk, rfl⟩ := List.mem_map.mp ha
    obtain ⟨k', hk', rfl⟩ := List.mem_map.mp hb
    exact fieldPath_injective (undotted k hk) (undotted k' hk')
  constructor
  · rw [← eraseDups_map apart]
    refine (Object.keys_ofMembers _).trans ?_
    simp [Object.keys, Function.comp_def, orderEntry]
  · rintro before k after rfl last
    rw [sortObject, List.map_map, List.map_append, List.map_cons]
    refine Object.get?_ofMembers ?_ _ _
    intro known
    obtain ⟨k', hk', same⟩ : ∃ k' ∈ after, fieldPath root k'.key = fieldPath root k.key := by
      simpa [Object.keys, orderEntry] using known
    have key := apart _ (List.mem_map_of_mem (by simp [hk'])) _ (List.mem_map_of_mem (by simp)) same
    exact last (key ▸ List.mem_map_of_mem hk')

theorem partitionMembers_of_several {paths : List String} (several : 2 ≤ paths.length) :
    WindowStage.partitionMembers paths =
      [("partitionBy", .object (Object.ofMembers (paths.map fun p =>
        (WindowStage.underscored p, .string (reference p)))))] := by
  match paths with
  | [] | [_] => simp at several
  | _ :: _ :: _ => rfl

theorem partitionObject_eq {keys : List FieldKey} (undotted : ∀ k ∈ keys, k.Undotted) :
    Object.ofMembers ((keys.map (fieldPath root)).map fun p =>
      (WindowStage.underscored p, .string (reference p))) = partitionObject root keys := by
  rw [partitionObject, List.map_map]
  congr 1
  apply List.map_congr_left
  intro k mem
  rw [partitionEntry, ← underscored_fieldPath (undotted k mem)]
  rfl

theorem windowStage_keepsKeys_iff (root : String) {o : Output} {w : Window}
    (role : o.role = .window w) (several : 2 ≤ w.partitionBy.length)
    (distinct : w.partitionBy.Nodup) (undotted : ∀ k ∈ w.partitionBy, k.Undotted) :
    ∃ body doc sort : Object,
      (windowStage? root o).map Stage.render = some (.single "$setWindowFields" (.object body)) ∧
      body.get? "partitionBy" = some (.object doc) ∧
      (KeepsPartition root w.partitionBy doc ↔ (w.partitionBy.map (partitionName root)).Nodup) ∧
      (PartitionsRows root w.partitionBy doc ↔ (w.partitionBy.map (partitionName root)).Nodup) ∧
      body.get? "sortBy" = (if w.orderBy = [] then none else some (.object sort)) ∧
      ((∀ k ∈ w.orderBy, k.key.Undotted) → KeepsOrder root w.orderBy sort) := by
  have partition : WindowStage.partitionMembers (w.partitionBy.map (fieldPath root)) = _ :=
    partitionMembers_of_several (by simpa using several)
  rw [partitionObject_eq undotted] at partition
  refine ⟨_, partitionObject root w.partitionBy, sortObject (w.orderBy.map (orderEntry root)),
    by rw [windowStage?, role]; rfl, ?_, ⟨fun kept => ?_, keepsPartition_of_apart⟩,
    ⟨fun rows => ?_, fun apart => (keepsPartition_of_apart apart).rows⟩, ?_,
    keepsOrder_sortObject root⟩
  · rw [partition]
    rfl
  · exact apart_of_length (Nat.le_of_eq kept.entries.symm)
  · exact apart_of_length (length_le_of_partitionsRows distinct undotted rows)
  · rw [partition]
    cases w.orderBy <;> rfl

-- A key of the collection and one of another, and a key that is sorted by twice.
def teamShare : Window :=
  { function := .sum
    partitionBy := [⟨"employees", "name"⟩, ⟨"departments", "name"⟩]
    orderBy := [⟨⟨"employees", "salary"⟩, .desc⟩, ⟨⟨"departments", "id"⟩, .asc⟩,
      ⟨⟨"employees", "salary"⟩, .asc⟩]
    offset := none }

theorem teamShare_keepsKeys :
    2 ≤ teamShare.partitionBy.length ∧ teamShare.partitionBy.Nodup ∧
      (∀ k ∈ Query.windowKeys teamShare, k.Undotted) ∧
      ∃ body doc sort : Object,
        (windowStage? "employees" ⟨.ofKey ⟨"employees", "bonus"⟩, .window teamShare, "sum_bonus",
            "sum_bonus"⟩).map Stage.render = some (.single "$setWindowFields" (.object body)) ∧
        body.get? "partitionBy" = some (.object doc) ∧
        KeepsPartition "employees" teamShare.partitionBy doc ∧
        body.get? "sortBy" = some (.object sort) ∧
        KeepsOrder "employees" teamShare.orderBy sort := by
  have several : 2 ≤ teamShare.partitionBy.length := by decide
  have distinct : teamShare.partitionBy.Nodup := by decide
  have undotted : ∀ k ∈ Query.windowKeys teamShare, k.Undotted := by decide +kernel
  have inPartition : ∀ k ∈ teamShare.partitionBy, k.Undotted :=
    fun k mem => undotted k (List.mem_append_left _ mem)
  have inOrder : ∀ k ∈ teamShare.orderBy, k.key.Undotted :=
    fun k mem => undotted k.key (List.mem_append_right _ (List.mem_map_of_mem mem))
  obtain ⟨body, doc, sort, written, partition, kept, -, order, sorted⟩ :=
    windowStage_keepsKeys_iff "employees"
      (o := ⟨.ofKey ⟨"employees", "bonus"⟩, .window teamShare, "sum_bonus", "sum_bonus"⟩) rfl
      several distinct inPartition
  exact ⟨several, distinct, undotted, body, doc, sort, written, partition,
    kept.mpr (by decide +kernel), order, sorted inOrder⟩

-- The employees have a field that is called as the name of the departments is in the document.
def crossNamed : Window :=
  { function := .rank
    partitionBy := [⟨"employees", "departments_name"⟩, ⟨"departments", "name"⟩]
    orderBy := [⟨⟨"employees", "salary"⟩, .desc⟩]
    offset := none }

def payGrades : Query :=
  { columns := [{ Column.ofKey ⟨"employees", "salary"⟩ with aggregation := .window crossNamed }]
    options := .default }

theorem crossNamed_losesKey :
    2 ≤ crossNamed.partitionBy.length ∧ crossNamed.partitionBy.Nodup ∧
      (∀ k ∈ crossNamed.partitionBy, k.Undotted) ∧
      ∃ p, pipeline? ledger payGrades = some p ∧
        (stagesAt .window p.stages).map Stage.render =
          [.single "$setWindowFields" (.object
            [("partitionBy", .object [("departments_name", .string "$departments.name")]),
              ("sortBy", .object [("salary", .ofInt64 (-1))]),
              ("output", .single "rank_salary" (.object [("$rank", .object [])]))])] ∧
        ¬KeepsPartition p.collection crossNamed.partitionBy
          [("departments_name", .string "$departments.name")] ∧
        ¬PartitionsRows p.collection crossNamed.partitionBy
          [("departments_name", .string "$departments.name")] := by
  obtain ⟨p, h⟩ := exists_pipeline (s := ledger) (q := payGrades) (by decide) (by decide)
  have root : p.collection = "employees" := (Option.some.inj (head_referencedEntities h)).symm
  have merged : ¬PartitionsRows "employees" crossNamed.partitionBy
      [("departments_name", .string "$departments.name")] := by
    intro rows
    have unread := mem_of_partitionsRows rows (k := ⟨"employees", "departments_name"⟩)
      (by decide)
    have same : "$" ++ fieldPath "employees" ⟨"employees", "departments_name"⟩ =
        "$departments.name" := by simpa using unread
    exact absurd same (by decide +kernel)
  refine ⟨by decide, by decide, by decide +kernel, p, h, ?_, ?_, ?_⟩
  · rw [stagesAt_stages h, root]
    rfl
  · rw [root]
    exact fun kept => merged kept.rows
  · rwa [root]

end Pipeline

end QueryBuilder
