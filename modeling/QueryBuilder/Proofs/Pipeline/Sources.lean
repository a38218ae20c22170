import Mathlib.Data.List.Induction
import QueryBuilder.Proofs.Pipeline.Readers

set_option autoImplicit false

namespace QueryBuilder

structure FieldKey.Undotted (k : FieldKey) : Prop where
  entity : '.' ∉ k.entity.toList
  field : '.' ∉ k.field.toList

instance (k : FieldKey) : Decidable k.Undotted :=
  decidable_of_iff ('.' ∉ k.entity.toList ∧ '.' ∉ k.field.toList)
    ⟨fun h => ⟨h.1, h.2⟩, fun h => ⟨h.entity, h.field⟩⟩

structure Query.Undotted (q : Query) : Prop where
  keys : ∀ k ∈ q.keys, k.Undotted
  aliases : ∀ c ∈ q.columns, ∀ name ∈ c.alias?, '.' ∉ name.toList

namespace Pipeline

-- Whether what is put under a name is found at a path, as it is or inside a document.
def Under (name path : String) : Prop := path = name ∨ (name ++ ".").toList <+: path.toList

instance (name path : String) : Decidable (Under name path) :=
  inferInstanceAs (Decidable (_ ∨ _))

-- The field of a document of the collection in which the field of a key is found.
def topField (root : String) (k : FieldKey) : String :=
  if k.entity = root then k.field else k.entity

-- If `a` is a window, its result does not touch the fields that `b` looks for.
def Reader.Spares (touches : String → String → Prop) (root : String) (a b : Reader) : Prop :=
  ∀ w, a.stage = .window w → ∀ k, .source k ∈ b.readings → ¬touches w.name (fieldPath root k)

def SourcesKept (root : String) (rs : List Reader) : Prop :=
  rs.Pairwise (Reader.Spares (fun name path => path = name) root)

-- A document as what is found at its paths. What a window computes may be anything.
def Stage.write {α : Type} (result : WindowStage → String → α) (document : String → α) :
    Stage → String → α
  | .window w => fun path => if Under w.name path then result w path else document path
  | _ => document

def written {α : Type} (result : WindowStage → String → α) (document : String → α)
    (stages : List Stage) : String → α :=
  stages.foldl (Stage.write result) document

-- Where a stage looks for a field, the document has what it had there at first.
def SourcesHeld (root : String) (rs : List Reader) : Prop :=
  ∀ (α : Type) (result : WindowStage → String → α) (document : String → α) before r after,
    rs = before ++ r :: after → ∀ k, .source k ∈ r.readings →
      written result document (before.map (·.stage)) (fieldPath root k) =
        document (fieldPath root k)

section

variable {α : Type} {stages : List Stage} {w : WindowStage} {path : String}

theorem write_of_apart (result : WindowStage → String → α) (document : String → α)
    (stage : Stage) (apart : ∀ w, stage = .window w → ¬Under w.name path) :
    stage.write result document path = document path := by
  cases stage with
  | window w => exact if_neg (apart w rfl)
  | _ => rfl

theorem written_of_apart (result : WindowStage → String → α) (document : String → α)
    (apart : ∀ w, .window w ∈ stages → ¬Under w.name path) :
    written result document stages path = document path := by
  induction stages generalizing document with
  | nil => rfl
  | cons stage stages ih =>
    have rest := ih (stage.write result document) fun w mem =>
      apart w (List.mem_cons_of_mem _ mem)
    have first := write_of_apart result document stage fun w same =>
      apart w (same ▸ List.mem_cons_self)
    exact rest.trans first

theorem written_of_under (x : α) (document : String → α)
    (put : .window w ∈ stages ∧ Under w.name path ∨ document path = x) :
    written (fun _ _ => x) document stages path = x := by
  induction stages generalizing document with
  | nil => simpa [written] using put
  | cons stage stages ih =>
    apply ih
    rcases put with ⟨mem, under⟩ | held
    · rcases List.mem_cons.mp mem with rfl | mem
      · exact .inr (if_pos under)
      · exact .inl ⟨mem, under⟩
    · refine .inr ?_
      cases stage with
      | window w' => simp [Stage.write, held]
      | _ => exact held

theorem sourcesHeld_iff {root : String} {rs : List Reader} :
    SourcesHeld root rs ↔ rs.Pairwise (Reader.Spares Under root) := by
  constructor
  · intro held
    induction rs using List.reverseRecOn with
    | nil => exact .nil
    | append_singleton rs r ih =>
      refine List.pairwise_append.mpr ⟨ih ?_, List.pairwise_singleton _ _, ?_⟩
      · intro α result document before a after split
        exact held α result document before a (after ++ [r]) (by simp [split])
      · intro a mem b last w window k reads under
        rw [List.mem_singleton.mp last] at reads
        -- A window that puts the same everywhere shows wherever it is found.
        have put : written (fun _ _ => true) (fun _ => false) (rs.map (·.stage))
            (fieldPath root k) = true :=
          written_of_under (w := w) true _ (.inl ⟨window ▸ List.mem_map_of_mem mem, under⟩)
        have first := held Bool (fun _ _ => true) (fun _ => false) rs r [] rfl k reads
        rw [put] at first
        cases first
  · intro spares α result document before r after split k reads
    rw [split, List.pairwise_append] at spares
    apply written_of_apart
    intro w mem
    obtain ⟨a, here, window⟩ := List.mem_map.mp mem
    exact spares.2.2 a here r List.mem_cons_self w window k reads

theorem SourcesHeld.kept {root : String} {rs : List Reader} (held : SourcesHeld root rs) :
    SourcesKept root rs :=
  (sourcesHeld_iff.mp held).imp fun spares w window k reads same =>
    spares w window k reads (.inl same)

end

theorem undotted_free {names : Names} {wanted : String} (plain : '.' ∉ wanted.toList) :
    '.' ∉ (names.free wanted).toList := by
  rcases (names.free_eq wanted).2 with same | ⟨n, same⟩
  · rwa [same]
  · rw [same]
    have digits : '.' ∉ Nat.toDigits 10 n := by
      intro mem
      have digit := Nat.isDigit_of_mem_toDigits (by decide) (by decide) mem
      revert digit
      decide
    simpa [Names.numbered, Digits.text, Digits.ofNat, plain] using digits

theorem trim_subset (text : String) : (Text.trim text).toList ⊆ text.toList := by
  intro c mem
  rw [Text.trim, String.toList_ofList, Text.trimRight, List.mem_reverse] at mem
  have left := List.mem_reverse.mp ((List.dropWhile_sublist _).subset mem)
  exact (List.dropWhile_sublist _).subset left

theorem undotted_stem (f : WindowFunction) : '.' ∉ f.stem.toList := by
  cases f <;> decide +kernel

theorem undotted_accumulatorStem (a : Accumulator) : '.' ∉ a.stem.toList := by
  cases a <;> decide +kernel

theorem undotted_claimKey (names : Names) {key : FieldKey} (plain : key.Undotted) :
    '.' ∉ (names.claimKey key).1.toList := by
  unfold Names.claimKey
  split
  · exact undotted_free plain.field
  · exact undotted_free (by simp [plain.entity, plain.field])

section

variable {root : String} {grouped : Bool} {q : Query} {o : Output}

theorem undotted_claimName (names : Names) {c : Column} {role : Role} (named : role ≠ .field)
    (plain : c.key.Undotted) (shown : ∀ name ∈ c.alias?, '.' ∉ name.toList) :
    '.' ∉ (Output.claimName root names c role).1.toList := by
  unfold Output.claimName
  split
  · exact absurd rfl named
  · exact undotted_claimKey names plain
  · next own =>
    obtain ⟨raw, given, rfl⟩ := Option.map_eq_some_iff.mp own
    exact undotted_free fun dot => shown raw given (trim_subset raw dot)
  · exact undotted_free (by decide)
  · exact undotted_free (by simp [Output.stemName, undotted_accumulatorStem, plain.field])
  · exact undotted_free (by simp [Output.stemName, undotted_stem, plain.field])
  · exact undotted_claimKey names plain

theorem undotted_of_named (undotted : q.Undotted) (h : o ∈ outputs root grouped q)
    (named : o.role ≠ .field) : '.' ∉ o.name.toList := by
  have mem := (List.mem_filter.mp (column_mem_selected h)).1
  have plain := undotted.keys o.column.key (Sql.key_mem_keys mem)
  obtain ⟨before, made⟩ := Output.exists_of_list h
  rw [role_outputs h] at named
  have name := congrArg Output.name made
  rw [Output.of_eq] at name
  rw [name]
  exact undotted_claimName before named plain (undotted.aliases o.column mem)

theorem undotted_name (undotted : q.Undotted) (h : o ∈ outputs root grouped q)
    (window : o.column.window?.isSome = true) : '.' ∉ o.name.toList := by
  refine undotted_of_named undotted h fun field => ?_
  rcases role_cases h with ⟨a, role, -⟩ | ⟨w, role, -⟩ | ⟨text, role, -⟩ | ⟨-, agg, -⟩
  · simp [field] at role
  · simp [field] at role
  · simp [field] at role
  · simp [Column.window?, agg] at window

theorem fieldPath_ne_iff {k : FieldKey} {name : String} (plain : '.' ∉ name.toList) :
    fieldPath root k ≠ name ↔ (k.entity = root → k.field ≠ name) := by
  unfold fieldPath
  split
  · next own => simp [own]
  · next other =>
    have dotted : k.text ≠ name := by
      rintro rfl
      simp [FieldKey.text] at plain
    simp [other, dotted]

theorem under_field {name field : String} (plain : '.' ∉ field.toList) :
    Under name field ↔ field = name := by
  constructor
  · rintro (same | ⟨rest, split⟩)
    · exact same
    · rw [← split] at plain
      simp at plain
  · exact .inl

theorem takeWhile_append_dot {xs : List Char} (plain : '.' ∉ xs) (ys : List Char) :
    (xs ++ '.' :: ys).takeWhile (· != '.') = xs := by
  rw [List.takeWhile_append_of_pos]
  · simp
  · intro c mem
    simpa using fun same : c = '.' => plain (same ▸ mem)

theorem under_text {k : FieldKey} {name : String} (named : '.' ∉ name.toList)
    (plain : '.' ∉ k.entity.toList) : Under name k.text ↔ k.entity = name := by
  have dot : ".".toList = ['.'] := rfl
  constructor
  · rintro (rfl | ⟨rest, split⟩)
    · simp [FieldKey.text] at named
    · have before := congrArg (List.takeWhile (· != '.')) split
      simp only [FieldKey.text, String.toList_append, dot, List.append_assoc, List.singleton_append,
        takeWhile_append_dot named, takeWhile_append_dot plain] at before
      exact (String.toList_injective before).symm
  · rintro rfl
    exact .inr ⟨k.field.toList, by simp [FieldKey.text]⟩

theorem under_fieldPath {k : FieldKey} {name : String} (named : '.' ∉ name.toList)
    (plain : k.Undotted) : Under name (fieldPath root k) ↔ topField root k = name := by
  unfold fieldPath topField
  split
  · exact under_field plain.field
  · exact under_text named plain.entity

end

-- The name of each window is apart from the fields that are looked for behind it.
structure WindowsStayClear (root : String) (q : Query) (apart : FieldKey → String → Prop) :
    Prop where
  later : (outputs root (isGrouped q) q).Pairwise fun o o' => o.column.window?.isSome →
    ∀ k ∈ o'.column.windowReads, apart k o.name
  atEnd : ∀ o ∈ outputs root (isGrouped q) q, o.column.window?.isSome →
    ∀ k ∈ q.readAtEnd, apart k o.name

section

variable {root : String} {grouped : Bool} {q : Query} {o : Output} {a b : Reader}

theorem windowReader_eq_some (h : o ∈ outputs root grouped q)
    (made : windowReader? root o = some a) :
    ∃ w : WindowStage, o.column.window?.isSome = true ∧ a.stage = .window w ∧ w.name = o.name ∧
      a.readings = o.column.windowReads.map .source := by
  obtain ⟨stage, window, rfl⟩ := Option.map_eq_some_iff.mp made
  rw [windowStage_eq h] at window
  obtain ⟨w, agg, rfl⟩ := Option.map_eq_some_iff.mp window
  exact ⟨_, by rw [agg, Option.isSome_some], rfl, rfl, rfl⟩

theorem exists_windowReader (h : o ∈ outputs root grouped q)
    (window : o.column.window?.isSome = true) : ∃ a, windowReader? root o = some a := by
  obtain ⟨w, agg⟩ := Option.isSome_iff_exists.mp window
  exact ⟨_, by rw [windowReader?, windowStage_eq h, agg]; rfl⟩

theorem spares_iff (touches : String → String → Prop) (h : o ∈ outputs root grouped q)
    (made : windowReader? root o = some a) :
    a.Spares touches root b ↔
      ∀ k, .source k ∈ b.readings → ¬touches o.name (fieldPath root k) := by
  obtain ⟨w, -, stage, name, -⟩ := windowReader_eq_some h made
  constructor
  · intro spares k reads
    exact name ▸ spares w stage k reads
  · intro free w' stage' k reads
    obtain rfl := Stage.window.inj (stage.symm.trans stage')
    exact name ▸ free k reads

theorem late_spares (touches : String → String → Prop) {p : Pipeline}
    (h : a ∈ lateReaders q p) : a.Spares touches root b := by
  intro w window
  simp only [lateReaders, List.mem_append, List.mem_map, mem_stagesAt] at h
  rcases h with (⟨stage, ⟨-, place⟩, rfl⟩ | ⟨stage, ⟨-, place⟩, rfl⟩) | ⟨stage, ⟨-, place⟩, rfl⟩ <;>
  · obtain rfl : stage = .window w := window
    cases place

theorem windowReads_isSome {c : Column} {k : FieldKey} (reads : k ∈ c.windowReads) :
    c.window?.isSome = true := by
  unfold Column.windowReads at reads
  split at reads
  · next w agg => rw [agg, Option.isSome_some]
  · cases reads

end

section

variable {s : Schema} {q : Query} {p : Pipeline}

theorem pairwise_spares_iff (h : pipeline? s q = some p)
    (distinct : (q.columns.map (·.key)).Nodup) {touches : String → String → Prop}
    {apart : FieldKey → String → Prop}
    (same : ∀ o ∈ outputs p.collection (isGrouped q) q, o.column.window?.isSome = true →
      ∀ k ∈ q.keys, ¬touches o.name (fieldPath p.collection k) ↔ apart k o.name) :
    (readers q p).Pairwise (Reader.Spares touches p.collection) ↔
      WindowsStayClear p.collection q apart := by
  have late : (lateReaders q p).Pairwise (Reader.Spares touches p.collection) :=
    List.pairwise_of_forall_mem_list fun a mem b _ => late_spares touches mem
  rw [readers, List.pairwise_append, List.pairwise_filterMap]
  constructor
  · rintro ⟨windows, -, behind⟩
    constructor
    · apply windows.imp_of_mem
      intro o o' here here' spares window k reads
      obtain ⟨a, made⟩ := exists_windowReader here window
      obtain ⟨b, made'⟩ := exists_windowReader here' (windowReads_isSome reads)
      obtain ⟨-, -, -, -, readings⟩ := windowReader_eq_some here' made'
      apply (same o here window k (q.windowReads_subset (column_mem_selected here') reads)).mp
      apply (spares_iff touches here made).mp (spares a made b made') k
      rw [readings]
      exact List.mem_map_of_mem reads
    · intro o here window k reads
      obtain ⟨a, made⟩ := exists_windowReader here window
      obtain ⟨b, mem, source⟩ := (mem_readAtEnd h distinct).mpr reads
      have spares := behind a (List.mem_filterMap.mpr ⟨o, here, made⟩) b mem
      apply (same o here window k (q.readAtEnd_subset reads)).mp
      exact (spares_iff touches here made).mp spares k source
  · intro clear
    refine ⟨?_, late, ?_⟩
    · apply clear.later.imp_of_mem
      intro o o' here here' apart a made b made'
      obtain ⟨-, window, -⟩ := windowReader_eq_some here made
      obtain ⟨-, -, -, -, readings⟩ := windowReader_eq_some here' made'
      apply (spares_iff touches here made).mpr
      intro k source
      have reads : k ∈ o'.column.windowReads := by simpa [readings] using source
      apply (same o here window k (q.windowReads_subset (column_mem_selected here') reads)).mpr
      exact apart window k reads
    · intro a mem b behind
      obtain ⟨o, here, made⟩ := List.mem_filterMap.mp mem
      obtain ⟨-, window, -⟩ := windowReader_eq_some here made
      apply (spares_iff touches here made).mpr
      intro k source
      have reads := (mem_readAtEnd h distinct).mp ⟨b, behind, source⟩
      apply (same o here window k (q.readAtEnd_subset reads)).mpr
      exact clear.atEnd o here window k reads

theorem sourcesKept_iff (h : pipeline? s q = some p) (distinct : (q.columns.map (·.key)).Nodup)
    (undotted : q.Undotted) :
    SourcesKept p.collection (readers q p) ↔
      WindowsStayClear p.collection q fun k name => k.entity = p.collection → k.field ≠ name := by
  apply pairwise_spares_iff h distinct
  intro o here window k _
  exact fieldPath_ne_iff (undotted_name undotted here window)

theorem pipeline_keepsSources_iff (h : pipeline? s q = some p)
    (distinct : (q.columns.map (·.key)).Nodup) (undotted : q.Undotted) :
    Accounts q p (readers q p) ∧
      (SourcesKept p.collection (readers q p) ↔ WindowsStayClear p.collection q fun k name =>
        k.entity = p.collection → k.field ≠ name) ∧
      (SourcesHeld p.collection (readers q p) ↔ WindowsStayClear p.collection q fun k name =>
        topField p.collection k ≠ name) := by
  refine ⟨readers_account h distinct, sourcesKept_iff h distinct undotted, ?_⟩
  rw [sourcesHeld_iff]
  apply pairwise_spares_iff h distinct
  intro o here window k mem
  exact (under_fieldPath (undotted_name undotted here window) (undotted.keys k mem)).not

end

-- The window is called as a field of the departments is, which are documents of their own.
def payRanks : Query :=
  { columns :=
      [{ Column.ofKey ⟨"employees", "salary"⟩ with
          aggregation := .window
            ⟨.rank, [⟨"departments", "name"⟩], [⟨⟨"employees", "salary"⟩, .desc⟩], none⟩
          rawAlias := some "name" },
        { Column.ofKey ⟨"departments", "name"⟩ with sort := some ⟨.asc, 1⟩ },
        { Column.ofKey ⟨"employees", "bonus"⟩ with
          aggregation := .window ⟨.sum, [⟨"departments", "name"⟩], [], none⟩ }]
    options := .default }

theorem payRanks_keepsSources :
    ∃ p, pipeline? ledger payRanks = some p ∧ p.collection = "employees" ∧
      SourcesKept "employees" (readers payRanks p) ∧
      SourcesHeld "employees" (readers payRanks p) := by
  obtain ⟨p, h⟩ := exists_pipeline (s := ledger) (q := payRanks) (by decide) (by decide)
  have root : p.collection = "employees" := (Option.some.inj (head_referencedEntities h)).symm
  have undotted : payRanks.Undotted := ⟨by decide +kernel, by decide +kernel⟩
  obtain ⟨-, kept, held⟩ := pipeline_keepsSources_iff h (by decide) undotted
  rw [root] at kept held
  refine ⟨p, h, root, kept.mpr ⟨?_, ?_⟩, held.mpr ⟨?_, ?_⟩⟩
  all_goals decide +kernel

-- The window is called `name` before the field of that name is shown.
def podium : Query :=
  { columns :=
      [{ Column.ofKey ⟨"employees", "salary"⟩ with
          aggregation := .window ⟨.rank, [], [⟨⟨"employees", "salary"⟩, .asc⟩], none⟩
          rawAlias := some "name" },
        .ofKey ⟨"employees", "name"⟩]
    options := .default }

theorem podium_overwrites :
    (podium.columns.map (·.key)).Nodup ∧ podium.Undotted ∧
      ∃ p, pipeline? ledger podium = some p ∧
        stagesAt .window p.stages =
          [.window ⟨⟨.rank, [], [⟨⟨"employees", "salary"⟩, .asc⟩], none⟩, [], [("salary", .asc)],
            .path "salary", "name"⟩] ∧
        stagesAt .project p.stages = [.project [("name", .kept), ("name_2", .path "name")]] ∧
        ¬SourcesKept p.collection (readers podium p) ∧
        ¬SourcesHeld p.collection (readers podium p) := by
  obtain ⟨p, h⟩ := exists_pipeline (s := ledger) (q := podium) (by decide) (by decide)
  have root : p.collection = "employees" := (Option.some.inj (head_referencedEntities h)).symm
  have distinct : (podium.columns.map (·.key)).Nodup := by decide
  have undotted : podium.Undotted := ⟨by decide +kernel, by decide +kernel⟩
  have overwritten : ¬SourcesKept p.collection (readers podium p) := by
    rw [sourcesKept_iff h distinct undotted, root]
    intro clear
    have named : ∃ o ∈ outputs "employees" (isGrouped podium) podium,
        o.column.window?.isSome = true ∧ o.name = "name" := by decide +kernel
    obtain ⟨o, here, window, named⟩ := named
    exact clear.atEnd o here window ⟨"employees", "name"⟩ (by decide +kernel) rfl named.symm
  refine ⟨distinct, undotted, p, h, ?_, ?_, overwritten,
    fun held => overwritten held.kept⟩
  · rw [stagesAt_stages h, root]
    rfl
  · rw [stagesAt_stages h, root]
    rfl

end Pipeline

end QueryBuilder
