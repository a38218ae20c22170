import QueryBuilder.Proofs.Pipeline.Stages
import QueryBuilder.Proofs.Query.Ordering

set_option autoImplicit false

namespace QueryBuilder

def Query.withoutCustomStages (q : Query) : Query :=
  { q with options := { q.options with customStages := [] } }

namespace StagePosition

def rank (position : StagePosition) : Nat := position.ctorIdx

def all : List StagePosition :=
  [.start, .afterLookup, .afterMatch, .afterGroup, .beforeSort, .beforeProject, .atEnd]

-- The places of the generated stages that stand in front of a position. All others stand behind it.
def passed : StagePosition → List Pipeline.Place
  | .start => []
  | .afterLookup => [.lookup]
  | .afterMatch => [.lookup, .filter]
  | .afterGroup => [.lookup, .filter, .window, .group, .sizes]
  | .beforeSort => [.lookup, .filter, .window, .group, .sizes, .having]
  | .beforeProject => [.lookup, .filter, .window, .group, .sizes, .having, .sort, .skip, .limit]
  | .atEnd =>
    [.lookup, .filter, .window, .group, .sizes, .having, .sort, .skip, .limit, .project]

theorem rank_injective {a b : StagePosition} (same : a.rank = b.rank) : a = b := by
  cases a <;> cases b <;> first | rfl | cases same

section

variable {stages : List CustomStage} {position : StagePosition} {stage : CustomStage}

theorem position_of_mem (mem : stage ∈ stages.filter (·.position = position)) :
    stage.position = position := by
  simpa using (List.mem_filter.mp mem).2

theorem filter_flatMap_all (stages : List CustomStage) (n : Nat) :
    (all.flatMap fun position => stages.filter (·.position = position)).filter
        (·.position.rank = n) = stages.filter (·.position.rank = n) := by
  have level (position : StagePosition) :
      (stages.filter (·.position = position)).filter (·.position.rank = n) =
        if position.rank = n then stages.filter (·.position = position) else [] := by
    split
    · next same =>
      exact List.filter_eq_self.mpr fun stage mem => by simpa [position_of_mem mem] using same
    · next other =>
      exact List.filter_eq_nil_iff.mpr fun stage mem => by simpa [position_of_mem mem] using other
  rw [List.filter_flatMap]
  simp only [level]
  by_cases known : ∃ position : StagePosition, position.rank = n
  · obtain ⟨position, rfl⟩ := known
    have here : stages.filter (·.position.rank = position.rank) =
        stages.filter (·.position = position) := by
      apply List.filter_congr
      intro stage _
      simpa using ⟨rank_injective, congrArg rank⟩
    rw [here]
    cases position <;> simp [all, rank, StagePosition.ctorIdx]
  · have nowhere (position : StagePosition) : position.rank ≠ n := fun same => known ⟨_, same⟩
    simp [nowhere]

theorem flatMap_all (stages : List CustomStage) :
    (all.flatMap fun position => stages.filter (·.position = position)) =
      sortBy (·.position.rank) stages := by
  apply eq_of_pairwise_of_filter _ _ (sortBy_pairwise _ _)
  · intro n
    rw [filter_flatMap_all, filter_sortBy]
  · have ascending : all.Pairwise (·.rank ≤ ·.rank) := by decide
    rw [List.pairwise_flatMap]
    constructor
    · intro position _
      apply List.pairwise_of_forall_mem_list
      intro a ha b hb
      have same : a.position.rank = b.position.rank := by
        rw [position_of_mem ha, position_of_mem hb]
      exact Nat.le_of_eq same
    · apply ascending.imp
      intro position position' le a ha b hb
      rwa [position_of_mem ha, position_of_mem hb]

end

end StagePosition

namespace Pipeline

open Json (Value Object)

def skeleton : List (StagePosition × List Place) :=
  [(.start, [.lookup]), (.afterLookup, [.filter]), (.afterMatch, [.window, .group, .sizes]),
    (.afterGroup, [.having]), (.beforeSort, [.sort, .skip, .limit]),
    (.beforeProject, [.project]), (.atEnd, [.union])]

theorem exists_skeleton_split (position : StagePosition) :
    ∃ front places back, skeleton = front ++ (position, places) :: back ∧
      front.flatMap Prod.snd = position.passed ∧
      ∀ place ∈ places ++ back.flatMap Prod.snd, place ∉ position.passed := by
  cases position with
  | start => exact ⟨_, _, _, (List.nil_append _).symm, rfl, by decide⟩
  | afterLookup => exact ⟨skeleton.take 1, _, _, rfl, rfl, by decide⟩
  | afterMatch => exact ⟨skeleton.take 2, _, _, rfl, rfl, by decide⟩
  | afterGroup => exact ⟨skeleton.take 3, _, _, rfl, rfl, by decide⟩
  | beforeSort => exact ⟨skeleton.take 4, _, _, rfl, rfl, by decide⟩
  | beforeProject => exact ⟨skeleton.take 5, _, _, rfl, rfl, by decide⟩
  | atEnd => exact ⟨skeleton.take 6, _, _, rfl, rfl, by decide⟩

def stretch (q : Query) (own : Place → List Stage) (x : StagePosition × List Place) : List Stage :=
  customStages q.options x.1 ++ x.2.flatMap own

inductive Dollared (path : String) : String → Prop
  | given (rest : String) (initial : path = "$" ++ rest) : Dollared path path
  | added (plain : ∀ rest, path ≠ "$" ++ rest) : Dollared path ("$" ++ path)

-- The documents that custom stages are written as.
inductive WrittenAs : StageBody → Value → Prop
  | unwind {path reference : String} (refers : Dollared path reference) :
      WrittenAs (.unwind path false) (.single "$unwind" (.string reference))
  | unwindAll {path reference : String} (refers : Dollared path reference) :
      WrittenAs (.unwind path true) (.single "$unwind" (.object
        [("path", .string reference), ("preserveNullAndEmptyArrays", .bool true)]))
  | addFields (fields : Object) :
      WrittenAs (.addFields fields) (.single "$addFields" (.object fields))
  | set (fields : Object) : WrittenAs (.set fields) (.single "$set" (.object fields))
  | group (spec : Object) : WrittenAs (.group spec) (.single "$group" (.object spec))
  | sort (keys : List SortKey) :
      WrittenAs (.sort keys) (.single "$sort" (.object (Object.ofMembers (keys.map fun k =>
        (String.ofList (k.path.toList.dropWhile (· = '$')),
          match k.direction with | .asc => .ofInt64 1 | .desc => .ofInt64 (-1))))))
  | computed {field operator reference : String} {args : List String}
      (refers : Dollared operator reference) :
      WrittenAs (.computed field operator args) (.single "$addFields" (.single field
        (.single reference (.array (args.map fun a =>
          (Value.read? (Text.trim a)).getD (.string (Text.trim a)))))))

/-- `whole` has the stages of `bare` in their order, and besides them the custom stages, sorted by
their positions. In front of each position are generated stages of the places that it is behind, and
no others. -/
structure Splices (q : Query) (bare whole : List Stage) : Prop where
  generated : whole.filter (·.place?.isSome) = bare
  inserted : whole.filter (·.place?.isNone) =
    (sortBy (·.position.rank) q.options.customStages).map (.custom ·.body)
  written : List.Forall₂ WrittenAs
    ((sortBy (·.position.rank) q.options.customStages).map (·.body))
    ((whole.filter (·.place?.isNone)).map Stage.render)
  placed : ∀ position, ∃ before after,
    whole = before ++ (customStages q.options position ++ after) ∧
      (∀ stage ∈ before, ∀ place, stage.place? = some place → place ∈ position.passed) ∧
      ∀ stage ∈ after, ∀ place, stage.place? = some place → place ∉ position.passed

section

variable {q : Query} {own : Place → List Stage}

theorem filter_stretch (here : ∀ place, ∀ stage ∈ own place, stage.place? = some place)
    (x : StagePosition × List Place) :
    (stretch q own x).filter (·.place?.isSome) = x.2.flatMap own ∧
      (stretch q own x).filter (·.place?.isNone) = customStages q.options x.1 := by
  have custom : ∀ stage ∈ customStages q.options x.1, stage.place? = none := by
    intro stage mem
    obtain ⟨body, -, rfl⟩ := List.mem_map.mp mem
    rfl
  have placed : ∀ stage ∈ x.2.flatMap own, stage.place?.isSome = true := by
    intro stage mem
    obtain ⟨place, -, mem⟩ := List.mem_flatMap.mp mem
    rw [here place stage mem, Option.isSome_some]
  constructor
  · rw [stretch, List.filter_append, List.filter_eq_nil_iff.mpr, List.filter_eq_self.mpr placed,
      List.nil_append]
    intro stage mem
    simp [custom stage mem]
  · rw [stretch, List.filter_append, List.filter_eq_self.mpr, List.filter_eq_nil_iff.mpr,
      List.append_nil]
    · intro stage mem
      simp [Option.isSome_iff_ne_none.mp (placed stage mem)]
    · intro stage mem
      simp [custom stage mem]

theorem place_mem_of_stretch (here : ∀ place, ∀ stage ∈ own place, stage.place? = some place)
    {xs : List (StagePosition × List Place)} {stage : Stage} {place : Place}
    (mem : stage ∈ xs.flatMap (stretch q own)) (hp : stage.place? = some place) :
    place ∈ xs.flatMap Prod.snd := by
  obtain ⟨x, hx, mem⟩ := List.mem_flatMap.mp mem
  refine List.mem_flatMap.mpr ⟨x, hx, ?_⟩
  rcases List.mem_append.mp mem with mem | mem
  · obtain ⟨body, -, rfl⟩ := List.mem_map.mp mem
    cases hp
  · obtain ⟨other, listed, mem⟩ := List.mem_flatMap.mp mem
    have same := (here other stage mem).symm.trans hp
    exact Option.some.inj same ▸ listed

theorem customStages_sorted (q : Query) :
    (skeleton.flatMap fun x => customStages q.options x.1) =
      (sortBy (·.position.rank) q.options.customStages).map (.custom ·.body) := by
  rw [← StagePosition.flatMap_all, List.map_flatMap]
  simp [skeleton, StagePosition.all, customStages, Options.stagesAt, Function.comp_def]

theorem dollared_dollar (path : String) : Dollared path (dollar path) := by
  unfold dollar
  split
  · next initial =>
    obtain ⟨rest, chars⟩ : ∃ rest, path.toList = '$' :: rest := by
      unfold Text.hasInitial at initial
      cases h : path.toList with
      | nil => simp [h] at initial
      | cons c rest => exact ⟨rest, by simpa [h] using initial⟩
    refine .given (String.ofList rest) (String.toList_injective ?_)
    simp [chars]
  · next plain =>
    refine .added fun rest same => plain ?_
    simp [same, Text.hasInitial]

theorem customValue_writtenAs (body : StageBody) : WrittenAs body (customValue body) := by
  cases body with
  | unwind path preserveEmpty =>
    cases preserveEmpty with
    | false => exact .unwind (dollared_dollar path)
    | true => exact .unwindAll (dollared_dollar path)
  | addFields fields => exact .addFields fields
  | set fields => exact .set fields
  | group spec => exact .group spec
  | sort keys =>
    rw [customValue, sortObject, List.map_map]
    exact .sort keys
  | computed field operator args => exact .computed (dollared_dollar operator)

theorem forall₂_writtenAs (stages : List CustomStage) :
    List.Forall₂ WrittenAs (stages.map (·.body))
      ((stages.map (Stage.custom ·.body)).map Stage.render) := by
  induction stages with
  | nil => exact .nil
  | cons x stages ih =>
    refine .cons ?_ ih
    rw [Stage.render]
    exact customValue_writtenAs x.body

theorem inserted_stretches (q : Query)
    (here : ∀ place, ∀ stage ∈ own place, stage.place? = some place) :
    (skeleton.flatMap (stretch q own)).filter (·.place?.isNone) =
      (sortBy (·.position.rank) q.options.customStages).map (.custom ·.body) := by
  rw [List.filter_flatMap, ← customStages_sorted]
  exact List.flatMap_congr fun x _ => (filter_stretch here x).2

theorem splices_stretches (q : Query)
    (here : ∀ place, ∀ stage ∈ own place, stage.place? = some place) :
    Splices q (skeleton.flatMap fun x => x.2.flatMap own)
      (skeleton.flatMap (stretch q own)) where
  generated := by
    rw [List.filter_flatMap]
    exact List.flatMap_congr fun x _ => (filter_stretch here x).1
  inserted := inserted_stretches q here
  written := by
    rw [inserted_stretches q here]
    exact forall₂_writtenAs _
  placed := by
    intro position
    obtain ⟨front, places, back, split, passed, later⟩ := exists_skeleton_split position
    refine ⟨front.flatMap (stretch q own),
      places.flatMap own ++ back.flatMap (stretch q own), ?_, ?_, ?_⟩
    · rw [split, List.flatMap_append, List.flatMap_cons, stretch, List.append_assoc]
    · intro stage mem place hp
      exact passed ▸ place_mem_of_stretch here mem hp
    · intro stage mem place hp
      apply later place
      rcases List.mem_append.mp mem with mem | mem
      · obtain ⟨other, listed, mem⟩ := List.mem_flatMap.mp mem
        have same := (here other stage mem).symm.trans hp
        exact List.mem_append_left _ (Option.some.inj same ▸ listed)
      · exact List.mem_append_right _ (place_mem_of_stretch here mem hp)

end

section

variable {s : Schema} {q : Query} {p : Pipeline}

theorem stages_eq_stretches (h : pipeline? s q = some p) :
    p.stages = skeleton.flatMap (stretch q (generated s p.collection
      ((JoinGraph.ofSchema s).plan q.referencedEntities).joins q)) := by
  rw [stages_eq h]
  simp [skeleton, stretch, List.append_assoc]

theorem isSome_pipeline :
    (pipeline? s q).isSome ↔ q.isEmpty = false ∧ q.referencedEntities ≠ [] := by
  rw [Option.isSome_iff_exists]
  constructor
  · rintro ⟨p, h⟩
    refine ⟨(pipeline_eq h).1, fun none => ?_⟩
    have head := head_referencedEntities h
    rw [none] at head
    cases head
  · rintro ⟨shown, refers⟩
    exact exists_pipeline shown refers

theorem isSome_pipeline_withoutCustomStages (s : Schema) (q : Query) :
    (pipeline? s q).isSome ↔ (pipeline? s q.withoutCustomStages).isSome :=
  isSome_pipeline.trans (isSome_pipeline (q := q.withoutCustomStages)).symm

theorem collection_withoutCustomStages {b : Pipeline} (h : pipeline? s q = some p)
    (hb : pipeline? s q.withoutCustomStages = some b) : p.collection = b.collection := by
  have bare := head_referencedEntities hb
  exact Option.some.inj ((head_referencedEntities h).symm.trans bare)

theorem generated_withoutCustomStages (s : Schema) (root : String) (joins : List Join) (q : Query) :
    generated s root joins q.withoutCustomStages = generated s root joins q := by
  funext place
  cases place <;> rfl

theorem stages_withoutCustomStages {b : Pipeline} (h : pipeline? s q.withoutCustomStages = some b) :
    b.stages = skeleton.flatMap fun x => x.2.flatMap (generated s b.collection
      ((JoinGraph.ofSchema s).plan q.referencedEntities).joins q) := by
  rw [stages_eq_stretches h, generated_withoutCustomStages]
  exact List.flatMap_congr fun x _ => List.nil_append _

end

theorem pipeline_splices (s : Schema) (q : Query) :
    Option.Rel (fun p b => p.collection = b.collection ∧ Splices q b.stages p.stages)
      (pipeline? s q) (pipeline? s q.withoutCustomStages) := by
  have both := isSome_pipeline_withoutCustomStages s q
  cases made : pipeline? s q with
  | none =>
    rw [made] at both
    rw [Option.not_isSome_iff_eq_none.mp (mt both.mpr Bool.false_ne_true)]
    exact .none
  | some p =>
    rw [made] at both
    obtain ⟨b, bare⟩ := Option.isSome_iff_exists.mp (both.mp rfl)
    have root := collection_withoutCustomStages made bare
    rw [bare]
    refine .some ⟨root, ?_⟩
    rw [stages_eq_stretches made, stages_withoutCustomStages bare, root]
    exact splices_stretches q fun place stage => place_generated

end Pipeline

end QueryBuilder
