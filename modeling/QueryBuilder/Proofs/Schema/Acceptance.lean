import QueryBuilder.Schema.Parser
import QueryBuilder.Proofs.Schema.Constructs
import QueryBuilder.Proofs.Schema.Lexing

set_option autoImplicit false

namespace QueryBuilder

open Sentence (BodyItem EntityBlock FieldLine Followed MetadataItem RelationLine Source SourceItem
  TypeName)
open Sentence.EntityBlock (BodyFits bodyTokens)

theorem nodup_map_snoc {α β : Type} {f : α → β} {xs : List α} {x : α} :
    ((xs ++ [x]).map f).Nodup ↔ (xs.map f).Nodup ∧ f x ∉ xs.map f := by
  rw [List.map_append, List.nodup_append]
  constructor
  · intro ⟨distinct, _, apart⟩
    exact ⟨distinct, fun present => apart _ present _ (by simp) rfl⟩
  · intro ⟨distinct, fresh⟩
    refine ⟨distinct, List.pairwise_singleton _ _, ?_⟩
    intro y hy z hz same
    rw [same, List.mem_singleton.mp hz] at hy
    exact fresh hy

theorem bodyFits_cons {i : BodyItem} {items : List BodyItem} :
    BodyFits (i :: items) ↔ (i.Separated items.head? ∧ i.Fits) ∧ BodyFits items := by
  simp [BodyFits, Followed, and_assoc, and_left_comm]

namespace Reader

variable {ls rest : List Lexeme}

theorem peek_body {items : List BodyItem} (run : Spells (bodyTokens items) ls rest) :
    peek ls ∈ fieldEnds ↔
      items.head? = none ∨ items.head? = some .newline ∨ items.head? = some .comma := by
  cases items with
  | nil => simp [peek_cons_of_spells run, fieldEnds]
  | cons i items =>
    cases i with
    | newline | comma => simp [peek_cons_of_spells run, fieldEnds]
    | field f =>
      have first : peek ls = .ident f.name := peek_cons_of_spells run
      simp [first, fieldEnds]

theorem body_sound {entity : String} {fields : List Field}
    (clean : (body entity fields ls).errors = []) (distinct : (fields.map (·.name)).Nodup) :
    ∃ items, BodyFits items ∧
      (body entity fields ls).fields = fields ++ EntityBlock.fields items ∧
      ((fields ++ EntityBlock.fields items).map (·.name)).Nodup ∧
      Spells (bodyTokens items) ls (body entity fields ls).rest := by
  fun_induction body entity fields ls with
  | case1 fields => cases clean
  | case2 fields l ls skip ih =>
    obtain ⟨t, n⟩ := l
    obtain ⟨items, fit, same, distinct, run⟩ := ih clean distinct
    rcases skip with rfl | rfl
    · have fit' : BodyFits (.newline :: items) := bodyFits_cons.mpr ⟨⟨trivial, trivial⟩, fit⟩
      exact ⟨.newline :: items, fit', same, distinct, run.cons⟩
    · have fit' : BodyFits (.comma :: items) := bodyFits_cons.mpr ⟨⟨trivial, trivial⟩, fit⟩
      exact ⟨.comma :: items, fit', same, distinct, run.cons⟩
  | case3 fields l ls _ close =>
    obtain ⟨t, n⟩ := l
    cases close
    exact ⟨[], ⟨trivial, by simp⟩, by simp [EntityBlock.fields],
      by simpa [EntityBlock.fields] using distinct, (Spells.nil_iff.mpr rfl).cons⟩
  | case4 => cases clean
  | case5 => cases clean
  | case6 fields l ls _ _ _ f after done fresh ih =>
    obtain ⟨line, fit, rfl, run, stop⟩ := field_done.mp done
    have distinct' : ((fields ++ [line.field]).map (·.name)).Nodup := by
      refine nodup_map_snoc.mpr ⟨distinct, ?_⟩
      intro present
      obtain ⟨g, hg, same⟩ := List.mem_map.mp present
      exact fresh (List.any_eq_true.mpr ⟨g, hg, decide_eq_true same⟩)
    obtain ⟨items, fits, same, distinct, run'⟩ := ih clean distinct'
    have behind : (BodyItem.field line).Separated items.head? := (peek_body run').mp stop
    refine ⟨.field line :: items, bodyFits_cons.mpr ⟨⟨behind, fit⟩, fits⟩, ?_, ?_, ?_⟩
    · rw [same]
      simp [EntityBlock.fields, BodyItem.field?]
    · simpa [EntityBlock.fields, BodyItem.field?] using distinct
    · rw [bodyTokens, List.flatMap_cons, List.append_assoc]
      exact run.append run'
  | case7 => cases clean

theorem body_complete {entity : String} {fields : List Field} {items : List BodyItem}
    (fit : BodyFits items)
    (distinct : ((fields ++ EntityBlock.fields items).map (·.name)).Nodup)
    (run : Spells (bodyTokens items) ls rest) :
    body entity fields ls = ⟨fields ++ EntityBlock.fields items, [], rest⟩ := by
  induction items generalizing fields ls with
  | nil =>
    obtain ⟨n, _, rfl, done⟩ := Spells.cons_iff.mp run
    obtain rfl := Spells.nil_iff.mp done
    simp [body, EntityBlock.fields]
  | cons i items ih =>
    obtain ⟨⟨behind, here⟩, fit'⟩ := bodyFits_cons.mp fit
    cases i with
    | newline | comma =>
      obtain ⟨n, mid, rfl, run'⟩ := Spells.cons_iff.mp run
      rw [body, if_pos (by simp)]
      exact ih fit' distinct run'
    | field line =>
      rw [bodyTokens, List.flatMap_cons, List.append_assoc] at run
      obtain ⟨mid, front, run'⟩ := Spells.append_iff.mp run
      have done : field ls = .done line.field mid :=
        field_done.mpr ⟨line, here, rfl, front, (peek_body run').mpr behind⟩
      have split : fields ++ EntityBlock.fields (.field line :: items) =
          (fields ++ [line.field]) ++ EntityBlock.fields items := by
        simp [EntityBlock.fields, BodyItem.field?]
      rw [split] at distinct ⊢
      have fresh : ¬fields.any (·.name = line.field.name) := by
        intro repeated
        obtain ⟨g, hg, same⟩ := List.any_eq_true.mp repeated
        rw [List.map_append] at distinct
        have apart := (nodup_map_snoc.mp (List.nodup_append.mp distinct).1).2
        exact apart (List.mem_map.mpr ⟨g, hg, of_decide_eq_true same⟩)
      -- Two names in a row, so the line cannot be taken for the next declaration.
      obtain ⟨n, _, rfl, second⟩ := Spells.cons_iff.mp front
      obtain ⟨k, _, rfl, -⟩ := Spells.cons_iff.mp second
      rw [body, if_neg (by simp), if_neg (by simp), dif_neg (by simp [startsDeclaration, isOneOf])]
      split
      · next f after h =>
        rw [done] at h
        cases h
        rw [if_neg fresh]
        exact ih fit' distinct run'
      · next e after h =>
        rw [done] at h
        cases h

end Reader

namespace Declaration

def errors : Declaration → List ParseError
  | .relationship _ => []
  | .entity _ _ errors => errors
  | .malformed e => [e]

def entity? : Declaration → Option Entity
  | .entity _ e _ => some e
  | _ => none

def relationship? : Declaration → Option Relationship
  | .relationship r => some r
  | _ => none

-- The declaration is read from the item, and nothing is wrong with it.
structure Renders (d : Declaration) (i : SourceItem) : Prop where
  clean : d.errors = []
  entity : d.entity? = i.entity?
  relationship : d.relationship? = i.relationship?
  distinct : ∀ e ∈ i.entity?, (e.fields.map (·.name)).Nodup

end Declaration

namespace Reader

variable {ls rest : List Lexeme}

-- What a relation demands of the token behind it.
def EndsLine (i : SourceItem) (rest : List Lexeme) : Prop :=
  ∀ r, i = .relation r → peek rest ∈ lineEnds

theorem declaration_sound (clean : (declaration ls).1.errors = []) :
    ∃ i : SourceItem, i.Fits ∧ (declaration ls).1.Renders i ∧
      Spells i.tokens ls (declaration ls).2 ∧ EndsLine i (declaration ls).2 := by
  unfold declaration at clean ⊢
  split at clean
  · next s n after =>
    by_cases dot : peek after = .dot
    · rw [if_pos dot] at clean ⊢
      unfold relationship declared at clean ⊢
      cases h : relationshipFrom s after with
      | stuck e stop => rw [h] at clean; cases clean
      | done r stop =>
        obtain ⟨line, rfl, rfl, run, ends⟩ := relationshipFrom_done.mp h
        refine ⟨.relation line, trivial, ⟨rfl, rfl, rfl, ?_⟩, run.cons, ?_⟩
        · simp [SourceItem.entity?]
        · intro _ _
          exact ends
    · rw [if_neg dot] at clean ⊢
      unfold entity declared at clean ⊢
      cases h : entityHead after with
      | stuck e stop => rw [h] at clean; cases clean
      | done metadata inner =>
        rw [h] at clean
        obtain ⟨md, gap, fits, rfl, head⟩ := entityHead_done.mp h
        obtain ⟨items, fit, fields, distinct, run⟩ := body_sound clean List.nodup_nil
        refine ⟨.entity ⟨s, md, gap, items⟩, ⟨fits, fit⟩, ⟨clean, ?_, rfl, ?_⟩, ?_, ?_⟩
        · simp only [Declaration.entity?, SourceItem.entity?, EntityBlock.entity, fields]
          rfl
        · simpa [SourceItem.entity?, EntityBlock.entity] using distinct
        · exact (head.append run).cons
        · intro _ h
          cases h
  · cases clean

theorem declaration_complete {i : SourceItem} (fits : i.Fits)
    (distinct : ∀ e ∈ i.entity?, (e.fields.map (·.name)).Nodup) (line : i ≠ .newline)
    (run : Spells i.tokens ls rest) (ends : EndsLine i rest) :
    (declaration ls).1.Renders i ∧ (declaration ls).2 = rest := by
  cases i with
  | newline => exact absurd rfl line
  | relation r =>
    obtain ⟨n, after, rfl, tail⟩ := Spells.cons_iff.mp run
    have dot : peek after = .dot := peek_cons_of_spells tail
    have done : relationshipFrom r.leftEntity after = .done r.relationship rest :=
      relationshipFrom_done.mpr ⟨r, rfl, rfl, tail, ends r rfl⟩
    simp only [declaration, if_pos dot, relationship, done, declared]
    exact ⟨⟨rfl, rfl, rfl, distinct⟩, trivial⟩
  | entity e =>
    obtain ⟨name, md, gap, items⟩ := e
    obtain ⟨n, after, rfl, tail⟩ := Spells.cons_iff.mp run
    obtain ⟨inner, head, run'⟩ := Spells.append_iff.mp tail
    have dot : peek after ≠ .dot := by
      rw [peek_of_spells head]
      cases md <;> cases gap <;>
        simp [EntityBlock.headTokens, EntityBlock.metadataTokens, List.replicate_succ]
    have done : entityHead after = .done (EntityBlock.pairs md) inner :=
      entityHead_done.mpr ⟨md, gap, fits.1, rfl, head⟩
    have fields : body name [] inner = ⟨EntityBlock.fields items, [], rest⟩ :=
      body_complete fits.2 (distinct _ rfl) run'
    simp only [declaration, if_neg dot, entity, done, declared, fields]
    exact ⟨⟨rfl, rfl, rfl, distinct⟩, trivial⟩

theorem last_tokens (i : SourceItem) :
    ∃ us t, i.tokens = us ++ [t] ∧ t ≠ .eof ∧ ∀ v, t ≠ .str v := by
  cases i with
  | newline => exact ⟨[], .newline, rfl, by simp⟩
  | entity e =>
    refine ⟨.ident e.name :: (e.headTokens ++ e.body.flatMap (·.tokens)), .rbrace, ?_, by simp⟩
    simp [SourceItem.tokens, EntityBlock.tokens, bodyTokens]
  | relation r =>
    refine ⟨.ident r.leftEntity :: r.tailTokens.dropLast, .ident r.rightField, rfl, by simp⟩

theorem terminated_of_spells {i : SourceItem} (run : Spells i.tokens ls rest)
    (h : Terminated (ls.map (·.token))) : Terminated (rest.map (·.token)) := by
  obtain ⟨us, t, tokens, inner, -⟩ := last_tokens i
  rw [run.map_token, tokens, List.append_assoc] at h
  exact terminated_of_append h inner

theorem separated_of_endsLine {i : SourceItem} {items : List SourceItem}
    (run : Spells (items.flatMap (·.tokens)) ls rest) (stop : peek rest ∈ lineEnds) :
    EndsLine i ls ↔ SourceItem.Separated i items.head? := by
  cases i with
  | newline | entity e => simp [EndsLine, SourceItem.Separated]
  | relation r =>
    cases items with
    | nil =>
      rw [Spells.nil_iff.mp run]
      simp [EndsLine, SourceItem.Separated, stop]
    | cons next items =>
      cases next with
      | newline =>
        simp [EndsLine, SourceItem.Separated, lineEnds, peek_cons_of_spells run]
      | entity e =>
        have first : peek ls = .ident e.name := peek_cons_of_spells run
        simp [EndsLine, SourceItem.Separated, lineEnds, first]
      | relation r =>
        have first : peek ls = .ident r.leftEntity := peek_cons_of_spells run
        simp [EndsLine, SourceItem.Separated, lineEnds, first]

theorem eof_mem_lineEnds (n : Nat) : peek [⟨.eof, n⟩] ∈ lineEnds := by
  simp [peek, lineEnds]

theorem declarations_eof (n : Nat) : declarations [⟨.eof, n⟩] = [] := by
  simp [declarations]

structure RendersAll (ds : List Declaration) (items : List SourceItem) : Prop where
  clean : ∀ d ∈ ds, d.errors = []
  entities : ds.filterMap (·.entity?) = items.filterMap (·.entity?)
  relationships : ds.filterMap (·.relationship?) = items.filterMap (·.relationship?)
  distinct : ∀ e ∈ items.filterMap (·.entity?), (e.fields.map (·.name)).Nodup

theorem rendersAll_cons {d : Declaration} {ds : List Declaration} {i : SourceItem}
    {items : List SourceItem} (first : d.Renders i) (others : RendersAll ds items) :
    RendersAll (d :: ds) (i :: items) where
  clean := by simpa [first.clean] using others.clean
  entities := by simp [List.filterMap_cons, first.entity, others.entities]
  relationships := by simp [List.filterMap_cons, first.relationship, others.relationships]
  distinct := by
    intro e he
    obtain ⟨j, hj, same⟩ := List.mem_filterMap.mp he
    rcases List.mem_cons.mp hj with rfl | hj
    · exact first.distinct e same
    · exact others.distinct e (List.mem_filterMap.mpr ⟨j, hj, same⟩)

theorem rendersAll_newline {ds : List Declaration} {items : List SourceItem}
    (others : RendersAll ds items) : RendersAll ds (.newline :: items) :=
  ⟨others.clean, others.entities, others.relationships, others.distinct⟩

theorem declarations_sound (ends : Terminated (ls.map (·.token)))
    (clean : ∀ d ∈ declarations ls, d.errors = []) :
    ∃ items : List SourceItem, (∀ i ∈ items, i.Fits) ∧ Followed SourceItem.Separated items ∧
      (∃ n, Spells (items.flatMap (·.tokens)) ls [⟨.eof, n⟩]) ∧
      RendersAll (declarations ls) items := by
  fun_induction declarations ls with
  | case1 => cases ends
  | case2 l ls newline ih =>
    obtain ⟨t, n⟩ := l
    cases newline
    have ends' : Terminated (ls.map (·.token)) := by simpa [Terminated] using ends
    obtain ⟨items, fits, separated, ⟨m, run⟩, renders⟩ := ih ends' clean
    refine ⟨.newline :: items, ?_, ⟨trivial, separated⟩, ⟨m, run.cons⟩, rendersAll_newline renders⟩
    simpa [SourceItem.Fits] using fits
  | case3 l ls _ eof =>
    obtain ⟨t, n⟩ := l
    cases eof
    have nothing : ls = [] := by simpa [Terminated] using ends
    subst nothing
    exact ⟨[], by simp, trivial, ⟨n, Spells.nil_iff.mpr rfl⟩, by simp, rfl, rfl, by simp⟩
  | case4 l ls _ _ ih =>
    obtain ⟨i, fit, first, here, line⟩ := declaration_sound (clean _ List.mem_cons_self)
    obtain ⟨items, fits, separated, ⟨n, run⟩, renders⟩ := ih (terminated_of_spells here ends)
      fun d hd => clean d (List.mem_cons_of_mem _ hd)
    have behind := (separated_of_endsLine run (eof_mem_lineEnds n)).mp line
    refine ⟨i :: items, ?_, ⟨behind, separated⟩, ⟨n, here.append run⟩,
      rendersAll_cons first renders⟩
    intro j hj
    rcases List.mem_cons.mp hj with rfl | hj
    · exact fit
    · exact fits j hj

-- The items are read one by one, and what follows them is read on its own.
theorem declarations_complete {items : List SourceItem} (fits : ∀ i ∈ items, i.Fits)
    (separated : Followed SourceItem.Separated items)
    (distinct : ∀ e ∈ items.filterMap (·.entity?), (e.fields.map (·.name)).Nodup)
    (run : Spells (items.flatMap (·.tokens)) ls rest) (stop : peek rest ∈ lineEnds) :
    ∃ ds, declarations ls = ds ++ declarations rest ∧ RendersAll ds items := by
  induction items generalizing ls with
  | nil =>
    rw [Spells.nil_iff.mp run]
    exact ⟨[], rfl, by simp, rfl, rfl, by simp⟩
  | cons i items ih =>
    obtain ⟨mid, here, run'⟩ := Spells.append_iff.mp run
    have later : ∀ e ∈ items.filterMap (·.entity?), (e.fields.map (·.name)).Nodup := by
      intro e he
      obtain ⟨j, hj, same⟩ := List.mem_filterMap.mp he
      exact distinct e (List.mem_filterMap.mpr ⟨j, List.mem_cons_of_mem _ hj, same⟩)
    obtain ⟨ds, split, others⟩ :=
      ih (fun j hj => fits j (List.mem_cons_of_mem _ hj)) separated.2 later run'
    by_cases newline : i = .newline
    · subst newline
      obtain ⟨k, _, rfl, done⟩ := Spells.cons_iff.mp here
      obtain rfl := Spells.nil_iff.mp done
      rw [declarations, if_pos rfl]
      exact ⟨ds, split, rendersAll_newline others⟩
    · obtain ⟨first, after⟩ := declaration_complete (fits i List.mem_cons_self)
        (fun e he => distinct e (List.mem_filterMap.mpr ⟨i, List.mem_cons_self, he⟩)) newline here
        ((separated_of_endsLine run' stop).mpr separated.1)
      have word : ∃ s k tail, ls = ⟨.ident s, k⟩ :: tail := by
        cases i with
        | newline => exact absurd rfl newline
        | entity e =>
          obtain ⟨k, tail, same, -⟩ := Spells.cons_iff.mp here
          exact ⟨_, k, tail, same⟩
        | relation r =>
          obtain ⟨k, tail, same, -⟩ := Spells.cons_iff.mp here
          exact ⟨_, k, tail, same⟩
      obtain ⟨s, k, tail, rfl⟩ := word
      rw [declarations, if_neg (by simp), dif_neg (by simp), after, split]
      exact ⟨_, rfl, rendersAll_cons first others⟩

end Reader

namespace Parsed

variable {p : Parsed} {ds : List Declaration}

theorem isSome_entity? {s : Schema} {name : String} :
    (s.entity? name).isSome = true ↔ name ∈ s.entities.map (·.name) := by
  simp [Schema.entity?, List.find?_isSome]

theorem add_errors (d : Declaration) :
    (p.add d).errors = [] ↔ p.errors = [] ∧ d.errors = [] ∧
      ∀ e ∈ d.entity?, e.name ∉ p.schema.entities.map (·.name) := by
  cases d with
  | relationship r =>
    simp only [add, addRelationship, Declaration.errors, Declaration.entity?]
    split <;> simp
  | malformed e => simp [add, report, Declaration.errors]
  | entity line e errors =>
    simp only [add, addEntity, Declaration.errors, Declaration.entity?]
    split
    · next present =>
      have repeated : e.name ∈ p.schema.entities.map (·.name) := isSome_entity?.mp present
      simp only [report, List.append_eq_nil_iff, Option.mem_def, Option.some.injEq,
        forall_eq', repeated]
      simp
    · next absent =>
      have fresh : e.name ∉ p.schema.entities.map (·.name) := fun h => absent (isSome_entity?.mpr h)
      simp only [report, List.append_eq_nil_iff, Option.mem_def, Option.some.injEq, forall_eq',
        fresh, not_false_eq_true, and_true]

theorem add_entities (d : Declaration) (clean : (p.add d).errors = []) :
    (p.add d).schema.entities = p.schema.entities ++ d.entity?.toList := by
  obtain ⟨-, -, fresh⟩ := (add_errors d).mp clean
  cases d with
  | relationship r =>
    simp only [add, addRelationship, Declaration.entity?]
    split <;> simp
  | malformed e => simp [add, report, Declaration.entity?]
  | entity line e errors =>
    have absent : ¬((p.report errors).schema.entity? e.name).isSome = true :=
      fun h => fresh e rfl (isSome_entity?.mp h)
    simp only [add, addEntity, if_neg absent]
    rfl

theorem add_relationships (d : Declaration) :
    (p.add d).schema.relationships =
      match d.relationship? with
      | some r => if r ∈ p.schema.relationships then p.schema.relationships
        else p.schema.relationships ++ [r]
      | none => p.schema.relationships := by
  cases d with
  | relationship r =>
    simp only [add, addRelationship, Declaration.relationship?]
    split <;> rfl
  | malformed e => rfl
  | entity line e errors =>
    simp only [add, addEntity, Declaration.relationship?]
    split <;> rfl

theorem nodup_add (d : Declaration) (clean : (p.add d).errors = [])
    (distinct : (p.schema.entities.map (·.name)).Nodup) :
    ((p.add d).schema.entities.map (·.name)).Nodup := by
  obtain ⟨-, -, fresh⟩ := (add_errors d).mp clean
  rw [add_entities d clean]
  cases h : d.entity? with
  | none => simpa using distinct
  | some e =>
    exact nodup_map_snoc.mpr ⟨distinct, fresh e h⟩

theorem filterMap_cons_toList {α β : Type} (f : α → Option β) (x : α) (xs : List α) :
    (x :: xs).filterMap f = (f x).toList ++ xs.filterMap f := by
  cases h : f x <;> simp [h]

theorem errors_of_foldl_add (clean : (ds.foldl add p).errors = []) : p.errors = [] := by
  induction ds generalizing p with
  | nil => exact clean
  | cons d ds ih => exact ((add_errors d).mp (ih clean)).1

theorem foldl_add_sound (clean : (ds.foldl add p).errors = [])
    (distinct : (p.schema.entities.map (·.name)).Nodup) :
    (∀ d ∈ ds, d.errors = []) ∧
      (ds.foldl add p).schema.entities = p.schema.entities ++ ds.filterMap (·.entity?) ∧
      ((ds.foldl add p).schema.entities.map (·.name)).Nodup := by
  induction ds generalizing p with
  | nil => simpa using distinct
  | cons d ds ih =>
    have first : (p.add d).errors = [] := errors_of_foldl_add clean
    obtain ⟨others, entities, distinct'⟩ := ih clean (nodup_add d first distinct)
    refine ⟨?_, ?_, distinct'⟩
    · intro x hx
      rcases List.mem_cons.mp hx with rfl | hx
      · exact ((add_errors x).mp first).2.1
      · exact others x hx
    · rw [List.foldl_cons, entities, add_entities d first, filterMap_cons_toList, List.append_assoc]

theorem foldl_add_complete (before : p.errors = []) (clean : ∀ d ∈ ds, d.errors = [])
    (distinct : ((p.schema.entities ++ ds.filterMap (·.entity?)).map (·.name)).Nodup) :
    (ds.foldl add p).errors = [] := by
  induction ds generalizing p with
  | nil => exact before
  | cons d ds ih =>
    rw [filterMap_cons_toList, ← List.append_assoc] at distinct
    have fresh : ∀ e ∈ d.entity?, e.name ∉ p.schema.entities.map (·.name) := by
      intro e he present
      rw [Option.mem_def.mp he, Option.toList_some, List.map_append] at distinct
      exact (nodup_map_snoc.mp (List.nodup_append.mp distinct).1).2 present
    have first : (p.add d).errors = [] :=
      (add_errors d).mpr ⟨before, clean d List.mem_cons_self, fresh⟩
    apply ih first (fun x hx => clean x (List.mem_cons_of_mem _ hx))
    rwa [add_entities d first]

theorem eraseDups_snoc_of_mem {α : Type} [BEq α] [LawfulBEq α] {x : α} {xs ys : List α}
    (h : x ∈ xs) : (xs ++ x :: ys).eraseDups = (xs ++ ys).eraseDups := by
  simp [List.eraseDups_append, List.removeAll, h]

theorem foldl_add_relationships (kept : p.schema.relationships.eraseDups = p.schema.relationships) :
    (ds.foldl add p).schema.relationships =
      (p.schema.relationships ++ ds.filterMap (·.relationship?)).eraseDups := by
  induction ds generalizing p with
  | nil => simpa using kept.symm
  | cons d ds ih =>
    have step := add_relationships (p := p) d
    rw [List.foldl_cons, List.filterMap_cons]
    cases h : d.relationship? with
    | none =>
      rw [h] at step
      rw [ih (by rw [step, kept]), step]
    | some r =>
      rw [h] at step
      by_cases present : r ∈ p.schema.relationships
      · simp only [if_pos present] at step
        rw [ih (by rw [step, kept]), step, eraseDups_snoc_of_mem present]
      · simp only [if_neg present] at step
        have kept' : (p.schema.relationships ++ [r]).eraseDups = p.schema.relationships ++ [r] := by
          simp [List.eraseDups_append, List.eraseDups_cons, kept, List.removeAll, present]
        rw [ih (by rw [step, kept']), step, List.append_assoc, List.singleton_append]

end Parsed

open Parsed in
theorem parseTokens_sound {ls : List Lexeme} (ends : Terminated (ls.map (·.token)))
    (clean : (parseTokens ls).errors = []) :
    ∃ src : Source, src.NoRepeats ∧ src.tokens = ls.map (·.token) := by
  obtain ⟨errors, entities, distinct⟩ := foldl_add_sound clean List.nodup_nil
  obtain ⟨items, fits, separated, ⟨n, run⟩, renders⟩ := Reader.declarations_sound ends errors
  refine ⟨⟨items, fits, separated⟩, ⟨?_, renders.distinct⟩, run.map_token.symm⟩
  rw [entities, renders.entities] at distinct
  simpa [Parsed.empty, Schema.empty, Source.entities] using distinct

open Parsed in
theorem Reader.RendersAll.foldl_add {ds : List Declaration} {src : Source}
    (renders : RendersAll ds src.items) (unique : src.NoRepeats) :
    (ds.foldl add .empty).errors = [] ∧ (ds.foldl add .empty).schema = src.schema := by
  have clean : (ds.foldl add .empty).errors = [] := by
    apply foldl_add_complete rfl renders.clean
    rw [renders.entities]
    exact unique.entities
  refine ⟨clean, ?_⟩
  have entities : (ds.foldl add .empty).schema.entities = [] ++ _ :=
    (foldl_add_sound clean List.nodup_nil).2.1
  have relationships : (ds.foldl add .empty).schema.relationships = ([] ++ _).eraseDups :=
    foldl_add_relationships rfl
  rw [renders.entities] at entities
  rw [renders.relationships] at relationships
  cases h : (ds.foldl add .empty).schema
  rw [h] at entities relationships
  simp_all [Source.schema, Source.entities, Source.relationships]

theorem parseTokens_complete {ls : List Lexeme} {src : Source} (unique : src.NoRepeats)
    (sentence : src.tokens = ls.map (·.token)) :
    (parseTokens ls).errors = [] ∧ (parseTokens ls).schema = src.schema := by
  obtain ⟨tail, run, last⟩ := Spells.of_map_token sentence.symm
  obtain ⟨⟨t, n⟩, rest, rfl, ht, nothing⟩ := List.map_eq_cons_iff.mp last
  cases ht
  cases List.map_eq_nil_iff.mp nothing
  obtain ⟨ds, split, renders⟩ := Reader.declarations_complete src.fits src.separated unique.fields
    run (Reader.eof_mem_lineEnds n)
  rw [parseTokens, split, Reader.declarations_eof, List.append_nil]
  exact renders.foldl_add unique

theorem parse_errors_eq_nil_iff (source : String) :
    ((parse source).errors = [] ↔
      ∃ src : Source, src.NoRepeats ∧ src.tokens = (tokenize source).map (·.token)) ∧
      ∀ src : Source, src.NoRepeats → src.tokens = (tokenize source).map (·.token) →
        (parse source).schema = src.schema := by
  refine ⟨⟨parseTokens_sound (terminated_lexemes 1 source.toList), ?_⟩, ?_⟩
  · intro ⟨src, unique, sentence⟩
    exact (parseTokens_complete unique sentence).1
  · intro src unique sentence
    exact (parseTokens_complete unique sentence).2

-- An entity with metadata and a relation that points left.
def shop : Source where
  items :=
    [.entity ⟨"orders", some [⟨"kind", [.str "a, b"], false⟩], 1,
      [.newline, .field ⟨"id", ⟨"int", none, false⟩, ["pk"]⟩, .comma,
        .field ⟨"total", ⟨"decimal", some [.num "10", .comma, .num "2"], false⟩, []⟩, .newline]⟩,
      .newline, .relation ⟨"users", "id", true, "orders", "user_id"⟩, .newline]
  fits := by
    simp [SourceItem.Fits, EntityBlock.MetadataFits, BodyFits, Followed, MetadataItem.Separated,
      MetadataItem.Fits, BodyItem.Separated, BodyItem.Fits, TypeName.ArgumentsFit]
  separated := by simp [Followed, SourceItem.Separated]

def shopText : String :=
  "orders [kind: 'a, b']\n\x7b\nid int pk, total decimal(10,2)\n\x7d\n" ++
    "users.id < orders.user_id\n"

theorem parse_shopText : (parse shopText).schema = shop.schema :=
  (parse_errors_eq_nil_iff shopText).2 shop ⟨by decide, by decide⟩ (by decide +kernel)

end QueryBuilder
