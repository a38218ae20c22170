import QueryBuilder.Proofs.Schema.Printing
import QueryBuilder.Proofs.Schema.Progress

set_option autoImplicit false

namespace QueryBuilder

open Lexer (isName)
open Sentence (TypeName)
open Sentence.EntityBlock (metadataTokens pairs)

namespace Lexer

theorem isName_of_token {c : Char} {rest : List Char} {s : String}
    (word : (token c rest).1 = .ident s) : isName s = true := by
  unfold token at word
  split at word
  · next mark =>
    unfold punctuation? at mark
    split at mark <;> cases mark <;> cases word
  · split at word
    · cases word
    · split at word
      · cases word
      · split at word
        · next start =>
          cases word
          simp [isName, start, List.all_takeWhile]
        · cases word

end Lexer

def Named (ls : List Lexeme) : Prop := ∀ l ∈ ls, ∀ s, l.token = .ident s → isName s = true

theorem named_lexemes (n : Nat) (cs : List Char) : Named (Lexer.lexemes n cs) := by
  fun_induction Lexer.lexemes n cs with
  | case1 n cs bare =>
    intro l hl s word
    cases List.mem_singleton.mp hl
    cases word
  | case2 n cs c rest here ih => exact List.forall_mem_cons.mpr ⟨fun s => Lexer.isName_of_token, ih⟩

namespace Named

variable {ls rest : List Lexeme}

theorem tail {l : Lexeme} (named : Named (l :: ls)) : Named ls :=
  fun x hx => named x (List.mem_cons_of_mem _ hx)

theorem of_passes (named : Named ls) (passes : Passes ls rest) : Named rest :=
  fun l hl => named l (passes.mem hl)

theorem isName {ts : List Token} {s : String} (named : Named ls) (run : Spells ts ls rest)
    (mem : Token.ident s ∈ ts) : Lexer.isName s = true := by
  obtain ⟨front, rfl, rfl⟩ := run
  obtain ⟨l, hl, word⟩ := List.mem_map.mp mem
  exact named l (List.mem_append_left _ hl) s word

end Named

namespace Reader

variable {ls rest : List Lexeme}

theorem writable_of_relationshipFrom {leftEntity : String} {r : Relationship} (named : Named ls)
    (left : isName leftEntity = true) (read : relationshipFrom leftEntity ls = .done r rest) :
    r.Writable := by
  obtain ⟨⟨_, leftField, pointsLeft, rightEntity, rightField⟩, rfl, rfl, run, -⟩ :=
    relationshipFrom_done.mp read
  have word {s : String} (mem : s ∈ [leftField, rightEntity, rightField]) : isName s = true := by
    refine named.isName run ?_
    simp only [List.mem_cons, List.not_mem_nil, or_false] at mem
    rcases mem with rfl | rfl | rfl <;> simp [Sentence.RelationLine.tailTokens]
  have field := word (s := leftField) (by simp)
  have entity' := word (s := rightEntity) (by simp)
  have field' := word (s := rightField) (by simp)
  cases pointsLeft with
  | false => exact ⟨left, field, entity', field'⟩
  | true => exact ⟨entity', field', left, field⟩

theorem isName_of_entityHead {m : List (String × String)} (named : Named ls)
    (read : entityHead ls = .done m rest) : ∀ item ∈ m, isName item.1 = true := by
  obtain ⟨md, gap, -, rfl, run⟩ := entityHead_done.mp read
  intro item mem
  obtain ⟨i, hi, rfl⟩ := List.mem_map.mp mem
  refine named.isName run (List.mem_append_left _ ?_)
  cases md with
  | none => cases hi
  | some items =>
    refine List.mem_cons_of_mem _ (List.mem_append_left _ (List.mem_flatMap.mpr ⟨i, hi, ?_⟩))
    exact List.mem_cons_self

def rawTypeOf (t : TypeName) : RawType :=
  ⟨t.word, t.arguments.map Sentence.joined, t.isArray⟩

theorem text_rawTypeOf (t : TypeName) : (rawTypeOf t).text = t.text := by
  obtain ⟨word, arguments, isArray⟩ := t
  cases arguments <;> rfl

theorem writable_of_field {f : Field} (named : Named ls) (read : field ls = .done f rest) :
    f.Writable := by
  obtain ⟨line, -, rfl, run, -⟩ := field_done.mp read
  have name : isName line.name = true := named.isName run List.mem_cons_self
  have word : isName line.type.word = true :=
    named.isName run (List.mem_cons_of_mem _ (List.mem_append_left _ List.mem_cons_self))
  have type : line.field.type = .ofTypeName line.field.rawType := by rw [Sentence.FieldLine.field]
  exact ⟨name, ⟨rawTypeOf line.type, word, (text_rawTypeOf _).symm⟩, type⟩

structure AllWritable (fields : List Field) : Prop where
  each : ∀ f ∈ fields, f.Writable
  distinct : (fields.map (·.name)).Nodup

theorem AllWritable.snoc {fields : List Field} {f : Field} (all : AllWritable fields)
    (here : f.Writable) (fresh : ¬fields.any (·.name = f.name)) : AllWritable (fields ++ [f]) := by
  refine ⟨List.forall_mem_append.mpr ⟨all.each, List.forall_mem_singleton.mpr here⟩, ?_⟩
  refine nodup_map_snoc.mpr ⟨all.distinct, fun present => fresh ?_⟩
  obtain ⟨g, hg, same⟩ := List.mem_map.mp present
  exact List.any_eq_true.mpr ⟨g, hg, decide_eq_true same⟩

theorem allWritable_body (entity : String) {fields : List Field} (named : Named ls)
    (all : AllWritable fields) : AllWritable (body entity fields ls).fields := by
  fun_induction body entity fields ls with
  | case1 => exact all
  | case2 fields l rest skip ih => exact ih named.tail all
  | case3 => exact all
  | case4 => exact all
  | case5 fields l rest skip close stop f after read repeated ih =>
    exact ih (named.of_passes (advances_field.of_done read)) all
  | case6 fields l rest skip close stop f after read fresh ih =>
    exact ih (named.of_passes (advances_field.of_done read))
      (all.snoc (writable_of_field named read) fresh)
  | case7 fields l rest skip close stop e after read ih =>
    have skipped : Passes after (dropBefore fieldEnds after) :=
      .dropBefore (by simp [fieldEnds]) after
    exact ih (named.of_passes ((advances_field.of_stuck read).trans skipped)) all

end Reader

def Declaration.Writable : Declaration → Prop
  | .relationship r => r.Writable
  | .entity _ e _ => e.Writable
  | .malformed _ => True

namespace Reader

variable {ls : List Lexeme}

theorem writable_relationship {leftEntity : String} (named : Named ls)
    (left : isName leftEntity = true) : (relationship leftEntity ls).1.Writable := by
  unfold relationship declared
  split
  · next read => exact writable_of_relationshipFrom named left read
  · trivial

theorem writable_entity {name : String} (line : Nat) (named : Named ls)
    (word : isName name = true) : (entity line name ls).1.Writable := by
  unfold entity declared
  split
  · next items inner read =>
    have inside := named.of_passes (advances_entityHead.of_done read)
    have none : AllWritable [] := ⟨by simp, List.nodup_nil⟩
    have all := allWritable_body name inside none
    exact ⟨word, all.each, all.distinct, isName_of_entityHead named read⟩
  · trivial

theorem writable_declaration (named : Named ls) : (declaration ls).1.Writable := by
  unfold declaration
  split
  · next s n rest =>
    have word : isName s = true := named _ List.mem_cons_self s rfl
    split
    · exact writable_relationship named.tail word
    · exact writable_entity n named.tail word
  · trivial

theorem writable_declarations (named : Named ls) : ∀ d ∈ declarations ls, d.Writable := by
  fun_induction declarations ls with
  | case1 => simp
  | case2 l rest newline ih => exact ih named.tail
  | case3 => simp
  | case4 l rest newline stop ih =>
    exact List.forall_mem_cons.mpr
      ⟨writable_declaration named, ih (named.of_passes (passes_declaration _))⟩

end Reader

namespace Parsed

theorem writable_add {p : Parsed} {d : Declaration} (kept : p.schema.Writable)
    (here : d.Writable) : (p.add d).schema.Writable := by
  cases d with
  | malformed e => exact kept
  | relationship r =>
    rw [add, addRelationship]
    split
    · exact kept
    · next fresh =>
      refine ⟨kept.entities, kept.distinctEntities, ?_, ?_⟩
      · exact List.forall_mem_append.mpr ⟨kept.relationships, List.forall_mem_singleton.mpr here⟩
      · simpa using (nodup_map_snoc (f := id)).mpr ⟨by simpa using kept.distinctRelationships,
          by simpa using fresh⟩
  | entity line e errors =>
    rw [add, addEntity]
    split
    · exact kept
    · next absent =>
      refine ⟨?_, ?_, kept.relationships, kept.distinctRelationships⟩
      · exact List.forall_mem_append.mpr ⟨kept.entities, List.forall_mem_singleton.mpr here⟩
      · exact nodup_map_snoc.mpr
          ⟨kept.distinctEntities, fun present => absent (isSome_entity?.mpr present)⟩

theorem writable_foldl_add {p : Parsed} {ds : List Declaration} (kept : p.schema.Writable)
    (all : ∀ d ∈ ds, d.Writable) : (ds.foldl add p).schema.Writable := by
  induction ds generalizing p with
  | nil => exact kept
  | cons d ds ih =>
    obtain ⟨here, others⟩ := List.forall_mem_cons.mp all
    exact ih (writable_add kept here) others

end Parsed

theorem parse_writable (source : String) : (parse source).schema.Writable := by
  have empty : Schema.empty.Writable := ⟨by simp [Schema.empty], by simp [Schema.empty],
    by simp [Schema.empty], by simp [Schema.empty]⟩
  exact Parsed.writable_foldl_add empty
    (Reader.writable_declarations (named_lexemes 1 source.toList))

end QueryBuilder
