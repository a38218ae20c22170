import QueryBuilder.Proofs.Schema.Acceptance

set_option autoImplicit false

namespace QueryBuilder

open Lexer (escaped isName isWordPart lexemes punctuation?)
open Sentence (BodyItem EntityBlock FieldLine Followed MetadataItem RelationLine SourceItem
  TypeName)

structure RawType where
  word : String
  arguments : Option String
  isArray : Bool

namespace RawType

def argumentText : Option String → String
  | none => ""
  | some a => "(" ++ a ++ ")"

def text (t : RawType) : String :=
  t.word ++ argumentText t.arguments ++ TypeName.suffixText t.isArray

def argumentsOf : List Char → Option String
  | '(' :: cs => some (String.ofList cs.dropLast)
  | _ => none

-- An argument may hold brackets of its own, so the closing ones are looked for at the end.
def ofText (raw : String) : RawType :=
  let tail := raw.toList.dropWhile isWordPart
  let isArray := ['[', ']'].isSuffixOf tail
  let inner := if isArray then tail.take (tail.length - 2) else tail
  ⟨String.ofList (raw.toList.takeWhile isWordPart), argumentsOf inner, isArray⟩

theorem argumentsOf_argumentText (arguments : Option String) :
    argumentsOf (argumentText arguments).toList = arguments := by
  cases arguments with
  | none => rfl
  | some a => simp [argumentText, argumentsOf]

theorem isSuffixOf_argumentText (arguments : Option String) :
    ['[', ']'].isSuffixOf (argumentText arguments).toList = false := by
  cases arguments with
  | none => rfl
  | some a =>
    rw [← Bool.not_eq_true, List.isSuffixOf_iff_suffix]
    intro ⟨front, same⟩
    have closed : (argumentText (some a)).toList = ("(" ++ a).toList ++ [')'] :=
      String.toList_append
    have last := congrArg List.getLast? same
    rw [closed, List.getLast?_concat] at last
    simp at last

theorem ofText_text {t : RawType} (name : isName t.word = true) : ofText t.text = t := by
  obtain ⟨word, arguments, isArray⟩ := t
  have inside : ∀ c ∈ word.toList, isWordPart c = true := Lexer.isWordPart_of_isName name
  have stop : ∀ c ∈ ((argumentText arguments ++ TypeName.suffixText isArray).toList).head?,
      isWordPart c = false := by
    cases arguments <;> cases isArray <;> simp [argumentText, TypeName.suffixText] <;> decide
  obtain ⟨taken, left⟩ := span_of_stop inside stop
  have raw : (text ⟨word, arguments, isArray⟩).toList =
      word.toList ++ (argumentText arguments ++ TypeName.suffixText isArray).toList := by
    simp [text, String.append_assoc]
  unfold ofText
  rw [raw, taken, left, String.ofList_toList]
  cases isArray with
  | false => simp [TypeName.suffixText, isSuffixOf_argumentText, argumentsOf_argumentText]
  | true =>
    have array : ['[', ']'].isSuffixOf ((argumentText arguments).toList ++ ['[', ']']) = true := by
      simp
    simp [TypeName.suffixText, array, argumentsOf_argumentText]

end RawType

def quote (s : String) : String := "'" ++ String.ofList (escaped '\'' s.toList) ++ "'"

namespace RawType

def argumentSource : Option String → String
  | none => ""
  | some a => "(" ++ quote a ++ ")"

def source (t : RawType) : String :=
  t.word ++ argumentSource t.arguments ++ TypeName.suffixText t.isArray

end RawType

def Field.source (f : Field) : String :=
  f.name ++ " " ++ (RawType.ofText f.rawType).source ++ (if f.isPrimaryKey then " pk" else "") ++
    "\n"

def metadataList : List (String × String) → String
  | [] => ""
  | [(k, v)] => k ++ ": " ++ quote v
  | (k, v) :: item :: items => k ++ ": " ++ quote v ++ ", " ++ metadataList (item :: items)

def metadataSource : List (String × String) → String
  | [] => ""
  | items => " [" ++ metadataList items ++ "]"

def Entity.source (e : Entity) : String :=
  e.name ++ metadataSource e.metadata ++ " \x7b\n" ++ String.join (e.fields.map Field.source) ++
    "\x7d\n"

def Relationship.source (r : Relationship) : String :=
  r.sourceEntity ++ "." ++ r.sourceField ++ " > " ++ r.targetEntity ++ "." ++ r.targetField ++ "\n"

def Schema.source (s : Schema) : String :=
  String.join (s.entities.map Entity.source) ++
    String.join (s.relationships.map Relationship.source)

structure Field.Writable (f : Field) : Prop where
  name : isName f.name = true
  rawType : ∃ t : RawType, isName t.word = true ∧ f.rawType = t.text
  type : f.type = .ofTypeName f.rawType

structure Entity.Writable (e : Entity) : Prop where
  name : isName e.name = true
  fields : ∀ f ∈ e.fields, f.Writable
  distinct : (e.fields.map (·.name)).Nodup
  keys : ∀ item ∈ e.metadata, isName item.1 = true

structure Relationship.Writable (r : Relationship) : Prop where
  sourceEntity : isName r.sourceEntity = true
  sourceField : isName r.sourceField = true
  targetEntity : isName r.targetEntity = true
  targetField : isName r.targetField = true

structure Schema.Writable (s : Schema) : Prop where
  entities : ∀ e ∈ s.entities, e.Writable
  distinctEntities : (s.entities.map (·.name)).Nodup
  relationships : ∀ r ∈ s.relationships, r.Writable
  distinctRelationships : s.relationships.Nodup

def Yields (text : String) (ts : List Token) : Prop :=
  ∀ n rest, ∃ m, Spells ts (lexemes n (text.toList ++ rest)) (lexemes m rest)

-- A text that a word may stand in front of: the word ends there.
structure Follows (text : String) (ts : List Token) : Prop where
  delimits : ∃ c ∈ text.toList.head?, isWordPart c = false
  yields : Yields text ts

def isMark (c : Char) : Bool := c == ' ' || (punctuation? c).isSome

-- The tokens of a text that blanks and punctuation make up.
def markTokens? (s : String) : Option (List Token) :=
  if s.toList.all isMark then some (s.toList.filterMap punctuation?) else none

theorem markTokens_eq {s : String} {ts : List Token} (h : markTokens? s = some ts) :
    s.toList.all isMark = true ∧ s.toList.filterMap punctuation? = ts := by
  unfold markTokens? at h
  split at h
  · next all => exact ⟨all, Option.some.inj h⟩
  · cases h

namespace Yields

variable {s text : String} {ts us : List Token}

theorem empty : Yields "" [] :=
  fun n _ => ⟨n, Spells.nil_iff.mpr rfl⟩

theorem append (front : Yields s ts) (back : Yields text us) : Yields (s ++ text) (ts ++ us) := by
  intro n rest
  obtain ⟨m, first⟩ := front n (text.toList ++ rest)
  obtain ⟨m', second⟩ := back m rest
  refine ⟨m', ?_⟩
  rw [String.toList_append, List.append_assoc]
  exact first.append second

theorem join {α : Type} {f : α → String} {g : α → List Token} {xs : List α}
    (each : ∀ x ∈ xs, Yields (f x) (g x)) : Yields (String.join (xs.map f)) (xs.flatMap g) := by
  induction xs with
  | nil => exact empty
  | cons x xs ih =>
    rw [List.map_cons, String.join_cons, List.flatMap_cons]
    exact (each x List.mem_cons_self).append (ih fun y hy => each y (List.mem_cons_of_mem _ hy))

theorem word (name : isName s = true) (back : Follows text ts) :
    Yields (s ++ text) (.ident s :: ts) := by
  intro n rest
  obtain ⟨c, hc, outside⟩ := back.delimits
  obtain ⟨m, run⟩ := back.yields n rest
  refine ⟨m, ?_⟩
  have next : (text.toList ++ rest).head? = some c := by simp [Option.mem_def.mp hc]
  rw [String.toList_append, List.append_assoc, Lexer.lexemes_word name (by simp [next, outside])]
  exact run.cons

theorem quote (s : String) : Yields (quote s) [.str s] := by
  intro n rest
  have shape : (QueryBuilder.quote s).toList ++ rest =
      '\'' :: (escaped '\'' s.toList ++ '\'' :: rest) := by
    simp [QueryBuilder.quote]
  refine ⟨n, ?_⟩
  rw [shape, Lexer.lexemes_string (.inr rfl)]
  exact (Spells.nil_iff.mpr rfl).cons

theorem marks (h : markTokens? s = some ts) : Yields s ts := by
  obtain ⟨all, rfl⟩ := markTokens_eq h
  unfold Yields
  generalize s.toList = cs at all ⊢
  induction cs with
  | nil => exact empty
  | cons c cs ih =>
    intro n rest
    obtain ⟨here, all⟩ := Bool.and_eq_true_iff.mp all
    cases h : punctuation? c with
    | none =>
      have blank : c = ' ' := by simpa [isMark, h] using here
      obtain ⟨m, run⟩ := ih all n rest
      refine ⟨m, ?_⟩
      rw [List.filterMap_cons_none h, List.cons_append, blank,
        Lexer.lexemes_blank (by decide) (by decide)]
      exact run
    | some t =>
      obtain ⟨m, run⟩ := ih all (if c = '\n' then n + 1 else n) rest
      refine ⟨m, ?_⟩
      rw [List.filterMap_cons_some h, List.cons_append, Lexer.lexemes_punctuation h]
      exact run.cons

end Yields

namespace Follows

variable {s text : String} {ts us : List Token}

theorem marks (h : markTokens? s = some ts) (more : s ≠ "") (back : Yields text us) :
    Follows (s ++ text) (ts ++ us) := by
  refine ⟨?_, (Yields.marks h).append back⟩
  obtain ⟨all, -⟩ := markTokens_eq h
  obtain ⟨c, cs, h⟩ := List.exists_cons_of_ne_nil (mt String.toList_eq_nil_iff.mp more)
  rw [h] at all
  refine ⟨c, by simp [h], ?_⟩
  have outside : (' ' :: Lexer.punctuation).all (!isWordPart ·) = true := by decide
  have apart : ∀ x ∈ ' ' :: Lexer.punctuation, isWordPart x = false := by
    intro x hx
    simpa using List.all_eq_true.mp outside x hx
  obtain ⟨here, -⟩ := Bool.and_eq_true_iff.mp all
  rcases Bool.or_eq_true_iff.mp here with blank | mark
  · exact apart c (by simpa using .inl (eq_of_beq blank))
  · obtain ⟨t, ht⟩ := Option.isSome_iff_exists.mp mark
    exact apart c (List.mem_cons_of_mem _ (Lexer.mem_punctuation ht))

theorem newline : Follows "\n" [.newline] := by
  have mark : markTokens? "\n" = some [.newline] := rfl
  exact marks mark (by decide) Yields.empty

end Follows

def RawType.typeName (t : RawType) : TypeName :=
  ⟨t.word, t.arguments.map fun a => [.str a], t.isArray⟩

def Field.line (f : Field) : FieldLine :=
  ⟨f.name, (RawType.ofText f.rawType).typeName, if f.isPrimaryKey then ["pk"] else []⟩

def metadataItems : List (String × String) → List MetadataItem
  | [] => []
  | [(k, v)] => [⟨k, [.str v], false⟩]
  | (k, v) :: item :: items => ⟨k, [.str v], true⟩ :: metadataItems (item :: items)

def metadataBlock : List (String × String) → Option (List MetadataItem)
  | [] => none
  | items => some (metadataItems items)

-- The items of a text, each on its line.
def lines {α : Type} (newline : α) (xs : List α) : List α := xs.flatMap fun x => [x, newline]

def Entity.block (e : Entity) : EntityBlock :=
  ⟨e.name, metadataBlock e.metadata, 0, .newline :: lines .newline (e.fields.map (.field ·.line))⟩

def Relationship.line (r : Relationship) : RelationLine :=
  ⟨r.sourceEntity, r.sourceField, false, r.targetEntity, r.targetField⟩

def Schema.items (s : Schema) : List SourceItem :=
  lines .newline (s.entities.map (SourceItem.entity ·.block) ++
    s.relationships.map (SourceItem.relation ·.line))

theorem Relationship.Writable.yields {r : Relationship} (h : r.Writable) :
    Yields r.source (r.line.tokens ++ [Token.newline]) := by
  have shape : r.source = r.sourceEntity ++ ("." ++ (r.sourceField ++ (" > " ++ (r.targetEntity ++
      ("." ++ (r.targetField ++ "\n")))))) := by
    simp only [Relationship.source, String.append_assoc]
  have tokens : r.line.tokens ++ [Token.newline] = Token.ident r.sourceEntity :: ([Token.dot] ++
      Token.ident r.sourceField :: ([Token.gt] ++ Token.ident r.targetEntity :: ([Token.dot] ++
        Token.ident r.targetField :: [Token.newline]))) := rfl
  have dot : markTokens? "." = some [.dot] := rfl
  have right : markTokens? " > " = some [.gt] := rfl
  rw [shape, tokens]
  apply Yields.word h.sourceEntity
  apply Follows.marks dot (by decide)
  apply Yields.word h.sourceField
  apply Follows.marks right (by decide)
  apply Yields.word h.targetEntity
  apply Follows.marks dot (by decide)
  exact Yields.word h.targetField Follows.newline

namespace RawType

variable {text : String} {ts : List Token}

theorem follows_suffix (isArray : Bool) (back : Follows text ts) :
    Follows (TypeName.suffixText isArray ++ text) (TypeName.suffixTokens isArray ++ ts) := by
  cases isArray with
  | false =>
    have bare : TypeName.suffixText false ++ text = text := String.empty_append
    rw [bare]
    exact back
  | true =>
    have brackets : markTokens? "[]" = some [.lbracket, .rbracket] := rfl
    exact Follows.marks brackets (by decide) back.yields

theorem follows_arguments (arguments : Option String) (back : Follows text ts) :
    Follows (argumentSource arguments ++ text)
      (TypeName.argumentTokens (arguments.map fun a => [.str a]) ++ ts) := by
  cases arguments with
  | none =>
    have bare : argumentSource none ++ text = text := String.empty_append
    rw [bare]
    exact back
  | some a =>
    have shape : argumentSource (some a) ++ text = "(" ++ (quote a ++ (")" ++ text)) := by
      simp only [argumentSource, String.append_assoc]
    have tokens : TypeName.argumentTokens ((some a).map fun a => [Token.str a]) ++ ts =
        [Token.lparen] ++ ([Token.str a] ++ ([Token.rparen] ++ ts)) := rfl
    have opening : markTokens? "(" = some [.lparen] := rfl
    have closing : markTokens? ")" = some [.rparen] := rfl
    rw [shape, tokens]
    apply Follows.marks opening (by decide)
    apply (Yields.quote a).append
    exact (Yields.marks closing).append back.yields

end RawType

theorem Field.Writable.yields {f : Field} (h : f.Writable) :
    Yields f.source (f.line.tokens ++ [Token.newline]) := by
  obtain ⟨t, word, same⟩ := h.rawType
  have parts : RawType.ofText f.rawType = t := by rw [same, RawType.ofText_text word]
  have shape : f.source = f.name ++ (" " ++ (t.word ++ (RawType.argumentSource t.arguments ++
      (TypeName.suffixText t.isArray ++ ((if f.isPrimaryKey then " pk" else "") ++ "\n"))))) := by
    simp only [Field.source, RawType.source, parts, String.append_assoc]
  have tokens : f.line.tokens ++ [Token.newline] =
      Token.ident f.name :: ([] ++ Token.ident t.word ::
        (TypeName.argumentTokens (t.arguments.map fun a => [Token.str a]) ++
          (TypeName.suffixTokens t.isArray ++
            ((if f.isPrimaryKey then [Token.ident "pk"] else []) ++ [Token.newline])))) := by
    cases key : f.isPrimaryKey <;>
      simp [Field.line, FieldLine.tokens, TypeName.tokens, RawType.typeName, parts, key]
  have blank : markTokens? " " = some [] := rfl
  have ending : Follows ((if f.isPrimaryKey then " pk" else "") ++ "\n")
      ((if f.isPrimaryKey then [Token.ident "pk"] else []) ++ [Token.newline]) := by
    cases f.isPrimaryKey with
    | false => exact Follows.newline
    | true =>
      have key : isName "pk" = true := by decide
      have marked := Follows.marks blank (by decide) (Yields.word key Follows.newline)
      exact marked
  rw [shape, tokens]
  apply Yields.word h.name
  apply Follows.marks blank (by decide)
  apply Yields.word word
  exact RawType.follows_arguments t.arguments (RawType.follows_suffix t.isArray ending)

example : Field.source ⟨"total", .number, "decimal(10,2)", true⟩ =
    "total decimal('10,2') pk\n" := by
  decide

theorem yields_metadataList {items : List (String × String)}
    (keys : ∀ item ∈ items, isName item.1 = true) :
    Yields (metadataList items) ((metadataItems items).flatMap (·.tokens)) := by
  have colon : markTokens? ": " = some [.colon] := rfl
  have comma : markTokens? ", " = some [.comma] := rfl
  fun_induction metadataList items with
  | case1 => exact .empty
  | case2 k v =>
    have key : isName k = true := keys (k, v) List.mem_cons_self
    have shape : k ++ ": " ++ quote v = k ++ (": " ++ quote v) := String.append_assoc
    have tokens : (metadataItems [(k, v)]).flatMap (·.tokens) =
        Token.ident k :: ([Token.colon] ++ [Token.str v]) := rfl
    rw [shape, tokens]
    apply Yields.word key
    exact Follows.marks colon (by decide) (Yields.quote v)
  | case3 k v item items ih =>
    have key : isName k = true := keys (k, v) List.mem_cons_self
    have others := ih fun x hx => keys x (List.mem_cons_of_mem _ hx)
    have shape : k ++ ": " ++ quote v ++ ", " ++ metadataList (item :: items) =
        k ++ (": " ++ (quote v ++ (", " ++ metadataList (item :: items)))) := by
      simp only [String.append_assoc]
    have tokens : (metadataItems ((k, v) :: item :: items)).flatMap (·.tokens) =
        Token.ident k :: ([Token.colon] ++ ([Token.str v] ++ ([Token.comma] ++
          (metadataItems (item :: items)).flatMap (·.tokens)))) := rfl
    rw [shape, tokens]
    apply Yields.word key
    apply Follows.marks colon (by decide)
    apply (Yields.quote v).append
    exact (Yields.marks comma).append others

theorem follows_metadata {items : List (String × String)} {text : String} {ts : List Token}
    (keys : ∀ item ∈ items, isName item.1 = true) (back : Follows text ts) :
    Follows (metadataSource items ++ text)
      (EntityBlock.metadataTokens (metadataBlock items) ++ ts) := by
  cases items with
  | nil =>
    have bare : metadataSource [] ++ text = text := String.empty_append
    rw [bare]
    exact back
  | cons item items =>
    have shape : metadataSource (item :: items) ++ text =
        " [" ++ (metadataList (item :: items) ++ ("]" ++ text)) := by
      simp only [metadataSource, String.append_assoc]
    have tokens : EntityBlock.metadataTokens (metadataBlock (item :: items)) ++ ts =
        [Token.lbracket] ++ ((metadataItems (item :: items)).flatMap (·.tokens) ++
          ([Token.rbracket] ++ ts)) := by
      simp [metadataBlock, EntityBlock.metadataTokens]
    have opening : markTokens? " [" = some [.lbracket] := rfl
    have closing : markTokens? "]" = some [.rbracket] := rfl
    rw [shape, tokens]
    apply Follows.marks opening (by decide)
    apply (yields_metadataList keys).append
    exact (Yields.marks closing).append back.yields

theorem Entity.Writable.yields {e : Entity} (h : e.Writable) :
    Yields e.source (e.block.tokens ++ [Token.newline]) := by
  have fields : Yields (String.join (e.fields.map Field.source))
      (e.fields.flatMap fun f => f.line.tokens ++ [Token.newline]) :=
    .join fun f hf => (h.fields f hf).yields
  have opening : markTokens? " \x7b\n" = some [.lbrace, .newline] := rfl
  have closing : markTokens? "\x7d\n" = some [.rbrace, .newline] := rfl
  have shape : e.source = e.name ++ (metadataSource e.metadata ++ (" \x7b\n" ++
      (String.join (e.fields.map Field.source) ++ "\x7d\n"))) := by
    simp only [Entity.source, String.append_assoc]
  have tokens : e.block.tokens ++ [Token.newline] = Token.ident e.name ::
      (EntityBlock.metadataTokens (metadataBlock e.metadata) ++ ([Token.lbrace, .newline] ++
        (e.fields.flatMap (fun f => f.line.tokens ++ [Token.newline]) ++
          [Token.rbrace, .newline]))) := by
    simp [Entity.block, EntityBlock.tokens, EntityBlock.headTokens, EntityBlock.bodyTokens,
      lines, BodyItem.tokens, List.flatMap_map, List.flatMap_assoc]
  rw [shape, tokens]
  apply Yields.word h.name
  apply follows_metadata h.keys
  apply Follows.marks opening (by decide)
  exact fields.append (Yields.marks closing)

theorem Schema.Writable.yields {s : Schema} (h : s.Writable) :
    Yields s.source (s.items.flatMap (·.tokens)) := by
  have entities : Yields (String.join (s.entities.map Entity.source))
      (s.entities.flatMap fun e => e.block.tokens ++ [Token.newline]) :=
    .join fun e he => (h.entities e he).yields
  have relationships : Yields (String.join (s.relationships.map Relationship.source))
      (s.relationships.flatMap fun r => r.line.tokens ++ [Token.newline]) :=
    .join fun r hr => (h.relationships r hr).yields
  have tokens : s.items.flatMap (·.tokens) =
      s.entities.flatMap (fun e => e.block.tokens ++ [Token.newline]) ++
        s.relationships.flatMap (fun r => r.line.tokens ++ [Token.newline]) := by
    simp [Schema.items, lines, SourceItem.tokens, List.flatMap_map, List.flatMap_assoc]
  rw [Schema.source, tokens]
  exact entities.append relationships

theorem RawType.text_typeName (t : RawType) : t.typeName.text = t.text := by
  obtain ⟨word, arguments, isArray⟩ := t
  cases arguments <;>
    simp [typeName, text, TypeName.text, TypeName.argumentText, argumentText, Sentence.joined,
      Token.text]

theorem Field.Writable.field_line {f : Field} (h : f.Writable) : f.line.field = f := by
  obtain ⟨t, word, same⟩ := h.rawType
  have type := h.type
  obtain ⟨name, semantic, raw, key⟩ := f
  have written : t.text = raw := same.symm
  have parts : RawType.ofText raw = t := by rw [← written, RawType.ofText_text word]
  have marked : (if key then ["pk"] else []).any (Text.sameLetters · "pk") = key := by
    cases key <;> decide
  simp [Field.line, FieldLine.field, parts, RawType.text_typeName, written, marked]
  exact type.symm

theorem pair_str (k v : String) (comma : Bool) :
    (MetadataItem.mk k [.str v] comma).pair = (k, v) := by
  simp [MetadataItem.pair, Sentence.joined, Token.text]

theorem pairs_metadataItems (items : List (String × String)) :
    (metadataItems items).map (·.pair) = items := by
  fun_induction metadataItems items with
  | case1 => rfl
  | case2 k v => simp [pair_str]
  | case3 k v item items ih => simp [ih, pair_str]

theorem pairs_metadataBlock (items : List (String × String)) :
    EntityBlock.pairs (metadataBlock items) = items := by
  cases items with
  | nil => rfl
  | cons item items => exact pairs_metadataItems (item :: items)

theorem filterMap_lines {α β : Type} {f : α → Option β} {newline : α} (none : f newline = none)
    (xs : List α) : (lines newline xs).filterMap f = xs.filterMap f := by
  induction xs with
  | nil => rfl
  | cons x xs ih =>
    have split : lines newline (x :: xs) = [x, newline] ++ lines newline xs := List.flatMap_cons
    rw [split, List.filterMap_append, ih]
    cases h : f x <;> simp [h, none]

theorem Entity.Writable.entity_block {e : Entity} (h : e.Writable) : e.block.entity = e := by
  have lined : e.fields.map (·.line.field) = e.fields :=
    (List.map_congr_left fun f hf => (h.fields f hf).field_line).trans (List.map_id _)
  have fields : EntityBlock.fields e.block.body = e.fields := by
    rw [EntityBlock.fields, Entity.block, List.filterMap_cons_none rfl, filterMap_lines rfl]
    simpa [BodyItem.field?, Function.comp_def] using lined
  rw [EntityBlock.entity, fields]
  simp [Entity.block, pairs_metadataBlock]

theorem Schema.Writable.entities_items {s : Schema} (h : s.Writable) :
    s.items.filterMap (·.entity?) = s.entities := by
  have written : s.entities.map (·.block.entity) = s.entities :=
    (List.map_congr_left fun e he => (h.entities e he).entity_block).trans (List.map_id _)
  have others : s.relationships.filterMap (fun _ => (none : Option Entity)) = [] :=
    List.filterMap_eq_nil_iff.mpr fun _ _ => rfl
  rw [Schema.items, filterMap_lines rfl]
  simpa [SourceItem.entity?, Function.comp_def, others] using written

theorem Schema.relationships_items (s : Schema) :
    s.items.filterMap (·.relationship?) = s.relationships := by
  have written : s.relationships.map (·.line.relationship) = s.relationships := List.map_id _
  have others : s.entities.filterMap (fun _ => (none : Option Relationship)) = [] :=
    List.filterMap_eq_nil_iff.mpr fun _ _ => rfl
  rw [Schema.items, filterMap_lines rfl]
  simpa [SourceItem.relationship?, Function.comp_def, others] using written

theorem followed_lines {α : Type} {ok : α → Option α → Prop} {newline : α}
    (each : ∀ x, ok x (some newline)) (free : ∀ next, ok newline next) (xs : List α) :
    Followed ok (lines newline xs) := by
  induction xs with
  | nil => trivial
  | cons x xs ih => exact ⟨each x, free _, ih⟩

theorem mem_lines {α : Type} {x newline : α} {xs : List α} (h : x ∈ lines newline xs) :
    x ∈ xs ∨ x = newline := by
  obtain ⟨y, hy, hx⟩ := List.mem_flatMap.mp h
  rcases List.mem_cons.mp hx with rfl | hx
  · exact .inl hy
  · exact .inr (List.mem_singleton.mp hx)

theorem fits_metadataItems (items : List (String × String)) :
    Followed MetadataItem.Separated (metadataItems items) ∧
      ∀ m ∈ metadataItems items, m.Fits := by
  fun_induction metadataItems items with
  | case1 => exact ⟨trivial, by simp⟩
  | case2 k v => exact ⟨⟨.inr rfl, trivial⟩, by simp [MetadataItem.Fits]⟩
  | case3 k v item items ih =>
    refine ⟨⟨.inl rfl, ih.1⟩, ?_⟩
    intro m hm
    rcases List.mem_cons.mp hm with rfl | hm
    · simp [MetadataItem.Fits]
    · exact ih.2 m hm

theorem Entity.metadataFits (e : Entity) : EntityBlock.MetadataFits e.block.metadata := by
  intro items h
  have block : metadataBlock e.metadata = some items := h
  unfold metadataBlock at block
  split at block
  · cases block
  · cases block
    exact fits_metadataItems _

theorem Field.lineFits (f : Field) : (BodyItem.field f.line).Fits := by
  unfold BodyItem.Fits TypeName.ArgumentsFit
  cases h : (RawType.ofText f.rawType).arguments <;> simp [Field.line, RawType.typeName, h]

theorem Entity.bodyFits (e : Entity) : EntityBlock.BodyFits e.block.body := by
  refine ⟨⟨trivial, ?_⟩, ?_⟩
  · apply followed_lines
    · intro i
      cases i <;> simp [BodyItem.Separated]
    · intro next
      trivial
  · intro i hi
    rcases List.mem_cons.mp hi with rfl | hi
    · trivial
    rcases mem_lines hi with hi | rfl
    · obtain ⟨f, -, rfl⟩ := List.mem_map.mp hi
      exact f.lineFits
    · trivial

theorem Schema.itemsFit (s : Schema) : ∀ i ∈ s.items, i.Fits := by
  intro i hi
  rcases mem_lines hi with hi | rfl
  · rcases List.mem_append.mp hi with hi | hi
    · obtain ⟨e, -, rfl⟩ := List.mem_map.mp hi
      exact ⟨e.metadataFits, e.bodyFits⟩
    · obtain ⟨r, -, rfl⟩ := List.mem_map.mp hi
      trivial
  · trivial

theorem Schema.itemsSeparated (s : Schema) : Followed SourceItem.Separated s.items := by
  apply followed_lines
  · intro i
    cases i <;> simp [SourceItem.Separated]
  · intro next
    trivial

theorem eraseDups_of_nodup {α : Type} [BEq α] [LawfulBEq α] {xs : List α} (h : xs.Nodup) :
    xs.eraseDups = xs := by
  induction xs with
  | nil => rfl
  | cons x xs ih =>
    obtain ⟨fresh, distinct⟩ := List.nodup_cons.mp h
    have kept : xs.filter (fun y => !y == x) = xs := by
      apply List.filter_eq_self.mpr
      intro y hy
      have apart : y ≠ x := fun same => fresh (same ▸ hy)
      simp [apart]
    rw [List.eraseDups_cons, kept, ih distinct]

theorem parse_source (s : Schema) (h : s.Writable) : parse s.source = ⟨s, []⟩ := by
  let src : Sentence.Source := ⟨s.items, s.itemsFit, s.itemsSeparated⟩
  have entities : src.entities = s.entities := h.entities_items
  have relationships : src.relationships = s.relationships := s.relationships_items
  have unique : src.NoRepeats := by
    constructor
    · rw [entities]
      exact h.distinctEntities
    · rw [entities]
      exact fun e he => (h.entities e he).distinct
  have sentence : src.tokens = (tokenize s.source).map (·.token) := by
    obtain ⟨m, run⟩ := h.yields 1 []
    rw [List.append_nil, Lexer.lexemes_nil] at run
    exact run.map_token.symm
  obtain ⟨clean, schema⟩ := parseTokens_complete unique sentence
  have denoted : src.schema = s := by
    rw [Sentence.Source.schema, entities, relationships, eraseDups_of_nodup h.distinctRelationships]
  rw [denoted] at schema
  calc parse s.source = ⟨(parse s.source).schema, (parse s.source).errors⟩ := rfl
    _ = ⟨s, []⟩ := by rw [parse, schema, clean]

def storefront : Schema where
  entities :=
    [⟨"orders", [⟨"id", .number, "int", true⟩, ⟨"total", .number, "decimal(10,2)", false⟩,
        ⟨"tags", .array, "varchar(')\n(')[]", false⟩], [("note", "it's\n[new]"), ("path", "a\\b")]⟩,
      ⟨"users", [⟨"id", .string, "uuid", true⟩], []⟩]
  relationships := [⟨"orders", "user_id", "users", "id"⟩]

theorem storefront_writable : storefront.Writable := by
  have id : Field.Writable ⟨"id", .number, "int", true⟩ :=
    ⟨by decide, ⟨⟨"int", none, false⟩, by decide, by decide⟩, by decide⟩
  have total : Field.Writable ⟨"total", .number, "decimal(10,2)", false⟩ :=
    ⟨by decide, ⟨⟨"decimal", some "10,2", false⟩, by decide, by decide⟩, by decide⟩
  have tags : Field.Writable ⟨"tags", .array, "varchar(')\n(')[]", false⟩ :=
    ⟨by decide, ⟨⟨"varchar", some "')\n('", true⟩, by decide, by decide⟩, by decide⟩
  have user : Field.Writable ⟨"id", .string, "uuid", true⟩ :=
    ⟨by decide, ⟨⟨"uuid", none, false⟩, by decide, by decide⟩, by decide⟩
  refine ⟨?_, by decide, ?_, by decide⟩
  · intro e he
    simp only [storefront, List.mem_cons, List.not_mem_nil, or_false] at he
    rcases he with rfl | rfl
    · exact ⟨by decide, by simp [id, total, tags], by decide, by decide⟩
    · exact ⟨by decide, by simp [user], by decide, by decide⟩
  · intro r hr
    rw [List.mem_singleton.mp hr]
    exact ⟨by decide, by decide, by decide, by decide⟩

theorem parse_storefront : parse storefront.source = ⟨storefront, []⟩ :=
  parse_source storefront storefront_writable

end QueryBuilder
