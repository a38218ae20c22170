import QueryBuilder.Proofs.Schema.Lines
import QueryBuilder.Proofs.Schema.Numbering

set_option autoImplicit false

namespace QueryBuilder

open Sentence (RelationLine Source SourceItem)

theorem filter_fresh {α β : Type} [BEq β] [LawfulBEq β] (key : α → β) (xs ys zs : List α) :
    zs.filter (key · ∉ (xs ++ ys.filter (key · ∉ xs.map key)).map key) =
      (zs.filter (key · ∉ ys.map key)).filter (key · ∉ xs.map key) := by
  rw [List.filter_filter]
  refine List.filter_congr fun z _ => ?_
  rw [← Bool.decide_and, decide_eq_decide, List.map_append, List.mem_append, not_or]
  refine and_congr_right fun fresh => not_congr ?_
  constructor
  · intro present
    obtain ⟨y, hy, same⟩ := List.mem_map.mp present
    exact List.mem_map.mpr ⟨y, (List.mem_filter.mp hy).1, same⟩
  · intro present
    obtain ⟨y, hy, same⟩ := List.mem_map.mp present
    exact List.mem_map.mpr ⟨y, List.mem_filter.mpr ⟨hy, decide_eq_true (same ▸ fresh)⟩, same⟩

namespace Schema

-- Entities are the same when their names are.
def extend (s t : Schema) : Schema where
  entities := s.entities ++ t.entities.filter (·.name ∉ s.entities.map Entity.name)
  relationships := s.relationships ++ t.relationships.filter (· ∉ s.relationships)

theorem extend_empty (s : Schema) : s.extend .empty = s := by
  cases s
  simp [extend, empty]

theorem empty_extend (s : Schema) : empty.extend s = s := by
  cases s
  simp [extend, empty]

theorem extend_assoc (s t u : Schema) : (s.extend t).extend u = s.extend (t.extend u) := by
  have entities := filter_fresh Entity.name s.entities t.entities u.entities
  have relationships := filter_fresh id s.relationships t.relationships u.relationships
  simp only [List.map_id, id] at relationships
  simp only [extend, List.filter_append, ← entities, ← relationships, List.append_assoc]
  rfl

def chain (ss : List Schema) : Schema := ss.foldl extend .empty

theorem foldl_extend (s : Schema) (ss : List Schema) : ss.foldl extend s = s.extend (chain ss) := by
  induction ss generalizing s with
  | nil => exact (extend_empty s).symm
  | cons t ss ih => rw [chain, List.foldl_cons, List.foldl_cons, ih, ih, empty_extend, extend_assoc]

theorem chain_cons (s : Schema) (ss : List Schema) : chain (s :: ss) = s.extend (chain ss) := by
  rw [chain, List.foldl_cons, empty_extend, foldl_extend]

theorem chain_append (ss ts : List Schema) : chain (ss ++ ts) = (chain ss).extend (chain ts) := by
  rw [chain, List.foldl_append, foldl_extend]
  rfl

end Schema

open Schema (chain chain_append chain_cons)

namespace Parsed

theorem schema_add (p : Parsed) (d : Declaration) :
    (p.add d).schema = p.schema.extend d.schema := by
  cases d with
  | malformed e => exact p.schema.extend_empty.symm
  | relationship r =>
    simp only [add, addRelationship, Schema.extend, Declaration.schema, Declaration.entity?,
      Declaration.relationship?]
    split <;> next present => simp [present]
  | entity line e errors =>
    simp only [add, addEntity, Schema.extend, Declaration.schema, Declaration.entity?,
      Declaration.relationship?, isSome_entity?]
    split <;> next present => simp_all [report]

theorem schema_foldl_add (p : Parsed) (ds : List Declaration) :
    (ds.foldl add p).schema = p.schema.extend (chain (ds.map (·.schema))) := by
  induction ds generalizing p with
  | nil => exact p.schema.extend_empty.symm
  | cons d ds ih =>
    rw [List.foldl_cons, ih, schema_add, List.map_cons, chain_cons, Schema.extend_assoc]

theorem schema_foldl_add_empty (ds : List Declaration) :
    (ds.foldl add .empty).schema = chain (ds.map (·.schema)) :=
  (schema_foldl_add .empty ds).trans (Schema.empty_extend _)

end Parsed

section

variable {ls ks rest : List Lexeme}

theorem parseTokens_schema (ls : List Lexeme) :
    (parseTokens ls).schema = chain ((Reader.declarations ls).map (·.schema)) :=
  Parsed.schema_foldl_add_empty _

theorem SameTokens.parseTokens_schema (same : SameTokens ls ks) :
    (parseTokens ls).schema = (parseTokens ks).schema := by
  rw [QueryBuilder.parseTokens_schema, QueryBuilder.parseTokens_schema,
    Reader.declarations_byTokens same]

theorem parseTokens_schema_of_split {ds : List Declaration}
    (split : Reader.declarations ls = ds ++ Reader.declarations rest) :
    (parseTokens ls).schema = (chain (ds.map (·.schema))).extend (parseTokens rest).schema := by
  rw [parseTokens_schema, parseTokens_schema, split, List.map_append, chain_append]

theorem parseTokens_eof (n : Nat) : parseTokens [⟨.eof, n⟩] = .empty := by
  rw [parseTokens, Reader.declarations_eof, List.foldl_nil]

end

section

variable {a : String} {front : List Lexeme} {m : Nat}

theorem tokenize_append (lexed : Lexer.lexemes 1 a.toList = front ++ [⟨.eof, m⟩])
    (closed : Lexer.Closed a.toList front) (b : String) :
    tokenize (a ++ "\n" ++ b) = front ++ ⟨.newline, m⟩ :: Lexer.lexemes (m + 1) b.toList := by
  have characters : (a ++ "\n" ++ b).toList = a.toList ++ '\n' :: b.toList := by simp
  rw [tokenize, characters, Lexer.lexemes_append_newline lexed closed]

theorem schema_behind_newline (m : Nat) (b : String) :
    (parseTokens (⟨.newline, m⟩ :: Lexer.lexemes (m + 1) b.toList)).schema = parseSchema b := by
  have behind := (sameTokens_lexemes (m + 1) 1 b.toList).parseTokens_schema
  rwa [parseTokens, Reader.declarations, if_pos rfl]

end

-- The last token of a sentence is no string, so nothing is open behind it.
theorem closed_of_sentence {items : List SourceItem} {front : List Lexeme}
    (sentence : front.map (·.token) = items.flatMap (·.tokens)) (cs : List Char) :
    Lexer.Closed cs front := by
  intro _ l last v string
  obtain ⟨us, rfl⟩ := List.getLast?_eq_some_iff.mp last
  rcases List.eq_nil_or_concat items with rfl | ⟨others, i, rfl⟩
  · simp at sentence
  · obtain ⟨ts, t, tokens, -, word⟩ := Reader.last_tokens i
    rw [List.concat_eq_append, List.flatMap_append, List.flatMap_singleton, tokens,
      List.map_append, ← List.append_assoc] at sentence
    have same : [l.token] = [t] := List.append_inj_right' sentence rfl
    exact word v ((List.cons.inj same).1 ▸ string)

theorem Reader.RendersAll.chain_schema {ds : List Declaration} {src : Source}
    (renders : RendersAll ds src.items) (unique : src.NoRepeats) :
    chain (ds.map (·.schema)) = src.schema :=
  (Parsed.schema_foldl_add_empty ds).symm.trans (renders.foldl_add unique).2

theorem parse_append_of_valid (a b : String) (valid : (parse a).errors = []) :
    parseSchema (a ++ "\n" ++ b) = (parseSchema a).extend (parseSchema b) := by
  obtain ⟨src, unique, sentence⟩ := parseTokens_sound (terminated_lexemes 1 a.toList) valid
  obtain ⟨front, m, lexed, -⟩ := Lexer.exists_lexemes 1 a.toList
  have tokens : front.map (·.token) = src.items.flatMap (·.tokens) := by
    simpa [lexed, Source.tokens] using sentence.symm
  have run (rest : List Lexeme) :
      Spells (src.items.flatMap (·.tokens)) (front ++ rest) rest := ⟨front, rfl, tokens⟩
  obtain ⟨ds, split, renders⟩ := Reader.declarations_complete src.fits src.separated unique.fields
    (run (⟨.newline, m⟩ :: Lexer.lexemes (m + 1) b.toList)) (by simp [Reader.peek, Reader.lineEnds])
  have alone : parseSchema a = src.schema := (parseTokens_complete unique sentence).2
  rw [alone, parseSchema, parse, tokenize_append lexed (closed_of_sentence tokens _),
    parseTokens_schema_of_split split, renders.chain_schema unique, schema_behind_newline]

def stock : String := "items \x7b\nid int pk\n\x7d\norders.item > items.id"

-- An entity that is there already, one that is never closed, and an open string.
def unfinished : String := "items \x7b name string \x7d\norders \x7b\nitem int, 3\nx.y > 'z"

theorem parse_stock_unfinished :
    (parse stock).errors = [] ∧
      (parseSchema unfinished).entities.map (·.name) = ["items", "orders"] ∧
      parseSchema (stock ++ "\n" ++ unfinished) =
        (parseSchema stock).extend (parseSchema unfinished) :=
  ⟨by decide +kernel, by decide +kernel, parse_append_of_valid _ _ (by decide +kernel)⟩

theorem Reader.ReadsLine.schema_eq {ts : List Token} {x y : Declaration × List Lexeme}
    {ls ks : List Lexeme} (hx : ReadsLine ts ls x) (hy : ReadsLine ts ks y) :
    x.1.schema = y.1.schema := by
  have same : x.1.relationship? = y.1.relationship? :=
    Option.ext fun r => (hx.relationship r).trans (hy.relationship r).symm
  rw [Declaration.schema, Declaration.schema, hx.entity, hy.entity, same]

open Reader in
theorem exists_schema_of_line {line : List Lexeme} (inside : ∀ l ∈ line, l.token ∉ lineEnds)
    (unopened : ∀ l ∈ line, l.token ≠ .lbrace) :
    ∃ s : Schema, s.entities = [] ∧ ∀ rest, peek rest ∈ lineEnds →
      peek (rest.dropWhile (isOneOf [.newline])) ≠ .lbrace →
        (parseTokens (line ++ rest)).schema = s.extend (parseTokens rest).schema := by
  by_cases more : line = []
  · subst more
    exact ⟨.empty, rfl, fun rest _ _ => (Schema.empty_extend _).symm⟩
  have alone : ReadsLine (line.map (·.token)) [] (declaration (line ++ [])) :=
    declaration_line more inside unopened (by simp [peek, lineEnds]) (by simp [peek])
  rw [List.append_nil] at alone
  refine ⟨(declaration line).1.schema, ?_, fun rest stop apart => ?_⟩
  · simp [Declaration.schema, alone.entity]
  · have read := declaration_line more inside unopened stop apart
    obtain ⟨l, line, rfl⟩ := List.exists_cons_of_ne_nil more
    have visible := inside l List.mem_cons_self
    have split : declarations (l :: line ++ rest) =
        [(declaration (l :: line ++ rest)).1] ++ declarations rest := by
      rw [List.cons_append, declarations, if_neg fun h => visible (by simp [h, lineEnds]),
        dif_neg fun h => visible (by simp [h, lineEnds]), ← List.cons_append, read.rest]
      rfl
    rw [parseTokens_schema_of_split split, List.map_singleton, read.schema_eq alone, chain_cons,
      chain, List.foldl_nil, Schema.extend_empty]

theorem peek_dropWhile_newline {t : Token} (inner : t ≠ .eof) (ls : List Lexeme) :
    Reader.peek (ls.dropWhile (Reader.isOneOf [.newline])) = t ↔
      (ls.map (·.token)).find? (· ≠ .newline) = some t := by
  induction ls with
  | nil => simpa [Reader.peek] using inner.symm
  | cons l ls ih =>
    rw [List.map_cons]
    by_cases newline : l.token = .newline
    · rw [List.dropWhile_cons_of_pos (by simp [Reader.isOneOf, newline]),
        List.find?_cons_of_neg (by simp [newline])]
      exact ih
    · rw [List.dropWhile_cons_of_neg (by simp [Reader.isOneOf, newline]),
        List.find?_cons_of_pos (by simp [newline]), Option.some_inj]
      rfl

-- The tokens of such a line stay on it and open nothing.
theorem tokens_of_line {line : String} {front : List Lexeme} {m : Nat}
    (single : ∀ c ∈ line.toList, c ≠ '{' ∧ c ≠ '\n' ∧ c ≠ '\\')
    (lexed : Lexer.lexemes 1 line.toList = front ++ [⟨.eof, m⟩])
    (inner : ∀ l ∈ front, l.token ≠ .eof) :
    Lexer.Closed line.toList front ∧ (∀ l ∈ front, l.token ∉ Reader.lineEnds) ∧
      ∀ l ∈ front, l.token ≠ .lbrace := by
  have part : ∀ l ∈ front, l ∈ Lexer.lexemes 1 line.toList :=
    fun l hl => lexed ▸ List.mem_append_left _ hl
  have newlines := Lexer.token_ne_of_not_mem (n := 1) (c := '\n') rfl
    fun h => (single _ h).2.1 rfl
  have braces := Lexer.token_ne_of_not_mem (n := 1) (c := '{') rfl fun h => (single _ h).1 rfl
  refine ⟨fun last => ?_, fun l hl => ?_, fun l hl => braces l (part l hl)⟩
  · exact absurd rfl (single '\\' (List.mem_of_getLast? last)).2.2
  · simp [Reader.lineEnds, newlines l (part l hl), inner l hl]

theorem parse_append_of_line (line text : String)
    (single : ∀ c ∈ line.toList, c ≠ '{' ∧ c ≠ '\n' ∧ c ≠ '\\')
    (apart : ((tokenize text).map (·.token)).find? (· ≠ .newline) ≠ some .lbrace) :
    (parseSchema (line ++ "\n" ++ text)).entities = (parseSchema text).entities ∧
      (parseSchema (line ++ "\n" ++ text)).relationships =
        (parseSchema line).relationships ++
          (parseSchema text).relationships.filter (· ∉ (parseSchema line).relationships) := by
  obtain ⟨front, m, lexed, inner⟩ := Lexer.exists_lexemes 1 line.toList
  obtain ⟨closed, inside, unopened⟩ := tokens_of_line single lexed inner
  obtain ⟨s, entities, reads⟩ := exists_schema_of_line inside unopened
  have alone : parseSchema line = s := by
    rw [parseSchema, parse, tokenize, lexed, reads _ (Reader.eof_mem_lineEnds m) (by
      simp [Reader.peek, Reader.isOneOf]), parseTokens_eof]
    exact s.extend_empty
  have next : Reader.peek ((⟨.newline, m⟩ :: Lexer.lexemes (m + 1) text.toList).dropWhile
      (Reader.isOneOf [.newline])) ≠ .lbrace := by
    rw [List.dropWhile_cons_of_pos (by simp [Reader.isOneOf]), Ne,
      peek_dropWhile_newline (by simp), (sameTokens_lexemes (m + 1) 1 text.toList).map_token]
    exact apart
  have joined : parseSchema (line ++ "\n" ++ text) = s.extend (parseSchema text) := by
    rw [parseSchema, parse, tokenize_append lexed closed,
      reads _ (by simp [Reader.peek, Reader.lineEnds]) next, schema_behind_newline]
  rw [joined, alone]
  simp [Schema.extend, entities]

theorem parse_broken_stock :
    (∀ c ∈ "orders [a: 'b > items".toList, c ≠ '{' ∧ c ≠ '\n' ∧ c ≠ '\\') ∧
      ((tokenize stock).map (·.token)).find? (· ≠ .newline) ≠ some .lbrace ∧
      (parseSchema ("orders [a: 'b > items" ++ "\n" ++ stock)).entities =
        (parseSchema stock).entities := by
  have single : ∀ c ∈ "orders [a: 'b > items".toList, c ≠ '{' ∧ c ≠ '\n' ∧ c ≠ '\\' := by
    have plain : ("orders [a: 'b > items".toList.all fun c =>
        c != '{' && c != '\n' && c != '\\') = true := by decide +kernel
    intro c hc
    simpa [and_assoc] using List.all_eq_true.mp plain c hc
  have apart : ((tokenize stock).map (·.token)).find? (· ≠ .newline) ≠ some .lbrace := by
    decide +kernel
  exact ⟨single, apart, (parse_append_of_line _ _ single apart).1⟩

end QueryBuilder
