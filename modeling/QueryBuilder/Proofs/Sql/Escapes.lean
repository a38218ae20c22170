import QueryBuilder.Proofs.Agreement.Filters
import QueryBuilder.Proofs.Sql.Quoting

set_option autoImplicit false

namespace QueryBuilder

namespace Sql

-- What a backslash and a character behind it stand for. A sign of patterns keeps its backslash,
-- which only a pattern looks at.
def escaped (c : Char) : List Char :=
  match c with
  | '0' => ['\x00']
  | 'b' => ['\x08']
  | 'n' => ['\n']
  | 'r' => ['\r']
  | 't' => ['\t']
  | 'Z' => ['\x1a']
  | '%' => ['\\', '%']
  | '_' => ['\\', '_']
  | _ => [c]

-- The text up to the quote that closes it, and what follows. Two quotes stand for one, and a
-- backslash escapes the character behind it.
def escapedQuoted? : List Char → Option (List Char × List Char)
  | [] => none
  | [c] => if c = '\'' then some ([], []) else none
  | c :: d :: rest =>
    if c = '\\' then (escapedQuoted? rest).map fun r => (escaped d ++ r.1, r.2)
    else if c = '\'' then
      if d = '\'' then (escapedQuoted? rest).map fun r => ('\'' :: r.1, r.2)
      else some ([], d :: rest)
    else (escapedQuoted? (d :: rest)).map fun r => (c :: r.1, r.2)

def escapedText? : List Char → Option (String × List Char)
  | [] => none
  | c :: rest =>
    if c = '\'' then (escapedQuoted? rest).map fun r => (String.ofList r.1, r.2) else none

def unescaped : List Char → List Char
  | [] => []
  | [c] => [c]
  | c :: d :: rest => if c = '\\' then escaped d ++ unescaped rest else c :: unescaped (d :: rest)

-- Whether no backslash, unless it is escaped itself, stands in front of a quote or at the end.
def staysQuoted : List Char → Bool
  | [] => true
  | [c] => c != '\\'
  | c :: d :: rest => if c = '\\' then d != '\'' && staysQuoted rest else staysQuoted (d :: rest)

-- Whether every backslash stands in front of a sign of patterns.
def staysVerbatim : List Char → Bool
  | [] => true
  | [c] => c != '\\'
  | c :: d :: rest =>
    if c = '\\' then (d == '%' || d == '_') && staysVerbatim rest else staysVerbatim (d :: rest)

section

variable {c : Char} {cs behind rest : List Char}

theorem escapedQuoted_escape (c : Char) (rest : List Char) :
    escapedQuoted? ('\\' :: c :: rest) =
      (escapedQuoted? rest).map fun r => (escaped c ++ r.1, r.2) := rfl

theorem escapedQuoted_pair (rest : List Char) :
    escapedQuoted? ('\'' :: '\'' :: rest) =
      (escapedQuoted? rest).map fun r => ('\'' :: r.1, r.2) := rfl

theorem escapedQuoted_close (other : rest.head? ≠ some '\'') :
    escapedQuoted? ('\'' :: rest) = some ([], rest) := by
  cases rest with
  | nil => rfl
  | cons d rest =>
    have different : d ≠ '\'' := by simpa using other
    simp [escapedQuoted?, different]

theorem escapedQuoted_other (slash : c ≠ '\\') (quote : c ≠ '\'') (rest : List Char) :
    escapedQuoted? (c :: rest) = (escapedQuoted? rest).map fun r => (c :: r.1, r.2) := by
  cases rest <;> simp [escapedQuoted?, slash, quote]

theorem exists_of_map {read : Option (List Char × List Char)} {f : List Char → List Char}
    {text left : List Char} (h : (read.map fun r => (f r.1, r.2)) = some (text, left)) :
    ∃ inner, read = some (inner, left) := by
  obtain ⟨r, same, equal⟩ := Option.map_eq_some_iff.mp h
  cases equal
  exact ⟨r.1, same⟩

theorem length_escapedQuoted {text left : List Char}
    (read : escapedQuoted? cs = some (text, left)) : left.length < cs.length := by
  fun_induction escapedQuoted? cs generalizing text with
  | case1 | case3 => cases read
  | case2 => cases read; exact Nat.one_pos
  | case4 d rest ih =>
    obtain ⟨_, inner⟩ := exists_of_map read
    exact Nat.lt_succ_of_lt (Nat.lt_succ_of_lt (ih inner))
  | case5 rest _ ih =>
    obtain ⟨_, inner⟩ := exists_of_map read
    exact Nat.lt_succ_of_lt (Nat.lt_succ_of_lt (ih inner))
  | case6 =>
    cases read
    exact Nat.lt_succ_self _
  | case7 c d rest _ _ ih =>
    obtain ⟨_, inner⟩ := exists_of_map read
    exact Nat.lt_succ_of_lt (ih inner)

theorem doubled_cons_of_ne (other : c ≠ '\'') (cs : List Char) :
    doubled '\'' (c :: cs) = c :: doubled '\'' cs := by
  simp [doubled, other]

theorem doubled_quote (cs : List Char) :
    doubled '\'' ('\'' :: cs) = '\'' :: '\'' :: doubled '\'' cs := by
  simp [doubled]

-- One quote ahead of its place, a reader ends too early or too late.
theorem escapedQuoted_shifted (cs behind text : List Char) :
    escapedQuoted? ('\'' :: (doubled '\'' cs ++ '\'' :: behind)) ≠ some (text, behind) := by
  intro read
  induction cs generalizing text with
  | nil =>
    obtain ⟨_, inner⟩ := exists_of_map read
    exact Nat.lt_irrefl _ (length_escapedQuoted inner)
  | cons c cs ih =>
    by_cases quote : c = '\''
    · rw [quote, doubled_quote, List.cons_append, escapedQuoted_pair] at read
      obtain ⟨_, inner⟩ := exists_of_map read
      exact ih _ inner
    · rw [doubled_cons_of_ne quote, List.cons_append,
        escapedQuoted_close (by simpa using quote)] at read
      have left := congrArg List.length (Prod.mk.inj (Option.some.inj read)).2
      simp only [List.length_cons, List.length_append] at left
      omega

theorem escapedQuoted_doubled (stays : staysQuoted cs = true)
    (other : behind.head? ≠ some '\'') :
    escapedQuoted? (doubled '\'' cs ++ '\'' :: behind) = some (unescaped cs, behind) := by
  fun_induction unescaped cs with
  | case1 => exact escapedQuoted_close other
  | case2 c =>
    have slash : c ≠ '\\' := by simpa [staysQuoted] using stays
    by_cases quote : c = '\''
    · rw [quote, doubled_quote, List.cons_append, List.cons_append, escapedQuoted_pair]
      simp [doubled, escapedQuoted_close other]
    · rw [doubled_cons_of_ne quote, List.cons_append, escapedQuoted_other slash quote]
      simp [doubled, escapedQuoted_close other]
  | case3 d rest ih =>
    obtain ⟨quote, stays⟩ : d ≠ '\'' ∧ staysQuoted rest = true := by
      simpa [staysQuoted] using stays
    rw [doubled_cons_of_ne (by decide), doubled_cons_of_ne quote, List.cons_append,
      List.cons_append, escapedQuoted_escape, ih stays, Option.map_some]
  | case4 c d rest slash ih =>
    have stays : staysQuoted (d :: rest) = true := by simpa [staysQuoted, slash] using stays
    by_cases quote : c = '\''
    · rw [quote, doubled_quote, List.cons_append, List.cons_append, escapedQuoted_pair, ih stays,
        Option.map_some]
    · rw [doubled_cons_of_ne quote, List.cons_append, escapedQuoted_other slash quote, ih stays,
        Option.map_some]

-- The induction follows the reader, up to the backslash that takes a quote away.
theorem staysQuoted_of_read {text : List Char}
    (read : escapedQuoted? (doubled '\'' cs ++ '\'' :: behind) = some (text, behind)) :
    staysQuoted cs = true := by
  fun_induction staysQuoted cs generalizing text with
  | case1 => rfl
  | case2 c =>
    rw [bne_iff_ne]
    rintro rfl
    obtain ⟨_, inner⟩ := exists_of_map read
    exact absurd (length_escapedQuoted inner) (Nat.lt_irrefl _)
  | case3 d rest ih =>
    rw [doubled_cons_of_ne (by decide), List.cons_append] at read
    by_cases quote : d = '\''
    · rw [quote, doubled_quote, List.cons_append, escapedQuoted_escape] at read
      obtain ⟨_, inner⟩ := exists_of_map read
      exact absurd inner (escapedQuoted_shifted _ _ _)
    · rw [doubled_cons_of_ne quote, List.cons_append, escapedQuoted_escape] at read
      obtain ⟨_, inner⟩ := exists_of_map read
      simpa [quote] using ih inner
  | case4 c d rest slash ih =>
    by_cases quote : c = '\''
    · rw [quote, doubled_quote, List.cons_append, List.cons_append, escapedQuoted_pair] at read
      obtain ⟨_, inner⟩ := exists_of_map read
      exact ih inner
    · rw [doubled_cons_of_ne quote, List.cons_append, escapedQuoted_other slash quote] at read
      obtain ⟨_, inner⟩ := exists_of_map read
      exact ih inner

theorem escaped_eq (c : Char) :
    (c = '%' ∨ c = '_') ∧ escaped c = ['\\', c] ∨
      (c ≠ '%' ∧ c ≠ '_') ∧ ∃ e, escaped c = [e] ∧ (e = '\\' → c = '\\') := by
  unfold escaped
  split
  case h_7 | h_8 => exact .inl ⟨by simp, rfl⟩
  case h_9 => exact .inr ⟨⟨by assumption, by assumption⟩, c, rfl, id⟩
  all_goals exact .inr ⟨by decide, _, rfl, by decide⟩

theorem length_unescaped (cs : List Char) : (unescaped cs).length ≤ cs.length := by
  fun_induction unescaped cs with
  | case1 | case2 => exact Nat.le_refl _
  | case3 d rest ih =>
    have short : (escaped d).length ≤ 2 := by
      rcases escaped_eq d with ⟨-, same⟩ | ⟨-, e, same, -⟩ <;> simp [same]
    simp only [List.length_append, List.length_cons]
    omega
  | case4 => simpa

theorem unescaped_eq_self_iff :
    staysQuoted cs = true ∧ unescaped cs = cs ↔ staysVerbatim cs = true := by
  fun_induction staysVerbatim cs with
  | case1 => simp [staysQuoted, unescaped]
  | case2 c => simp [staysQuoted, unescaped]
  | case3 d rest ih =>
    have quoted : staysQuoted ('\\' :: d :: rest) = (d != '\'' && staysQuoted rest) := rfl
    have read : unescaped ('\\' :: d :: rest) = escaped d ++ unescaped rest := rfl
    rw [quoted, read, Bool.and_eq_true, Bool.and_eq_true, ← ih]
    rcases escaped_eq d with ⟨sign, same⟩ | ⟨other, e, same, slash⟩
    · have quote : d ≠ '\'' := by rcases sign with rfl | rfl <;> decide
      simp [same, sign, quote]
    · -- What is read is shorter than the text, or begins with another character.
      suffices escaped d ++ unescaped rest ≠ '\\' :: d :: rest by simp [this, other]
      rw [same, List.singleton_append]
      intro equal
      obtain ⟨first, others⟩ := List.cons.inj equal
      have := length_unescaped rest
      rw [others, List.length_cons] at this
      omega
  | case4 c d rest slash ih =>
    rw [← ih]
    simp [staysQuoted, unescaped, slash]

theorem escapedText_stringLiteral (s : String) (rest : List Char) :
    escapedText? ((stringLiteral s).toList ++ rest) =
      (escapedQuoted? (doubled '\'' s.toList ++ '\'' :: rest)).map
        fun r => (String.ofList r.1, r.2) := by
  simp [stringLiteral, toList_enquote, escapedText?]

end

inductive Piece where
  | plain (text : String)
  | quoted (text : String)
  deriving DecidableEq

def Piece.text : Piece → String
  | .plain text => text
  | .quoted text => stringLiteral text

def Piece.quoted? : Piece → Option String
  | .plain _ => none
  | .quoted text => some text

def textOf (ps : List Piece) : String := String.join (ps.map Piece.text)

def quotedText? : Literal → Option String
  | .date raw _ => some raw
  | .text s => some s
  | .json v => some v.compact
  | .null | .bool _ | .int _ | .float _ => none

def literalPiece (l : Literal) : Piece :=
  match quotedText? l with
  | some text => .quoted text
  | none => .plain (literalText l)

def separated (separator : String) (parts : List (List Piece)) : List Piece :=
  [Piece.plain separator].intercalate parts

def Condition.pieces (d : Dialect) : Condition → List Piece
  | .compare t op value => [.plain (t.text d ++ " " ++ op.name ++ " "), literalPiece value]
  | .like t op pattern => [.plain (t.text d ++ " " ++ op.name ++ " "), .quoted pattern]
  | .among t op values =>
    .plain (t.text d ++ " " ++ op.name ++ " (") ::
      (separated ", " (values.map fun v => [literalPiece v]) ++ [.plain ")"])
  | .range t op low high =>
    [.plain (t.text d ++ " " ++ op.name ++ " "), literalPiece low, .plain " AND ",
      literalPiece high]
  | .test t op => [.plain (t.text d ++ " " ++ op.name)]
  | .subquery text => [.plain ("EXISTS (" ++ text ++ ")")]
  | .raw text => [.plain text]

def conditionsPieces (d : Dialect) (conditions : List Condition) : List Piece :=
  separated " AND " (conditions.map (·.pieces d))

def Clause.pieces (d : Dialect) : Clause → List Piece
  | .filter conditions => .plain "WHERE " :: conditionsPieces d conditions
  | .having conditions => .plain "HAVING " :: conditionsPieces d conditions
  | c => [.plain (c.text d)]

def Statement.pieces (d : Dialect) (pretty : Bool) (st : Statement) : List Piece :=
  separated (if pretty then "\n" else " ") (st.flatten.map (·.pieces d))

@[simp]
theorem Piece.text_plain (s : String) : (Piece.plain s).text = s := rfl

@[simp]
theorem Piece.text_quoted (s : String) : (Piece.quoted s).text = stringLiteral s := rfl

@[simp]
theorem text_literalPiece (l : Literal) : (literalPiece l).text = literalText l := by
  cases l <;> rfl

@[simp]
theorem textOf_nil : textOf [] = "" := rfl

@[simp]
theorem textOf_cons (p : Piece) (ps : List Piece) : textOf (p :: ps) = p.text ++ textOf ps := by
  simp [textOf]

@[simp]
theorem textOf_append (ps qs : List Piece) : textOf (ps ++ qs) = textOf ps ++ textOf qs := by
  simp [textOf]

@[simp]
theorem textOf_separated (separator : String) (parts : List (List Piece)) :
    textOf (separated separator parts) = separator.intercalate (parts.map textOf) := by
  unfold separated
  induction parts with
  | nil => rfl
  | cons ps parts ih =>
    cases parts with
    | nil => simp
    | cons qs parts => simp_all [String.append_assoc]

theorem Condition.textOf_pieces (d : Dialect) (c : Condition) :
    textOf (c.pieces d) = c.text d := by
  cases c <;> simp [pieces, text, commas, Function.comp_def, String.append_assoc]

@[simp]
theorem textOf_conditionsPieces (d : Dialect) (conditions : List Condition) :
    textOf (conditionsPieces d conditions) = conditionsText d conditions := by
  simp [conditionsPieces, conditionsText, Function.comp_def, Condition.textOf_pieces]

theorem Clause.textOf_pieces (d : Dialect) (c : Clause) : textOf (c.pieces d) = c.text d := by
  cases c <;> simp [pieces, text]

theorem Statement.textOf_pieces (d : Dialect) (pretty : Bool) (st : Statement) :
    textOf (st.pieces d pretty) = st.text d pretty := by
  simp [pieces, text, Function.comp_def, Clause.textOf_pieces]

def Apart : List Piece → Prop
  | [] => True
  | .plain _ :: ps => Apart ps
  | .quoted _ :: ps => (textOf ps).toList.head? ≠ some '\'' ∧ Apart ps

theorem Apart.behind {before after : List Piece} {text : String}
    (apart : Apart (before ++ .quoted text :: after)) :
    (textOf after).toList.head? ≠ some '\'' := by
  induction before with
  | nil => exact apart.1
  | cons p before ih =>
    cases p with
    | plain => exact ih apart
    | quoted => exact ih apart.2

theorem Apart.append {ps qs : List Piece} (front : Apart ps) (back : Apart qs)
    (other : (textOf qs).toList.head? ≠ some '\'') : Apart (ps ++ qs) := by
  induction ps with
  | nil => exact back
  | cons p ps ih =>
    cases p with
    | plain => exact ih front
    | quoted =>
      refine ⟨?_, ih front.2⟩
      show (textOf (ps ++ qs)).toList.head? ≠ some '\''
      rw [textOf_append, String.toList_append, List.head?_append]
      cases first : (textOf ps).toList.head? with
      | none => simpa using other
      | some c => simpa [first] using front.1

theorem apart_separated {separator : String} {parts : List (List Piece)}
    (other : ∃ c cs, separator.toList = c :: cs ∧ c ≠ '\'') (each : ∀ ps ∈ parts, Apart ps) :
    Apart (separated separator parts) := by
  obtain ⟨c, cs, written, other⟩ := other
  unfold separated
  induction parts with
  | nil => trivial
  | cons ps parts ih =>
    rw [List.forall_mem_cons] at each
    cases parts with
    | nil => simpa using each.1
    | cons qs parts =>
      rw [List.intercalate_cons_cons, List.append_assoc]
      exact each.1.append (ih each.2) (by simpa [written] using other)

theorem apart_literalPiece (l : Literal) : Apart [literalPiece l] := by
  cases l <;> simp [literalPiece, quotedText?, Apart]

theorem Condition.apart_pieces (d : Dialect) (c : Condition) : Apart (c.pieces d) := by
  cases c with
  | compare t op value => exact apart_literalPiece value
  | like => simp [pieces, Apart]
  | test | subquery | raw => trivial
  | range t op low high =>
    have behind : Apart [.plain " AND ", literalPiece high] := apart_literalPiece high
    exact (apart_literalPiece low).append behind (by simp)
  | among t op values =>
    have closing : Apart [.plain ")"] := trivial
    refine (apart_separated ⟨',', [' '], rfl, by decide⟩ ?_).append closing (by simp)
    intro ps mem
    obtain ⟨value, -, rfl⟩ := List.mem_map.mp mem
    exact apart_literalPiece value

theorem Clause.apart_pieces (d : Dialect) (c : Clause) : Apart (c.pieces d) := by
  have conditions (cs : List Condition) : Apart (conditionsPieces d cs) := by
    refine apart_separated ⟨' ', ['A', 'N', 'D', ' '], rfl, by decide⟩ ?_
    intro ps mem
    obtain ⟨c, -, rfl⟩ := List.mem_map.mp mem
    exact c.apart_pieces d
  cases c with
  | filter cs | having cs => exact conditions cs
  | _ => trivial

theorem Statement.apart_pieces (d : Dialect) (pretty : Bool) (st : Statement) :
    Apart (st.pieces d pretty) := by
  refine apart_separated ?_ ?_
  · cases pretty
    · exact ⟨' ', [], rfl, by decide⟩
    · exact ⟨'\n', [], rfl, by decide⟩
  · intro ps mem
    obtain ⟨c, -, rfl⟩ := List.mem_map.mp mem
    exact c.apart_pieces d

def quotedTexts (type : Option SemanticType) (p : Predicate) : List String :=
  if p.isComplete then
    match p.operator with
    | .eq | .notEq | .gt | .lt | .gte | .lte => (quotedText? (.ofRaw type p.value)).toList
    | .like | .notLike => [p.value]
    | .isIn | .notIn => p.items.filterMap fun v => quotedText? (.ofRaw type v)
    | .between | .notBetween =>
      [p.value, p.second?.getD ""].filterMap fun v => quotedText? (.ofRaw type v)
    | .isNull | .isNotNull | .exists => []
  else []

def filterTexts (s : Schema) (c : Column) : List String :=
  c.filter.toList.flatMap (quotedTexts (s.fieldType? c.key.entity c.key.field))

def havingTexts (s : Schema) (q : Query) (c : Column) : List String :=
  if c.selected && q.needsGrouping then
    c.accumulator?.toList.flatMap fun a => c.effectiveHaving?.toList.flatMap
      (quotedTexts (some (a.resultType (s.fieldType? c.key.entity c.key.field))))
  else []

def queryTexts (s : Schema) (q : Query) : List String :=
  q.columns.flatMap (filterTexts s) ++ q.columns.flatMap (havingTexts s q)

def quotedIn (ps : List Piece) : List String := ps.filterMap Piece.quoted?

@[simp]
theorem quotedIn_nil : quotedIn [] = [] := rfl

@[simp]
theorem quotedIn_plain (text : String) (ps : List Piece) :
    quotedIn (.plain text :: ps) = quotedIn ps := rfl

@[simp]
theorem quotedIn_quoted (text : String) (ps : List Piece) :
    quotedIn (.quoted text :: ps) = text :: quotedIn ps := rfl

@[simp]
theorem quotedIn_append (ps qs : List Piece) : quotedIn (ps ++ qs) = quotedIn ps ++ quotedIn qs :=
  List.filterMap_append

@[simp]
theorem quotedIn_separated (separator : String) (parts : List (List Piece)) :
    quotedIn (separated separator parts) = parts.flatMap quotedIn := by
  unfold separated
  induction parts with
  | nil => rfl
  | cons ps parts ih =>
    cases parts with
    | nil => simp
    | cons qs parts => simp_all

@[simp]
theorem quotedIn_literalPiece (l : Literal) (ps : List Piece) :
    quotedIn (literalPiece l :: ps) = (quotedText? l).toList ++ quotedIn ps := by
  cases l <;> rfl

theorem quotedIn_ofPredicate (d : Dialect) (t : Term) (p : Predicate)
    (type : Option SemanticType) :
    (Condition.ofPredicate? t p type).toList.flatMap (fun c => quotedIn (c.pieces d)) =
      quotedTexts type p := by
  have listed (values : List String) :
      values.flatMap (fun v => (quotedText? (.ofRaw type v)).toList) =
        values.filterMap fun v => quotedText? (.ofRaw type v) :=
    (List.filterMap_eq_flatMap_toList _ _).symm
  unfold Condition.ofPredicate? quotedTexts
  split
  · cases op : p.operator with
    | isIn | notIn => simp [Condition.pieces, List.flatMap_map, listed]
    | «exists» => by_cases empty : p.value = "" <;> simp [Condition.pieces, empty]
    | between | notBetween => simp [Condition.pieces, ← listed]
    | _ => simp [Condition.pieces]
  · rfl

section

variable {s : Schema} {d : Dialect} {q : Query}

theorem quotedIn_filters (s : Schema) (d : Dialect) (q : Query) :
    (filters s q).flatMap (fun c => quotedIn (c.pieces d)) =
      q.columns.flatMap (filterTexts s) := by
  have column (c : Column) :
      (columnFilter? s c).toList.flatMap (fun c => quotedIn (c.pieces d)) = filterTexts s c := by
    unfold columnFilter? filterTexts
    cases c.filter with
    | none => rfl
    | some p => simpa using quotedIn_ofPredicate d _ p _
  have columns : (q.columns.filterMap (columnFilter? s)).flatMap
      (fun c => quotedIn (c.pieces d)) = q.columns.flatMap (filterTexts s) := by
    rw [List.filterMap_eq_flatMap_toList, List.flatMap_assoc]
    exact List.flatMap_congr fun c _ => column c
  -- A condition of its own text has no values.
  unfold filters withCustom
  split
  · exact columns
  · split
    · next none =>
      rw [← columns, List.isEmpty_iff.mp none]
      rfl
    · rw [List.flatMap_append, columns]
      exact List.append_nil _

theorem quotedIn_havings (s : Schema) (d : Dialect) (q : Query) :
    (havings s q).flatMap (fun c => quotedIn (c.pieces d)) =
      q.columns.flatMap (havingTexts s q) := by
  have column (c : Column) :
      (columnHaving? s q c).toList.flatMap (fun c => quotedIn (c.pieces d)) =
        havingTexts s q c := by
    unfold columnHaving? havingTexts
    split
    · cases c.accumulator? with
      | none => rfl
      | some a =>
        cases c.effectiveHaving? with
        | none => rfl
        | some p => simpa using quotedIn_ofPredicate d _ p _
    · rfl
  rw [havings, List.filterMap_eq_flatMap_toList, List.flatMap_assoc]
  exact List.flatMap_congr fun c _ => column c

theorem quotedIn_clauses {clauses : List Clause} (h : clauses? s d q = some clauses) :
    quotedIn (clauses.flatMap (Clause.pieces d)) = queryTexts s q := by
  have quiet : ∀ c : Clause, c.isConditional = false → quotedIn (c.pieces d) = [] := by
    intro c other
    cases c <;> first | rfl | cases other
  have conditions (cs : List Condition) :
      quotedIn (conditionsPieces d cs) = cs.flatMap fun c => quotedIn (c.pieces d) := by
    simp [conditionsPieces, List.flatMap_map]
  have texts : quotedIn (clauses.flatMap (Clause.pieces d)) =
      clauses.flatMap fun c => quotedIn (c.pieces d) := List.filterMap_flatMap
  rw [texts, ← flatMap_filter_of_quiet quiet, conditional_clauses h, List.flatMap_append,
    flatMap_nonempty rfl, flatMap_nonempty rfl]
  simp only [Clause.pieces, quotedIn_plain, conditions, quotedIn_filters, quotedIn_havings,
    queryTexts]

theorem escapedText_iff {text : String} {behind : List Char}
    (other : behind.head? ≠ some '\'') :
    ((∃ read, escapedText? ((stringLiteral text).toList ++ behind) = some (read, behind)) ↔
        staysQuoted text.toList = true) ∧
      (escapedText? ((stringLiteral text).toList ++ behind) = some (text, behind) ↔
        staysVerbatim text.toList = true) := by
  rw [escapedText_stringLiteral]
  have stays {read : String}
      (found : (escapedQuoted? (doubled '\'' text.toList ++ '\'' :: behind)).map
        (fun r => (String.ofList r.1, r.2)) = some (read, behind)) :
      staysQuoted text.toList = true := by
    obtain ⟨r, inner, same⟩ := Option.map_eq_some_iff.mp found
    cases same
    exact staysQuoted_of_read inner
  constructor
  · constructor
    · rintro ⟨read, found⟩
      exact stays found
    · intro stays
      rw [escapedQuoted_doubled stays other]
      exact ⟨_, rfl⟩
  · rw [← unescaped_eq_self_iff]
    constructor
    · intro found
      refine ⟨stays found, ?_⟩
      rw [escapedQuoted_doubled (stays found) other] at found
      have same : String.ofList (unescaped text.toList) = text :=
        (Prod.mk.inj (Option.some.inj found)).1
      simpa using congrArg String.toList same
    · rintro ⟨stays, same⟩
      rw [escapedQuoted_doubled stays other, same, Option.map_some, String.ofList_toList]

theorem statement_keepsValues_iff {st : Statement} (h : statement? s .mysql q = some st)
    (pretty : Bool) :
    quotedIn (st.clauses.flatMap (Clause.pieces .mysql)) = queryTexts s q ∧
      (∀ o ∈ st.operands, ∃ set ∈ q.options.setOperations,
        statement? s .mysql set.query = some o.2.2) ∧
      textOf (st.pieces .mysql pretty) = compile s ⟨.mysql, pretty⟩ q ∧
      ∀ before text after, st.pieces .mysql pretty = before ++ .quoted text :: after →
        ((∃ read, escapedText? ((stringLiteral text).toList ++ (textOf after).toList) =
            some (read, (textOf after).toList)) ↔ staysQuoted text.toList = true) ∧
          (escapedText? ((stringLiteral text).toList ++ (textOf after).toList) =
            some (text, (textOf after).toList) ↔ staysVerbatim text.toList = true) := by
  obtain ⟨clauses, operands⟩ := statement_eq h
  refine ⟨quotedIn_clauses clauses, ?_, ?_, ?_⟩
  · rw [operands]
    exact fun o mem => mem_operands mem
  · rw [st.textOf_pieces, compile_of_statement h]
  · intro before text after split
    exact escapedText_iff (split ▸ st.apart_pieces .mysql pretty).behind

end

-- A quote, a sign of patterns that is escaped, and a backslash that is lost but does no harm.
def discounts : Query :=
  { columns :=
      [{ Column.ofKey ⟨"employees", "name"⟩ with
          filter := some ⟨.like, "O'Brien 5\\%", none⟩ },
        { Column.ofKey ⟨"employees", "path"⟩ with filter := some ⟨.isIn, "C:\\n, 7", none⟩ }]
    options := .default }

theorem discounts_keepsValues :
    queryTexts ⟨[], []⟩ discounts = ["O'Brien 5\\%", "C:\\n"] ∧
      ∃ st, statement? ⟨[], []⟩ .mysql discounts = some st ∧
        (∀ before after, st.pieces .mysql false = before ++ .quoted "O'Brien 5\\%" :: after →
          escapedText? ((stringLiteral "O'Brien 5\\%").toList ++ (textOf after).toList) =
            some ("O'Brien 5\\%", (textOf after).toList)) ∧
        ∀ before after, st.pieces .mysql false = before ++ .quoted "C:\\n" :: after →
          ∃ read, escapedText? ((stringLiteral "C:\\n").toList ++ (textOf after).toList) =
            some (read, (textOf after).toList) := by
  obtain ⟨st, h⟩ : ∃ st, statement? ⟨[], []⟩ .mysql discounts = some st :=
    exists_statement (by decide) (by decide)
  obtain ⟨-, -, -, each⟩ := statement_keepsValues_iff h false
  refine ⟨by decide +kernel, st, h, fun before after split => ?_, fun before after split => ?_⟩
  · exact (each before _ after split).2.mpr (by decide +kernel)
  · exact (each before _ after split).1.mpr (by decide +kernel)

-- The first value takes the quote behind it along, so that the second one is read as a condition.
def smuggled : Query :=
  { columns :=
      [{ Column.ofKey ⟨"employees", "name"⟩ with
          filter := some ⟨.isIn, "\\, ) OR 1=1 #", none⟩ }]
    options := .default }

theorem smuggled_leavesQuotes :
    compile ⟨[], []⟩ ⟨.mysql, false⟩ smuggled =
        "SELECT employees.name FROM employees WHERE employees.name IN ('\\', ') OR 1=1 #')" ∧
      ∃ st before after, statement? ⟨[], []⟩ .mysql smuggled = some st ∧
        st.pieces .mysql false = before ++ .quoted "\\" :: after ∧
        textOf after = ", ') OR 1=1 #')" ∧
        escapedText? ((stringLiteral "\\").toList ++ (textOf after).toList) =
          some ("', ", ") OR 1=1 #')".toList) ∧
        ¬∃ read, escapedText? ((stringLiteral "\\").toList ++ (textOf after).toList) =
          some (read, (textOf after).toList) := by
  have made : clauses? ⟨[], []⟩ .mysql smuggled =
      some [.select false [⟨.operand (.field ⟨"employees", "name"⟩), none⟩], .source "employees",
        .filter [.among (.operand (.field ⟨"employees", "name"⟩)) .isIn
          [.text "\\", .text ") OR 1=1 #"]]] :=
    clauses_alone rfl rfl (by simp [smuggled, Column.ofKey])
  have built := statement_of_clauses made
  have behind : textOf [.plain ", ", .quoted ") OR 1=1 #", .plain ")"] = ", ') OR 1=1 #')" := by
    decide +kernel
  have read : escapedText? ((stringLiteral "\\").toList ++ ", ') OR 1=1 #')".toList) =
      some ("', ", ") OR 1=1 #')".toList) := by
    decide +kernel
  refine ⟨?_, _, [.plain "SELECT employees.name", .plain " ", .plain "FROM employees", .plain " ",
    .plain "WHERE ", .plain "employees.name IN ("], [.plain ", ", .quoted ") OR 1=1 #",
    .plain ")"], built, ?_, behind, ?_, ?_⟩
  · rw [compile_of_statement built]
    decide +kernel
  · decide +kernel
  · rw [behind, read]
  · rw [behind, read]
    rintro ⟨_, same⟩
    exact absurd (Prod.mk.inj (Option.some.inj same)).2 (by decide +kernel)

end Sql

end QueryBuilder
