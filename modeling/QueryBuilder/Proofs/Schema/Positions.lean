import QueryBuilder.Proofs.Schema.Lines

set_option autoImplicit false

namespace QueryBuilder.Lexer

open Text

-- A token, the characters that it is read from, and the blanks and comments in front of them.
structure Piece where
  gap : List Char
  text : List Char
  token : Token

def Piece.source (p : Piece) : List Char := p.gap ++ p.text

def upTo (rest cs : List Char) : List Char := cs.take (cs.length - rest.length)

theorem upTo_eq {front rest cs : List Char} (split : cs = front ++ rest) :
    upTo rest cs = front := by
  simp [split, upTo]

theorem upTo_append {rest cs : List Char} (suffix : rest <:+ cs) : upTo rest cs ++ rest = cs := by
  obtain ⟨front, split⟩ := suffix
  rw [upTo_eq split.symm, split]

def pieces (cs : List Char) : List Piece :=
  match _h : skipBlanks cs with
  | [] => [⟨cs, [], .eof⟩]
  | c :: rest =>
    ⟨upTo (c :: rest) cs, c :: upTo (token c rest).2 rest, (token c rest).1⟩ ::
      pieces (token c rest).2
termination_by cs.length
decreasing_by
  have h₁ := length_skipBlanks_le cs
  have h₂ := length_token_le c rest
  rw [_h] at h₁
  simp only [List.length_cons] at h₁
  omega

theorem pieces_of_skipBlanks {cs rest : List Char} {c : Char} (h : skipBlanks cs = c :: rest) :
    pieces cs = ⟨upTo (c :: rest) cs, c :: upTo (token c rest).2 rest, (token c rest).1⟩ ::
      pieces (token c rest).2 := by
  conv => lhs; rw [pieces]
  split
  · next h' => rw [h] at h'; cases h'
  · next h' => rw [h] at h'; cases h'; rfl

theorem source_pieces (cs : List Char) : (pieces cs).flatMap (·.source) = cs := by
  fun_induction pieces cs with
  | case1 cs h => simp [Piece.source]
  | case2 cs c rest h ih =>
    have whole : upTo (c :: rest) cs ++ c :: rest = cs := upTo_append (h ▸ skipBlanks_suffix cs)
    have inner := upTo_append (token_suffix c rest)
    rw [List.flatMap_cons, ih, Piece.source, List.append_assoc, List.cons_append, inner, whole]

theorem terminated_pieces (cs : List Char) : Terminated ((pieces cs).map (·.token)) := by
  fun_induction pieces cs with
  | case1 cs h => simp [Terminated]
  | case2 cs c rest h ih => simpa [Terminated, token_ne_eof] using ih

def numbered (n : Nat) : List Piece → List Lexeme
  | [] => []
  | p :: ps => ⟨p.token, n⟩ :: numbered (if p.token = .newline then n + 1 else n) ps

def lineBehind (front : List Char) : Nat := front.count '\n' + 1

def located (front : List Char) : List Piece → List Lexeme
  | [] => []
  | p :: ps => ⟨p.token, lineBehind (front ++ p.gap)⟩ :: located (front ++ p.source) ps

theorem token_eq_newline (c : Char) (rest : List Char) :
    (token c rest).1 = .newline ↔ c = '\n' := by
  constructor
  · intro same
    exact eq_of_token (congrArg some same.symm)
  · rintro rfl
    rfl

theorem lexemes_eq_numbered (n : Nat) (cs : List Char) : lexemes n cs = numbered n (pieces cs) := by
  fun_induction pieces cs generalizing n with
  | case1 cs h => exact lexemes_of_bare h
  | case2 cs c rest h ih =>
    rw [lexemes_of_skipBlanks h, numbered, ih]
    simp only [token_eq_newline]

theorem lineBehind_append (front cs : List Char) :
    lineBehind (front ++ cs) = lineBehind front + cs.count '\n' := by
  simp only [lineBehind, List.count_append]
  omega

theorem map_token_located (front : List Char) (ps : List Piece) :
    (located front ps).map (·.token) = ps.map (·.token) := by
  induction ps generalizing front with
  | nil => rfl
  | cons p ps ih => exact congrArg (List.cons _) (ih _)

theorem exists_of_located {front : List Char} {ps : List Piece} {before after : List Lexeme}
    {l : Lexeme} (split : located front ps = before ++ l :: after) :
    ∃ qs p rs, ps = qs ++ p :: rs ∧ before.map (·.token) = qs.map (·.token) ∧
      after.map (·.token) = rs.map (·.token) ∧ l.token = p.token ∧
      l.line = lineBehind (front ++ (qs.flatMap (·.source) ++ p.gap)) := by
  induction before generalizing front ps with
  | nil =>
    cases ps with
    | nil => cases split
    | cons p ps =>
      obtain ⟨rfl, rfl⟩ := List.cons.inj split
      exact ⟨[], p, ps, rfl, rfl, map_token_located _ ps, rfl, rfl⟩
  | cons b before ih =>
    cases ps with
    | nil => cases split
    | cons q ps =>
      obtain ⟨rfl, others⟩ := List.cons.inj split
      obtain ⟨qs, p, rs, rfl, hb, ha, ht, hl⟩ := ih others
      refine ⟨q :: qs, p, rs, rfl, congrArg (List.cons _) hb, ha, ht, ?_⟩
      rw [hl, List.flatMap_cons]
      simp only [List.append_assoc]

theorem exists_span {p : Char → Bool} (stop : p '\n' = false) (cs : List Char) :
    ∃ front, cs = front ++ cs.dropWhile p ∧ '\n' ∉ front := by
  refine ⟨cs.takeWhile p, List.takeWhile_append_dropWhile.symm, fun mem => ?_⟩
  have inside := List.all_eq_true.mp (List.all_takeWhile (p := p) (l := cs)) _ mem
  rw [stop] at inside
  cases inside

theorem exists_gap (cs : List Char) : ∃ gap, cs = gap ++ skipBlanks cs ∧ '\n' ∉ gap := by
  fun_induction skipBlanks cs with
  | case1 rest =>
    obtain ⟨comment, split, none⟩ := exists_span (p := (· ≠ '\n')) (by simp) rest
    refine ⟨'/' :: '/' :: comment, congrArg (fun cs => '/' :: '/' :: cs) split, ?_⟩
    simpa using none
  | case2 c rest _ blank ih =>
    obtain ⟨gap, split, none⟩ := ih
    have inner : c ≠ '\n' := of_decide_eq_true (Bool.and_eq_true_iff.mp blank).1
    refine ⟨c :: gap, congrArg (List.cons c) split, ?_⟩
    exact List.not_mem_cons_of_ne_of_not_mem inner.symm none
  | case3 c rest => exact ⟨[], rfl, List.not_mem_nil⟩
  | case4 => exact ⟨[], rfl, List.not_mem_nil⟩

def escapedNewline : List Char := ['\\', '\n']

theorem newline_mem {cs : List Char} (escaped : escapedNewline <:+: cs) : '\n' ∈ cs :=
  escaped.subset (List.mem_cons_of_mem _ List.mem_cons_self)

theorem exists_quoted {quote : Char} (sign : quote ≠ '\n') (cs : List Char) :
    ∃ body, cs = body ++ (quoted quote cs).2 ∧ ('\n' ∈ body → escapedNewline <:+: body) := by
  fun_induction quoted quote cs with
  | case1 => exact ⟨[], rfl, by simp⟩
  | case2 => exact ⟨['\\'], rfl, by simp⟩
  | case3 c rest read ih =>
    obtain ⟨body, split, within⟩ := ih
    refine ⟨'\\' :: c :: body, congrArg (fun cs => '\\' :: c :: cs) split, fun mem => ?_⟩
    by_cases line : c = '\n'
    · subst line
      exact ⟨[], body, rfl⟩
    · have deeper : '\n' ∈ body := by simpa [Ne.symm line] using mem
      exact (within deeper).trans (List.suffix_append ['\\', c] body).isInfix
  | case4 rest => exact ⟨[], rfl, by simp⟩
  | case5 rest => exact ⟨[quote], rfl, fun mem => absurd (List.mem_singleton.mp mem).symm sign⟩
  | case6 c rest _ _ line _ read ih =>
    obtain ⟨body, split, within⟩ := ih
    refine ⟨c :: body, congrArg (List.cons c) split, fun mem => ?_⟩
    have deeper : '\n' ∈ body := by simpa [Ne.symm line] using mem
    exact (within deeper).trans (List.suffix_cons c body).isInfix

-- Such a string goes on behind the end of the line.
def Piece.RunsOn (p : Piece) : Prop := (∃ v, p.token = .str v) ∧ escapedNewline <:+: p.text

theorem not_runsOn {p : Piece} (other : ∀ v, p.token ≠ .str v) : ¬p.RunsOn := by
  rintro ⟨⟨v, string⟩, -⟩
  exact other v string

theorem not_runsOn_of_unescaped {cs : List Char} (free : ¬escapedNewline <:+: cs) :
    ∀ p ∈ pieces cs, ¬p.RunsOn := by
  rintro p mem ⟨-, escaped⟩
  obtain ⟨before, after, split⟩ := List.append_of_mem mem
  have whole := source_pieces cs
  rw [split, List.flatMap_append, List.flatMap_cons] at whole
  have piece : p.text <:+: cs := by
    refine ⟨before.flatMap (·.source) ++ p.gap, after.flatMap (·.source), ?_⟩
    simpa [Piece.source] using whole
  exact free (escaped.trans piece)

structure Piece.Bounded (p : Piece) : Prop where
  gap : '\n' ∉ p.gap
  newline : p.token = .newline → p.text = ['\n']
  inside : '\n' ∈ p.text → p.token = .newline ∨ p.RunsOn

theorem exists_token {c : Char} (visible : c ≠ '\n') (rest : List Char) :
    ∃ tail, rest = tail ++ (token c rest).2 ∧
      ('\n' ∈ tail → (∃ v, (token c rest).1 = .str v) ∧ escapedNewline <:+: tail) := by
  unfold token
  split
  · exact ⟨[], rfl, by simp⟩
  · split
    · obtain ⟨body, split, within⟩ := exists_quoted visible rest
      exact ⟨body, split, fun mem => ⟨⟨_, rfl⟩, within mem⟩⟩
    · split
      · obtain ⟨digits, split, none⟩ := exists_span (p := isDigit) (by decide) rest
        exact ⟨digits, split, fun mem => absurd mem none⟩
      · split
        · obtain ⟨word, split, none⟩ := exists_span (p := isWordPart) (by decide) rest
          exact ⟨word, split, fun mem => absurd mem none⟩
        · exact ⟨[], rfl, by simp⟩

theorem bounded_piece {cs rest : List Char} {c : Char} (h : skipBlanks cs = c :: rest) :
    Piece.Bounded ⟨upTo (c :: rest) cs, c :: upTo (token c rest).2 rest, (token c rest).1⟩ := by
  obtain ⟨gap, split, none⟩ := exists_gap cs
  rw [h] at split
  have apart : '\n' ∉ upTo (c :: rest) cs := upTo_eq split ▸ none
  by_cases line : c = '\n'
  · subst line
    have alone : upTo rest rest = [] := upTo_eq rfl
    exact ⟨apart, fun _ => congrArg (List.cons _) alone, fun _ => .inl rfl⟩
  · obtain ⟨tail, read, within⟩ := exists_token line rest
    refine ⟨apart, fun same => absurd ((token_eq_newline c rest).mp same) line, fun mem => .inr ?_⟩
    rw [upTo_eq read] at mem ⊢
    obtain ⟨string, escaped⟩ := within (by simpa [Ne.symm line] using mem)
    exact ⟨string, escaped.trans (List.suffix_cons c tail).isInfix⟩

theorem bounded_of_mem_pieces {cs : List Char} {p : Piece} (mem : p ∈ pieces cs) : p.Bounded := by
  fun_induction pieces cs with
  | case1 cs h =>
    obtain ⟨gap, split, none⟩ := exists_gap cs
    cases List.mem_singleton.mp mem
    rw [h, List.append_nil] at split
    refine ⟨split ▸ none, ?_, ?_⟩ <;> intro h <;> cases h
  | case2 cs c rest h ih =>
    rcases List.mem_cons.mp mem with rfl | mem
    · exact bounded_piece h
    · exact ih mem

theorem lineBehind_source {p : Piece} (bounded : p.Bounded) (front : List Char) :
    lineBehind (front ++ p.gap) = lineBehind front ∧
      lineBehind (front ++ p.source) = lineBehind front + p.text.count '\n' := by
  have none := List.count_eq_zero.mpr bounded.gap
  rw [Piece.source, lineBehind_append, lineBehind_append, List.count_append, none]
  omega

theorem lineBehind_eq_iff {p : Piece} (bounded : p.Bounded) {front : List Char} {n : Nat}
    (le : n ≤ lineBehind front) :
    let next := if p.token = .newline then n + 1 else n
    next ≤ lineBehind (front ++ p.source) ∧
      (next = lineBehind (front ++ p.source) ↔ n = lineBehind front ∧ ¬p.RunsOn) := by
  rw [(lineBehind_source bounded front).2]
  by_cases line : p.token = .newline
  · have settled : ¬p.RunsOn := not_runsOn (by simp [line])
    have one : List.count '\n' ['\n'] = 1 := rfl
    simp only [if_pos line, bounded.newline line, one, settled, not_false_eq_true, and_true]
    omega
  · simp only [if_neg line]
    by_cases runs : p.RunsOn
    · have more := List.count_pos_iff.mpr (newline_mem runs.2)
      simp only [runs, not_true_eq_false, and_false, iff_false]
      omega
    · have none : '\n' ∉ p.text := fun mem => (bounded.inside mem).elim line runs
      simp only [List.count_eq_zero.mpr none, runs, not_false_eq_true, and_true]
      omega

theorem numbered_eq_located_iff {ps : List Piece} (bounded : ∀ p ∈ ps, p.Bounded)
    (ends : Terminated (ps.map (·.token))) {front : List Char} {n : Nat}
    (le : n ≤ lineBehind front) :
    numbered n ps = located front ps ↔ n = lineBehind front ∧ ∀ p ∈ ps, ¬p.RunsOn := by
  -- The count never is ahead, so once it has fallen behind it is wrong up to the end of the text.
  induction ps generalizing front n with
  | nil => cases ends
  | cons p ps ih =>
    obtain ⟨here, others⟩ := List.forall_mem_cons.mp bounded
    obtain ⟨le', step⟩ := lineBehind_eq_iff here le
    have start := (lineBehind_source here front).1
    rw [numbered, located, start, List.cons.injEq, Lexeme.mk.injEq, List.forall_mem_cons]
    by_cases last : p.token = .eof
    · have settled : ¬p.RunsOn := not_runsOn (by simp [last])
      have alone : ps = [] := by simpa [Terminated, last] using ends
      simp [alone, numbered, located, settled]
    · rw [ih others (by simpa [Terminated, last] using ends) le', step]
      simp only [true_and, and_assoc, and_self_left]

theorem tokenize_eq_located_iff (source : String) :
    tokenize source = located [] (pieces source.toList) ↔
      ∀ p ∈ pieces source.toList, ¬p.RunsOn := by
  rw [tokenize, lexemes_eq_numbered]
  have first : 1 = lineBehind [] := rfl
  rw [numbered_eq_located_iff (fun p => bounded_of_mem_pieces) (terminated_pieces _)
    (Nat.le_of_eq first)]
  exact and_iff_right first

end QueryBuilder.Lexer
