import QueryBuilder.Proofs.Schema.Acceptance

set_option autoImplicit false

namespace QueryBuilder

def beforeEnd (ls : List Lexeme) : List Lexeme := ls.takeWhile (·.token ≠ .eof)

-- What is left of `ls` when tokens are taken from its front, but no end token.
def Passes (ls rest : List Lexeme) : Prop :=
  ∃ taken, ls = taken ++ rest ∧ ∀ l ∈ taken, l.token ≠ .eof

def Consumes (ls rest : List Lexeme) : Prop :=
  ∃ taken, taken ≠ [] ∧ ls = taken ++ rest ∧ ∀ l ∈ taken, l.token ≠ .eof

section

variable {ls mid rest : List Lexeme} {l : Lexeme}

theorem length_beforeEnd_append {taken : List Lexeme} (inner : ∀ l ∈ taken, l.token ≠ .eof)
    (rest : List Lexeme) :
    (beforeEnd (taken ++ rest)).length = taken.length + (beforeEnd rest).length := by
  rw [beforeEnd, List.takeWhile_append_of_pos (by simpa using inner), List.length_append, beforeEnd]

theorem length_beforeEnd_cons (inner : l.token ≠ .eof) (ls : List Lexeme) :
    (beforeEnd (l :: ls)).length = (beforeEnd ls).length + 1 := by
  rw [beforeEnd, List.takeWhile_cons_of_pos (by simpa using inner), List.length_cons, beforeEnd]

namespace Passes

theorem refl (ls : List Lexeme) : Passes ls ls := ⟨[], rfl, by simp⟩

theorem trans (h : Passes ls mid) (h' : Passes mid rest) : Passes ls rest := by
  obtain ⟨front, rfl, hf⟩ := h
  obtain ⟨more, rfl, hm⟩ := h'
  exact ⟨front ++ more, (List.append_assoc _ _ _).symm, List.forall_mem_append.mpr ⟨hf, hm⟩⟩

theorem cons (inner : l.token ≠ .eof) (h : Passes ls rest) : Passes (l :: ls) rest := by
  obtain ⟨taken, rfl, ht⟩ := h
  exact ⟨l :: taken, rfl, List.forall_mem_cons.mpr ⟨inner, ht⟩⟩

theorem dropWhile {p : Lexeme → Bool} (stop : ∀ n, p ⟨.eof, n⟩ = false) (ls : List Lexeme) :
    Passes ls (ls.dropWhile p) := by
  refine ⟨ls.takeWhile p, List.takeWhile_append_dropWhile.symm, ?_⟩
  rintro ⟨t, n⟩ mem rfl
  have inside := List.all_eq_true.mp List.all_takeWhile _ mem
  rw [stop] at inside
  cases inside

theorem dropBefore {stops : List Token} (stop : .eof ∈ stops) (ls : List Lexeme) :
    Passes ls (Reader.dropBefore stops ls) :=
  dropWhile (fun n => by simp [Reader.isOneOf, stop]) ls

theorem mem (h : Passes ls rest) (hl : l ∈ rest) : l ∈ ls := by
  obtain ⟨taken, rfl, -⟩ := h
  exact List.mem_append_right _ hl

theorem length_beforeEnd_le (h : Passes ls rest) :
    (beforeEnd rest).length ≤ (beforeEnd ls).length := by
  obtain ⟨taken, rfl, inner⟩ := h
  rw [length_beforeEnd_append inner]
  exact Nat.le_add_left _ _

theorem consumes (h : Passes ls rest) (shorter : rest.length < ls.length) : Consumes ls rest := by
  obtain ⟨taken, rfl, inner⟩ := h
  refine ⟨taken, ?_, rfl, inner⟩
  rintro rfl
  exact Nat.lt_irrefl _ shorter

end Passes

namespace Consumes

theorem passes (h : Consumes ls rest) : Passes ls rest := by
  obtain ⟨taken, -, rest⟩ := h
  exact ⟨taken, rest⟩

theorem behind (h : Passes ls mid) (h' : Consumes mid rest) : Consumes ls rest := by
  obtain ⟨front, rfl, hf⟩ := h
  obtain ⟨taken, some, rfl, ht⟩ := h'
  exact ⟨front ++ taken, by simp [some], (List.append_assoc _ _ _).symm,
    List.forall_mem_append.mpr ⟨hf, ht⟩⟩

theorem cons (inner : l.token ≠ .eof) (h : Passes ls rest) : Consumes (l :: ls) rest := by
  obtain ⟨taken, rfl, ht⟩ := h
  exact ⟨l :: taken, List.cons_ne_nil _ _, rfl, List.forall_mem_cons.mpr ⟨inner, ht⟩⟩

theorem length_beforeEnd_lt (h : Consumes ls rest) :
    (beforeEnd rest).length < (beforeEnd ls).length := by
  obtain ⟨taken, some, rfl, inner⟩ := h
  have := List.length_pos_iff.mpr some
  rw [length_beforeEnd_append inner]
  omega

end Consumes

end

namespace Reader

variable {α β : Type} {ls rest : List Lexeme}

def Advances (p : Reader α) : Prop := ∀ ls, Passes ls (p ls).rest

theorem Advances.of_done {p : Reader α} (hp : Advances p) {a : α} (read : p ls = .done a rest) :
    Passes ls rest := by
  have passes := hp ls
  rwa [read] at passes

theorem Advances.of_stuck {p : Reader α} (hp : Advances p) {e : ParseError}
    (read : p ls = .stuck e rest) : Passes ls rest := by
  have passes := hp ls
  rwa [read] at passes

theorem advances_pure (a : α) : Advances (pure a : Reader α) := Passes.refl

theorem advances_bind {p : Reader α} {f : α → Reader β} (hp : Advances p)
    (hf : ∀ a, Advances (f a)) : Advances (p >>= f) := by
  intro ls
  show Passes ls (bind p f ls).rest
  unfold bind
  split
  · next a rest read => exact (hp.of_done read).trans (hf a rest)
  · next e rest read => exact hp.of_stuck read

theorem advances_name (expected : Expected) : Advances (name expected) := by
  intro ls
  unfold name
  split
  · exact .cons (by simp) (.refl _)
  · exact .refl _

theorem advances_symbol {t : Token} (inner : t ≠ .eof) (expected : Expected) :
    Advances (symbol t expected) := by
  intro ls
  unfold symbol
  split
  · next l rest =>
    split
    · next same => exact .cons (same ▸ inner) (.refl _)
    · exact .refl _
  · exact .refl _

theorem advances_before (ts : List Token) (expected : Expected) :
    Advances (before ts expected) := by
  intro ls
  unfold before
  split <;> exact .refl _

theorem advances_pointsLeft : Advances pointsLeft := by
  intro ls
  unfold pointsLeft
  split
  · exact .cons (by simp) (.refl _)
  · exact .cons (by simp) (.refl _)
  · exact .refl _

theorem advances_relationshipFrom (leftEntity : String) :
    Advances (relationshipFrom leftEntity) :=
  advances_bind (advances_symbol (by simp) _) fun _ =>
    advances_bind (advances_name _) fun _ =>
      advances_bind advances_pointsLeft fun _ =>
        advances_bind (advances_name _) fun _ =>
          advances_bind (advances_symbol (by simp) _) fun _ =>
            advances_bind (advances_name _) fun _ =>
              advances_bind (advances_before _ _) fun _ => advances_pure _

theorem consumes_value (s : String) (n k : Nat) (rest : List Lexeme) :
    Consumes (⟨.ident s, n⟩ :: ⟨.colon, k⟩ :: rest) (dropBefore valueEnds rest) :=
  .cons (by simp) (.cons (by simp) (.dropBefore (by simp [valueEnds]) rest))

theorem advances_metadataItems (items : List (String × String)) :
    Advances (metadataItems items) := by
  intro ls
  fun_induction metadataItems items ls with
  | case1 => exact .cons (by simp) (.refl _)
  | case2 items s n k rest item c after dropped ih =>
    have value := consumes_value s n k rest
    rw [dropped] at value
    exact value.passes.trans (.cons (by simp) ih)
  | case3 items s n k rest item c after dropped =>
    have value := consumes_value s n k rest
    rw [dropped] at value
    exact value.passes.trans (.cons (by simp) (.refl _))
  | case4 items s n k rest => exact (consumes_value s n k rest).passes
  | case5 => exact .cons (by simp) (.refl _)
  | case6 => exact .refl _

theorem advances_metadata : Advances metadata := by
  intro ls
  unfold metadata
  split
  · exact .cons (by simp) (advances_metadataItems [] _)
  · exact .refl _

theorem advances_openBrace : Advances openBrace := by
  intro ls
  have newlines := Passes.dropWhile (p := isOneOf [.newline]) (by simp [isOneOf]) ls
  unfold openBrace
  split
  · next dropped =>
    rw [dropped] at newlines
    exact newlines.trans (.cons (by simp) (.refl _))
  · exact .refl _

theorem advances_entityHead : Advances entityHead :=
  advances_bind advances_metadata fun _ =>
    advances_bind advances_openBrace fun _ => advances_pure _

theorem advances_typeArguments : Advances typeArguments := by
  intro ls
  unfold typeArguments
  split
  · next n rest =>
    have inside : Passes rest (dropBefore argumentEnds rest) :=
      .dropBefore (by simp [argumentEnds]) rest
    refine .cons (by simp) ?_
    split
    · next dropped =>
      rw [dropped] at inside
      exact inside.trans (.cons (by simp) (.refl _))
    · exact inside
  · exact .refl _

theorem advances_arraySuffix : Advances arraySuffix := by
  intro ls
  unfold arraySuffix
  split
  · exact .cons (by simp) (.cons (by simp) (.refl _))
  · exact .refl _

theorem advances_fieldType : Advances fieldType :=
  advances_bind (advances_name _) fun _ =>
    advances_bind advances_typeArguments fun _ =>
      advances_bind advances_arraySuffix fun _ => advances_pure _

theorem advances_modifiers : Advances modifiers := Passes.dropWhile fun _ => rfl

theorem advances_field : Advances field :=
  advances_bind (advances_name _) fun _ =>
    advances_bind advances_fieldType fun _ =>
      advances_bind advances_modifiers fun _ =>
        advances_bind (advances_before _ _) fun _ => advances_pure _

theorem consumes_field {l : Lexeme} (h : l.token ∉ fieldEnds) :
    (∀ f after, field (l :: ls) = .done f after → Consumes (l :: ls) after) ∧
      ∀ e after, field (l :: ls) = .stuck e after →
        Consumes (l :: ls) (dropBefore fieldEnds after) := by
  obtain ⟨done, stuck⟩ := length_field h ls
  constructor
  · intro f after read
    exact (advances_field.of_done read).consumes (Nat.lt_succ_of_le (done f after read))
  · intro e after read
    have skipped : Passes after (dropBefore fieldEnds after) :=
      .dropBefore (by simp [fieldEnds]) after
    exact ((advances_field.of_stuck read).trans skipped).consumes
      (Nat.lt_succ_of_le (stuck e after read))

theorem consumes_entityHead {m : List (String × String)} (read : entityHead ls = .done m rest) :
    Consumes ls rest := by
  refine (advances_entityHead.of_done read).consumes ?_
  obtain ⟨md, gap, -, -, front, rfl, tokens⟩ := entityHead_done.mp read
  have brace : front ≠ [] := by
    rintro rfl
    simp at tokens
  have := List.length_pos_iff.mpr brace
  rw [List.length_append]
  omega

theorem not_mem_fieldEnds {l : Lexeme} (skip : ¬(l.token = .newline ∨ l.token = .comma))
    (close : l.token ≠ .rbrace) (stop : ¬(l.token = .eof ∨ startsDeclaration (l :: ls))) :
    l.token ∉ fieldEnds := by
  simp_all [fieldEnds]

theorem passes_body (entity : String) (fields : List Field) (ls : List Lexeme) :
    Passes ls (body entity fields ls).rest := by
  fun_induction body entity fields ls with
  | case1 => exact .refl _
  | case2 fields l rest skip ih =>
    exact .cons (by rcases skip with same | same <;> simp [same]) ih
  | case3 fields l rest _ close => exact .cons (by simp [close]) (.refl _)
  | case4 => exact .refl _
  | case5 fields l rest skip close stop f after read _ ih =>
    have visible := not_mem_fieldEnds skip close stop
    exact ((consumes_field visible).1 f after read).passes.trans ih
  | case6 fields l rest skip close stop f after read _ ih =>
    have visible := not_mem_fieldEnds skip close stop
    exact ((consumes_field visible).1 f after read).passes.trans ih
  | case7 fields l rest skip close stop e after read ih =>
    have visible := not_mem_fieldEnds skip close stop
    exact ((consumes_field visible).2 e after read).passes.trans ih

theorem passes_dropLine {p : Reader α} (hp : Advances p) {e : ParseError}
    (read : p ls = .stuck e rest) : Passes ls (dropBefore lineEnds rest) :=
  (hp.of_stuck read).trans (.dropBefore (by simp [lineEnds]) rest)

theorem passes_relationship (leftEntity : String) (ls : List Lexeme) :
    Passes ls (relationship leftEntity ls).2 := by
  unfold relationship declared
  split
  · next read => exact (advances_relationshipFrom leftEntity).of_done read
  · next read => exact passes_dropLine (advances_relationshipFrom leftEntity) read

theorem passes_entity (line : Nat) (name : String) (ls : List Lexeme) :
    Passes ls (entity line name ls).2 := by
  unfold entity declared
  split
  · next read => exact (advances_entityHead.of_done read).trans (passes_body _ _ _)
  · next read => exact passes_dropLine advances_entityHead read

theorem passes_declaration (ls : List Lexeme) : Passes ls (declaration ls).2 := by
  unfold declaration
  split
  · split
    · exact .cons (by simp) (passes_relationship _ _)
    · exact .cons (by simp) (passes_entity _ _ _)
  · exact .dropBefore (by simp [lineEnds]) _

theorem consumes_declaration {l : Lexeme} (h : l.token ∉ lineEnds) (ls : List Lexeme) :
    Consumes (l :: ls) (declaration (l :: ls)).2 :=
  (passes_declaration _).consumes (Nat.lt_succ_of_le (length_declaration_le h ls))

end Reader

inductive Round (σ α : Type) where
  | leave (result : α)
  | again (state : σ) (rest : List Lexeme)

section

variable {σ α : Type}

def Round.finish (result : σ → List Lexeme → α) : Round σ α → α
  | .leave a => a
  | .again s rest => result s rest

def Round.Takes (ls : List Lexeme) : Round σ α → Prop
  | .leave _ => True
  | .again _ rest => Consumes ls rest

variable (round : σ → List Lexeme → Round σ α)

inductive Runs : σ → List Lexeme → Nat → α → Prop
  | leave {s : σ} {ls : List Lexeme} {a : α} (last : round s ls = .leave a) : Runs s ls 0 a
  | again {s s' : σ} {ls rest : List Lexeme} {n : Nat} {a : α} (here : round s ls = .again s' rest)
      (more : Runs s' rest n a) : Runs s ls (n + 1) a

/-- A round of the loop takes a token or is the last one. So the loop runs to its end, which is
`result`, in no more rounds than there are tokens. -/
structure Progresses (result : σ → List Lexeme → α) : Prop where
  consumes : ∀ s ls s' rest, round s ls = .again s' rest → Consumes ls rest
  ends : ∀ s ls, ∃ n ≤ (beforeEnd ls).length, Runs round s ls n (result s ls)

variable {round} {result : σ → List Lexeme → α}

theorem Progresses.of_finish (takes : ∀ s ls, (round s ls).Takes ls)
    (finish : ∀ s ls, (round s ls).finish result = result s ls) : Progresses round result := by
  have consumes : ∀ s ls s' rest, round s ls = .again s' rest → Consumes ls rest := by
    intro s ls s' rest here
    have taken := takes s ls
    rwa [here] at taken
  refine ⟨consumes, fun s ls => ?_⟩
  -- The tokens that are left are the measure.
  induction size : (beforeEnd ls).length using Nat.strongRecOn generalizing s ls with
  | ind size' ih =>
    subst size
    rw [← finish]
    cases here : round s ls with
    | leave a => exact ⟨0, Nat.zero_le _, .leave here⟩
    | again s' rest =>
      have fewer := (consumes s ls s' rest here).length_beforeEnd_lt
      obtain ⟨n, bound, runs⟩ := ih _ fewer s' rest rfl
      exact ⟨n + 1, by omega, .again here runs⟩

end

namespace Reader

def textRound (stops : List Token) (text : String) :
    List Lexeme → Round String (String × List Lexeme)
  | [] => .leave (text, [])
  | l :: rest =>
    if isOneOf stops l then .leave (text, l :: rest) else .again (text ++ l.token.text) rest

theorem textRound_progresses {stops : List Token} (stop : .eof ∈ stops) :
    Progresses (textRound stops) fun text ls =>
      (text ++ textBefore stops ls, dropBefore stops ls) := by
  apply Progresses.of_finish
  · intro text ls
    fun_cases textRound stops text ls with
    | case1 => trivial
    | case2 => trivial
    | case3 l rest inside =>
      refine .cons (fun last => inside ?_) (.refl _)
      simp [isOneOf, last, stop]
  · intro text ls
    fun_cases textRound stops text ls with
    | case1 => simp [Round.finish, textBefore, dropBefore]
    | case2 l rest stopped => simp [Round.finish, textBefore, dropBefore, stopped]
    | case3 l rest inside =>
      simp [Round.finish, textBefore, dropBefore, inside, String.append_assoc]

def metadataRound (items : List (String × String)) :
    List Lexeme → Round (List (String × String)) (Reading (List (String × String)))
  | ⟨.rbracket, _⟩ :: rest => .leave (.done items rest)
  | ⟨.ident key, _⟩ :: ⟨.colon, _⟩ :: rest =>
    let read := items ++ [(key, textBefore valueEnds rest)]
    match dropBefore valueEnds rest with
    | ⟨.comma, _⟩ :: after => .again read after
    | ⟨.rbracket, n⟩ :: after => .again read (⟨.rbracket, n⟩ :: after)
    | after => .leave (fail .closeBracket after)
  | ⟨.ident _, _⟩ :: rest => .leave (fail .colon rest)
  | ls => .leave (fail .metadataKey ls)

theorem metadataRound_progresses : Progresses metadataRound metadataItems := by
  apply Progresses.of_finish
  · intro items ls
    fun_cases metadataRound items ls with
    | case2 key n k inner _ _ after dropped =>
      have value := consumes_value key n k inner
      rw [dropped] at value
      exact .behind value.passes (.cons (by simp) (.refl _))
    | case3 key n k inner _ _ after dropped =>
      have value := consumes_value key n k inner
      rwa [dropped] at value
    | case1 | case4 | case5 | case6 => trivial
  · intro items ls
    fun_cases metadataItems items ls with
    | case1 => rfl
    | case2 key n k inner _ _ after dropped =>
      simp only [metadataRound, dropped]
      rfl
    | case3 key n k inner _ _ after dropped =>
      simp only [metadataRound, dropped, Round.finish]
      rw [metadataItems]
    | case4 key n k inner noComma noBracket =>
      simp only [metadataRound]
      rfl
    | case5 key n rest noColon =>
      rw [metadataRound]
      · rfl
      · exact noColon
    | case6 ls noBracket noPair noKey =>
      rw [metadataRound]
      · rfl
      all_goals assumption

def fieldRound (entity : String) (s : List Field × List ParseError) (ls : List Lexeme) :
    Round (List Field × List ParseError) Body :=
  match ls.dropWhile (isOneOf [.newline, .comma]) with
  | [] => .leave ⟨s.1, s.2 ++ [.unterminatedEntity 1 entity], []⟩
  | l :: rest =>
    if l.token = .rbrace then .leave ⟨s.1, s.2, rest⟩
    else if l.token = .eof ∨ startsDeclaration (l :: rest) then
      .leave ⟨s.1, s.2 ++ [.unterminatedEntity l.line entity], l :: rest⟩
    else
      match field (l :: rest) with
      | .done f after =>
        if s.1.any (·.name = f.name) then
          .again (s.1, s.2 ++ [.duplicateField l.line entity f.name]) after
        else .again (s.1 ++ [f], s.2) after
      | .stuck e after => .again (s.1, s.2 ++ [e]) (dropBefore fieldEnds after)

theorem body_dropWhile (entity : String) (fields : List Field) (ls : List Lexeme) :
    body entity fields (ls.dropWhile (isOneOf [.newline, .comma])) = body entity fields ls := by
  induction ls with
  | nil => rfl
  | cons l ls ih =>
    by_cases skip : l.token = .newline ∨ l.token = .comma
    · rw [List.dropWhile_cons_of_pos (by simpa [isOneOf] using skip), ih, body, if_pos skip]
    · rw [List.dropWhile_cons_of_neg (by simpa [isOneOf] using skip)]

theorem head_dropWhile {stops : List Token} {ls rest : List Lexeme} {l : Lexeme}
    (dropped : ls.dropWhile (isOneOf stops) = l :: rest) : l.token ∉ stops := by
  have first := List.head?_dropWhile_not (isOneOf stops) ls
  rw [dropped] at first
  simpa [isOneOf] using first

def Body.behind (errors : List ParseError) (b : Body) : Body :=
  { b with errors := errors ++ b.errors }

theorem fieldRound_progresses (entity : String) :
    Progresses (fieldRound entity) fun s ls => (body entity s.1 ls).behind s.2 := by
  apply Progresses.of_finish
  · intro s ls
    have skipped := Passes.dropWhile (p := isOneOf [.newline, .comma]) (by simp [isOneOf]) ls
    fun_cases fieldRound entity s ls with
    | case1 | case2 | case3 => trivial
    | case4 l rest dropped close stop f after read repeated =>
      have visible := not_mem_fieldEnds (by simpa using head_dropWhile dropped) close stop
      exact .behind (dropped ▸ skipped) ((consumes_field visible).1 f after read)
    | case5 l rest dropped close stop f after read fresh =>
      have visible := not_mem_fieldEnds (by simpa using head_dropWhile dropped) close stop
      exact .behind (dropped ▸ skipped) ((consumes_field visible).1 f after read)
    | case6 l rest dropped close stop e after read =>
      have visible := not_mem_fieldEnds (by simpa using head_dropWhile dropped) close stop
      exact .behind (dropped ▸ skipped) ((consumes_field visible).2 e after read)
  · intro s ls
    have skipped := body_dropWhile entity s.1 ls
    unfold fieldRound
    generalize dropped : ls.dropWhile (isOneOf [.newline, .comma]) = inner at skipped ⊢
    rw [← skipped]
    fun_cases body entity s.1 inner with
    | case1 => rfl
    | case2 l rest skip => exact absurd (by simpa using skip) (head_dropWhile dropped)
    | case3 l rest skip close => simp [close, Round.finish, Body.behind]
    | case4 l rest skip close stop => simp [close, stop, Round.finish, Body.behind]
    | case5 l rest skip close stop f after read repeated =>
      simp only [if_neg close, if_neg stop, read, if_pos repeated]
      simp [Round.finish, Body.behind, Body.report]
    | case6 l rest skip close stop f after read fresh =>
      simp only [if_neg close, if_neg stop, read, if_neg fresh]
      simp [Round.finish, Body.behind]
    | case7 l rest skip close stop e after read =>
      simp only [if_neg close, if_neg stop, read]
      simp [Round.finish, Body.behind, Body.report]

def declarationRound (p : Parsed) (ls : List Lexeme) : Round Parsed Parsed :=
  match ls.dropWhile (isOneOf [.newline]) with
  | [] => .leave p
  | l :: rest =>
    if l.token = .eof then .leave p
    else .again (p.add (declaration (l :: rest)).1) (declaration (l :: rest)).2

theorem declarations_dropWhile (ls : List Lexeme) :
    declarations (ls.dropWhile (isOneOf [.newline])) = declarations ls := by
  induction ls with
  | nil => rfl
  | cons l ls ih =>
    by_cases newline : l.token = .newline
    · rw [List.dropWhile_cons_of_pos (by simpa [isOneOf] using newline), ih, declarations,
        if_pos newline]
    · rw [List.dropWhile_cons_of_neg (by simpa [isOneOf] using newline)]

theorem declarationRound_progresses :
    Progresses declarationRound fun p ls => (declarations ls).foldl Parsed.add p := by
  apply Progresses.of_finish
  · intro p ls
    have skipped := Passes.dropWhile (p := isOneOf [.newline]) (by simp [isOneOf]) ls
    fun_cases declarationRound p ls with
    | case1 | case2 => trivial
    | case3 l rest dropped stop =>
      have visible : l.token ∉ lineEnds := by
        simpa [lineEnds, stop] using head_dropWhile dropped
      exact .behind (dropped ▸ skipped) (consumes_declaration visible rest)
  · intro p ls
    have skip := declarations_dropWhile ls
    unfold declarationRound
    cases dropped : ls.dropWhile (isOneOf [.newline]) with
    | nil =>
      rw [← skip, dropped, declarations]
      rfl
    | cons l rest =>
      have visible := head_dropWhile dropped
      rw [← skip, dropped, declarations, if_neg (by simpa using visible)]
      by_cases stop : l.token = .eof
      · simp [stop, Round.finish]
      · simp [stop, Round.finish]

end Reader

namespace Declaration

def size : Declaration → Nat
  | .relationship _ => 1
  | .entity _ _ errors => errors.length + 1
  | .malformed _ => 1

end Declaration

namespace Parsed

def size (p : Parsed) : Nat :=
  p.schema.entities.length + p.schema.relationships.length + p.errors.length

theorem size_add_le (p : Parsed) (d : Declaration) : (p.add d).size ≤ p.size + d.size := by
  cases d with
  | relationship r =>
    rw [add, addRelationship]
    split
    · exact Nat.le_add_right _ _
    · simp only [size, Declaration.size, List.length_append, List.length_singleton]
      omega
  | malformed e =>
    simp only [add, report, size, Declaration.size, List.length_append, List.length_singleton]
    omega
  | entity line e errors =>
    rw [add, addEntity]
    split
    · simp only [report, size, Declaration.size, List.length_append, List.length_singleton]
      omega
    · simp only [report, size, Declaration.size, List.length_append, List.length_singleton]
      omega

end Parsed

namespace Reader

variable {ls rest : List Lexeme}

theorem errors_body_le (entity : String) (fields : List Field) (ls : List Lexeme) :
    (body entity fields ls).errors.length + (beforeEnd (body entity fields ls).rest).length ≤
      (beforeEnd ls).length + 1 := by
  fun_induction body entity fields ls with
  | case1 => exact Nat.le_of_eq (Nat.add_comm _ _)
  | case2 fields l rest skip ih =>
    have inner : l.token ≠ .eof := by rcases skip with same | same <;> simp [same]
    rw [length_beforeEnd_cons inner]
    omega
  | case3 fields l rest skip close =>
    rw [length_beforeEnd_cons (by simp [close])]
    simp only [List.length_nil]
    omega
  | case4 fields l rest skip close stop =>
    simp only [List.length_cons, List.length_nil]
    omega
  | case5 fields l rest skip close stop f after read repeated ih =>
    have visible := not_mem_fieldEnds skip close stop
    have := ((consumes_field visible).1 f after read).length_beforeEnd_lt
    simp only [Body.report, List.length_cons]
    omega
  | case6 fields l rest skip close stop f after read fresh ih =>
    have visible := not_mem_fieldEnds skip close stop
    have := ((consumes_field visible).1 f after read).length_beforeEnd_lt
    omega
  | case7 fields l rest skip close stop e after read ih =>
    have visible := not_mem_fieldEnds skip close stop
    have := ((consumes_field visible).2 e after read).length_beforeEnd_lt
    simp only [Body.report, List.length_cons]
    omega

theorem size_relationship_le (leftEntity : String) (ls : List Lexeme) :
    (relationship leftEntity ls).1.size + (beforeEnd (relationship leftEntity ls).2).length ≤
      (beforeEnd ls).length + 1 := by
  have left := (passes_relationship leftEntity ls).length_beforeEnd_le
  have size : (relationship leftEntity ls).1.size = 1 := by
    unfold relationship declared
    split <;> rfl
  omega

theorem size_entity_le (line : Nat) (name : String) (ls : List Lexeme) :
    (entity line name ls).1.size + (beforeEnd (entity line name ls).2).length ≤
      (beforeEnd ls).length + 1 := by
  unfold entity declared
  split
  · next items inner read =>
    -- The opening brace stands for the closing one, should it be missing.
    have head := (consumes_entityHead read).length_beforeEnd_lt
    have inside := errors_body_le name [] inner
    simp only [Declaration.size]
    omega
  · next e rest read =>
    have left := (passes_dropLine advances_entityHead read).length_beforeEnd_le
    simp only [Declaration.size]
    omega

theorem size_declaration_le {l : Lexeme} (visible : l.token ∉ lineEnds) (ls : List Lexeme) :
    (declaration (l :: ls)).1.size + (beforeEnd (declaration (l :: ls)).2).length ≤
      (beforeEnd (l :: ls)).length := by
  have inner : l.token ≠ .eof := fun last => visible (by simp [last, lineEnds])
  rw [length_beforeEnd_cons inner]
  unfold declaration
  split
  · next s n rest same =>
    cases same
    split
    · exact size_relationship_le s ls
    · exact size_entity_le n s ls
  · have line : Passes ls (dropBefore lineEnds ls) := .dropBefore (by simp [lineEnds]) ls
    have left := line.length_beforeEnd_le
    rw [dropBefore_cons visible]
    simp only [Declaration.size]
    omega

theorem size_foldl_declarations_le (p : Parsed) (ls : List Lexeme) :
    ((declarations ls).foldl Parsed.add p).size ≤ p.size + (beforeEnd ls).length := by
  fun_induction declarations ls generalizing p with
  | case1 => exact Nat.le_add_right _ _
  | case2 l rest newline ih =>
    rw [length_beforeEnd_cons (by simp [newline])]
    exact Nat.le_succ_of_le (ih p)
  | case3 => exact Nat.le_add_right _ _
  | case4 l rest newline stop ih =>
    have first := p.size_add_le (declaration (l :: rest)).1
    have others := ih (p.add (declaration (l :: rest)).1)
    have taken := size_declaration_le (l := l) (by simp [lineEnds, newline, stop]) rest
    rw [List.foldl_cons]
    omega

end Reader

open Reader in
theorem parser_progresses :
    Progresses declarationRound (fun p ls => (declarations ls).foldl Parsed.add p) ∧
      (∀ entity, Progresses (fieldRound entity) fun s ls => (body entity s.1 ls).behind s.2) ∧
      Progresses metadataRound Reader.metadataItems ∧
      (Progresses (textRound valueEnds) fun text ls =>
        (text ++ textBefore valueEnds ls, dropBefore valueEnds ls)) ∧
      (Progresses (textRound argumentEnds) fun text ls =>
        (text ++ textBefore argumentEnds ls, dropBefore argumentEnds ls)) ∧
      ∀ ls, (parseTokens ls).schema.entities.length + (parseTokens ls).schema.relationships.length +
        (parseTokens ls).errors.length ≤ (beforeEnd ls).length := by
  refine ⟨declarationRound_progresses, fieldRound_progresses, metadataRound_progresses,
    textRound_progresses (by simp [valueEnds]), textRound_progresses (by simp [argumentEnds]), ?_⟩
  intro ls
  have bound := size_foldl_declarations_le .empty ls
  have nothing : Parsed.empty.size = 0 := rfl
  rwa [nothing, Nat.zero_add] at bound

end QueryBuilder
