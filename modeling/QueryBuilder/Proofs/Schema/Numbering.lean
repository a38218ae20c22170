import QueryBuilder.Proofs.Schema.Recovery

set_option autoImplicit false

namespace QueryBuilder

-- The same tokens, whatever the numbers of their lines.
inductive SameTokens : List Lexeme → List Lexeme → Prop
  | nil : SameTokens [] []
  | cons {t : Token} {n k : Nat} {ls ks : List Lexeme} (rest : SameTokens ls ks) :
      SameTokens (⟨t, n⟩ :: ls) (⟨t, k⟩ :: ks)

namespace SameTokens

variable {ls ks rest : List Lexeme}

theorem map_token (same : SameTokens ls ks) : ls.map (·.token) = ks.map (·.token) := by
  induction same with
  | nil => rfl
  | cons _ ih => exact congrArg (List.cons _) ih

theorem of_map_token (same : ls.map (·.token) = ks.map (·.token)) : SameTokens ls ks := by
  induction ls generalizing ks with
  | nil =>
    cases List.map_eq_nil_iff.mp same.symm
    exact .nil
  | cons l ls ih =>
    obtain ⟨⟨t, n⟩, ks, rfl, ht, others⟩ := List.map_eq_cons_iff.mp same.symm
    obtain ⟨t', k⟩ := l
    cases ht
    exact .cons (ih others.symm)

theorem symm (same : SameTokens ls ks) : SameTokens ks ls := of_map_token same.map_token.symm

theorem spells {ts : List Token} (same : SameTokens ls ks) (run : Spells ts ls rest) :
    ∃ rest', Spells ts ks rest' ∧ SameTokens rest rest' := by
  obtain ⟨rest', run', others⟩ := Spells.of_map_token (same.map_token ▸ run.map_token)
  exact ⟨rest', run', of_map_token others.symm⟩

theorem peek (same : SameTokens ls ks) : Reader.peek ls = Reader.peek ks := by
  cases same <;> rfl

theorem span (same : SameTokens ls ks) {p : Lexeme → Bool}
    (byToken : ∀ t n k, p ⟨t, n⟩ = p ⟨t, k⟩) :
    SameTokens (ls.takeWhile p) (ks.takeWhile p) ∧
      SameTokens (ls.dropWhile p) (ks.dropWhile p) := by
  induction same with
  | nil => exact ⟨.nil, .nil⟩
  | @cons t n k ls ks rest ih =>
    have here := byToken t n k
    cases inside : p ⟨t, n⟩ with
    | true => simpa [inside, ← here] using ⟨.cons ih.1, ih.2⟩
    | false => simpa [inside, ← here] using ⟨.nil, .cons rest⟩

theorem dropBefore (same : SameTokens ls ks) (stops : List Token) :
    SameTokens (Reader.dropBefore stops ls) (Reader.dropBefore stops ks) :=
  (same.span fun _ _ _ => rfl).2

theorem textBefore (same : SameTokens ls ks) (stops : List Token) :
    Reader.textBefore stops ls = Reader.textBefore stops ks := by
  have texts (xs : List Lexeme) : xs.map (·.token.text) = (xs.map (·.token)).map Token.text := by
    simp [Function.comp_def]
  have taken := (same.span (p := (!Reader.isOneOf stops ·)) fun _ _ _ => rfl).1
  rw [Reader.textBefore, Reader.textBefore, texts, texts, taken.map_token]

theorem any (same : SameTokens ls ks) {p : Lexeme → Bool}
    (byToken : ∀ t n k, p ⟨t, n⟩ = p ⟨t, k⟩) : ls.any p = ks.any p := by
  induction same with
  | nil => rfl
  | @cons t n k ls ks rest ih => rw [List.any_cons, List.any_cons, ih, byToken t n k]

theorem startsDeclaration (same : SameTokens ls ks) :
    Reader.startsDeclaration ls = Reader.startsDeclaration ks := by
  cases same with
  | nil => rfl
  | @cons t n k ls ks rest =>
    cases rest with
    | nil => cases t <;> rfl
    | cons rest => cases t <;> rfl

end SameTokens

theorem sameTokens_lexemes (n k : Nat) (cs : List Char) :
    SameTokens (Lexer.lexemes n cs) (Lexer.lexemes k cs) := by
  fun_induction Lexer.lexemes n cs generalizing k with
  | case1 n cs bare =>
    rw [Lexer.lexemes_of_bare bare]
    exact .cons .nil
  | case2 n cs c rest here ih =>
    rw [Lexer.lexemes_of_skipBlanks here]
    exact .cons (ih _)

-- The same outcome, but for the numbers of the lines and for what is wrong.
inductive Reading.Alike {α : Type} : Reading α → Reading α → Prop
  | done {a : α} {ls ks : List Lexeme} (rest : SameTokens ls ks) : Alike (.done a ls) (.done a ks)
  | stuck {e f : ParseError} {ls ks : List Lexeme} (rest : SameTokens ls ks) :
      Alike (.stuck e ls) (.stuck f ks)

namespace Reading.Alike

variable {α : Type} {r : Reading α} {ls : List Lexeme}

theorem of_done {a : α} (alike : (Reading.done a ls).Alike r) :
    ∃ ks, r = .done a ks ∧ SameTokens ls ks := by
  cases alike with
  | done rest => exact ⟨_, rfl, rest⟩

theorem of_stuck {e : ParseError} (alike : (Reading.stuck e ls).Alike r) :
    ∃ f ks, r = .stuck f ks ∧ SameTokens ls ks := by
  cases alike with
  | stuck rest => exact ⟨_, _, rfl, rest⟩

end Reading.Alike

namespace Reader

variable {α β : Type} {ls ks rest : List Lexeme}

def ByTokens (p : Reader α) : Prop := ∀ ls ks, SameTokens ls ks → (p ls).Alike (p ks)

theorem byTokens_pure (a : α) : ByTokens (pure a : Reader α) := fun _ _ same => .done same

theorem byTokens_bind {p : Reader α} {f : α → Reader β} (hp : ByTokens p)
    (hf : ∀ a, ByTokens (f a)) : ByTokens (p >>= f) := by
  intro ls ks same
  have first := hp ls ks same
  show (bind p f ls).Alike (bind p f ks)
  unfold bind
  generalize p ls = x, p ks = y at first
  cases first with
  | done rest => exact hf _ _ _ rest
  | stuck rest => exact .stuck rest

theorem byTokens_name (expected : Expected) : ByTokens (name expected) := by
  intro ls ks same
  cases same with
  | nil => exact .stuck .nil
  | @cons t n k ls ks rest =>
    cases t with
    | ident s => exact .done rest
    | _ => exact .stuck (.cons rest)

theorem byTokens_before (ts : List Token) (expected : Expected) :
    ByTokens (before ts expected) := by
  intro ls ks same
  unfold before
  rw [same.peek]
  split
  · exact .done same
  · exact .stuck same

theorem byTokens_typeArguments : ByTokens typeArguments := by
  intro ls ks same
  cases same with
  | nil => exact .done .nil
  | @cons t n k ls ks rest =>
    cases t with
    | lparen =>
      have dropped := rest.dropBefore argumentEnds
      simp only [typeArguments, rest.textBefore argumentEnds]
      generalize dropBefore argumentEnds ls = xs, dropBefore argumentEnds ks = ys at dropped
      cases dropped with
      | nil => exact .stuck .nil
      | @cons t n k ls ks rest =>
        cases t with
        | rparen => exact .done rest
        | _ => exact .stuck (.cons rest)
    | _ => exact .done (.cons rest)

theorem byTokens_arraySuffix : ByTokens arraySuffix := by
  intro ls ks same
  cases same with
  | nil => exact .done .nil
  | @cons t n k ls ks rest =>
    cases t with
    | lbracket =>
      cases rest with
      | nil => exact .done (.cons .nil)
      | @cons t n k ls ks rest =>
        cases t with
        | rbracket => exact .done rest
        | _ => exact .done (.cons (.cons rest))
    | _ => exact .done (.cons rest)

theorem byTokens_modifiers : ByTokens modifiers := by
  intro ls ks same
  have words := same.span (p := isWord) fun t _ _ => by cases t <;> rfl
  unfold modifiers
  rw [words.1.any fun t _ _ => by cases t <;> rfl]
  exact .done words.2

theorem byTokens_field : ByTokens field :=
  byTokens_bind (byTokens_name _) fun _ =>
    byTokens_bind
      (byTokens_bind (byTokens_name _) fun _ =>
        byTokens_bind byTokens_typeArguments fun _ =>
          byTokens_bind byTokens_arraySuffix fun _ => byTokens_pure _)
      fun _ => byTokens_bind byTokens_modifiers fun _ =>
        byTokens_bind (byTokens_before _ _) fun _ => byTokens_pure _

theorem body_field {entity : String} {fields : List Field} {t : Token} {n : Nat}
    (skip : ¬(t = .newline ∨ t = .comma)) (close : t ≠ .rbrace)
    (stop : ¬(t = .eof ∨ startsDeclaration (⟨t, n⟩ :: ls))) :
    body entity fields (⟨t, n⟩ :: ls) =
      match field (⟨t, n⟩ :: ls) with
      | .done f after =>
        if fields.any (·.name = f.name) then
          (body entity fields after).report (.duplicateField n entity f.name)
        else body entity (fields ++ [f]) after
      | .stuck e after => (body entity fields (dropBefore fieldEnds after)).report e := by
  rw [body, if_neg skip, if_neg close, dif_neg stop]
  split <;> next h => rw [h]

theorem body_byTokens {entity : String} {fields : List Field} (same : SameTokens ls ks) :
    (body entity fields ls).fields = (body entity fields ks).fields ∧
      SameTokens (body entity fields ls).rest (body entity fields ks).rest := by
  fun_induction body entity fields ls generalizing ks with
  | case1 fields =>
    cases same
    simp [body, SameTokens.nil]
  | case2 fields l ls skip ih =>
    cases same with
    | cons rest =>
      rw [body, if_pos skip]
      exact ih rest
  | case3 fields l ls skip close =>
    cases same with
    | cons rest =>
      rw [body, if_neg skip, if_pos close]
      exact ⟨rfl, rest⟩
  | case4 fields l ls skip close stop =>
    rw [same.startsDeclaration] at stop
    cases same with
    | cons rest =>
      rw [body, if_neg skip, if_neg close, dif_pos stop]
      exact ⟨rfl, .cons rest⟩
  | case5 fields l ls skip close stop f after done repeated ih =>
    obtain ⟨after', done', behind⟩ := (done ▸ byTokens_field _ _ same).of_done
    rw [same.startsDeclaration] at stop
    cases same with
    | cons rest =>
      simp only [body_field skip close stop, done', if_pos repeated]
      exact ih behind
  | case6 fields l ls skip close stop f after done fresh ih =>
    obtain ⟨after', done', behind⟩ := (done ▸ byTokens_field _ _ same).of_done
    rw [same.startsDeclaration] at stop
    cases same with
    | cons rest =>
      simp only [body_field skip close stop, done', if_neg fresh]
      exact ih behind
  | case7 fields l ls skip close stop e after wrong ih =>
    obtain ⟨e', after', wrong', behind⟩ := (wrong ▸ byTokens_field _ _ same).of_stuck
    rw [same.startsDeclaration] at stop
    cases same with
    | cons rest =>
      simp only [body_field skip close stop, wrong']
      exact ih (behind.dropBefore fieldEnds)

end Reader

def Declaration.schema (d : Declaration) : Schema := ⟨d.entity?.toList, d.relationship?.toList⟩

namespace Reader

variable {α : Type} {ls ks rest : List Lexeme}

def Agree (x y : Declaration × List Lexeme) : Prop :=
  x.1.schema = y.1.schema ∧ SameTokens x.2 y.2

theorem declared_byTokens {p : Reader α} {f g : α → List Lexeme → Declaration × List Lexeme}
    (takes : ∀ {ls ks rest a}, SameTokens ls ks → p ls = .done a rest →
      ∃ rest', p ks = .done a rest' ∧ SameTokens rest rest')
    (stays : ∀ {ls rest e}, p ls = .stuck e rest →
      dropBefore lineEnds rest = dropBefore lineEnds ls)
    (goesOn : ∀ a {ls ks}, SameTokens ls ks → Agree (f a ls) (g a ks))
    (same : SameTokens ls ks) : Agree (declared f (p ls)) (declared g (p ks)) := by
  cases first : p ls with
  | done a rest =>
    obtain ⟨rest', second, behind⟩ := takes same first
    rw [second]
    exact goesOn a behind
  | stuck e rest =>
    cases second : p ks with
    | done a rest' =>
      obtain ⟨_, again, -⟩ := takes same.symm second
      rw [first] at again
      cases again
    | stuck e' rest' =>
      refine ⟨rfl, ?_⟩
      simp only [declared, stays first, stays second]
      exact same.dropBefore lineEnds

theorem relationship_byTokens (leftEntity : String) (same : SameTokens ls ks) :
    Agree (relationship leftEntity ls) (relationship leftEntity ks) := by
  refine declared_byTokens ?_ dropBefore_of_stuck_relationshipFrom ?_ same
  · intro ls ks rest r same done
    obtain ⟨line, left, made, run, stop⟩ := relationshipFrom_done.mp done
    obtain ⟨rest', run', behind⟩ := same.spells run
    exact ⟨rest', relationshipFrom_done.mpr ⟨line, left, made, run', behind.peek ▸ stop⟩, behind⟩
  · intro r ls ks same
    exact ⟨rfl, same⟩

theorem entity_byTokens (n k : Nat) (name : String) (same : SameTokens ls ks) :
    Agree (entity n name ls) (entity k name ks) := by
  refine declared_byTokens ?_ dropBefore_of_stuck_entityHead ?_ same
  · intro ls ks rest items same done
    obtain ⟨md, gap, fits, made, run⟩ := entityHead_done.mp done
    obtain ⟨rest', run', behind⟩ := same.spells run
    exact ⟨rest', entityHead_done.mpr ⟨md, gap, fits, made, run'⟩, behind⟩
  · intro items ls ks same
    obtain ⟨fields, behind⟩ := body_byTokens same
    refine ⟨?_, behind⟩
    simp [Declaration.schema, Declaration.entity?, Declaration.relationship?, fields]

theorem declaration_byTokens (same : SameTokens ls ks) :
    Agree (declaration ls) (declaration ks) := by
  cases same with
  | nil => exact ⟨rfl, .nil⟩
  | @cons t n k ls ks rest =>
    have whole : SameTokens (⟨t, n⟩ :: ls) (⟨t, k⟩ :: ks) := .cons rest
    cases t with
    | ident s =>
      simp only [declaration, rest.peek]
      split
      · exact relationship_byTokens s rest
      · exact entity_byTokens n k s rest
    | _ => exact ⟨rfl, whole.dropBefore lineEnds⟩

theorem declarations_byTokens (same : SameTokens ls ks) :
    (declarations ls).map (·.schema) = (declarations ks).map (·.schema) := by
  fun_induction declarations ls generalizing ks with
  | case1 => cases same; simp [declarations]
  | case2 l ls newline ih =>
    cases same with
    | cons rest =>
      rw [declarations, if_pos newline]
      exact ih rest
  | case3 l ls newline eof =>
    cases same with
    | cons rest => rw [declarations, if_neg newline, dif_pos eof]
  | case4 l ls newline eof ih =>
    obtain ⟨first, behind⟩ := declaration_byTokens same
    cases same with
    | cons rest =>
      rw [declarations, if_neg newline, dif_neg eof, List.map_cons, List.map_cons, first, ih behind]

end Reader

end QueryBuilder
