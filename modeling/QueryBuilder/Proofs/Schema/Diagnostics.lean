import QueryBuilder.Proofs.Schema.Positions
import QueryBuilder.Proofs.Schema.Recovery

set_option autoImplicit false

namespace QueryBuilder

open Sentence.EntityBlock (metadataTokens)

def Expected.Met (t : Token) : Expected → Prop
  | .declaration | .entityName | .fieldName | .fieldType => ∃ s, t = .ident s
  | .metadataKey => (∃ s, t = .ident s) ∨ t = .rbracket
  | .dot => t = .dot
  | .arrow => t = .gt ∨ t = .lt
  | .lineEnd => t ∈ Reader.lineEnds
  | .openBrace => t = .lbrace
  | .colon => t = .colon
  | .closeBracket => t = .rbracket ∨ t = .comma
  | .closeParen => t = .rparen
  | .fieldEnd => t ∈ Reader.fieldEnds

-- `seen` ends in the head of `entity` and what stands behind its brace, which is `inner`.
def Opened (seen : List Token) (entity : String) (inner : List Token) : Prop :=
  ∃ front metadata gap, seen = front ++ (Token.ident entity :: (metadataTokens metadata ++
    (List.replicate gap Token.newline ++ [Token.lbrace])) ++ inner)

theorem Opened.append {seen inner : List Token} {entity : String} (h : Opened seen entity inner)
    (ts : List Token) : Opened (seen ++ ts) entity (inner ++ ts) := by
  obtain ⟨front, metadata, gap, rfl⟩ := h
  exact ⟨front, metadata, gap, by simp⟩

/-- The error is about `t`, which stands behind `seen` and in front of `next`: the token that does
not belong there, the name that is there again, or the place where a brace is missing. -/
def ParseError.Concerns (seen : List Token) (t : Token) (next : List Token) : ParseError → Prop
  | .unexpected _ found expected => t = found ∧ ¬expected.Met t
  | .unterminatedEntity _ entity => (∃ inner, Opened seen entity inner) ∧
    (t = .eof ∨ (∃ s, t = .ident s) ∧ ∃ u ∈ next.head?, u ∈ [Token.lbrace, .lbracket, .dot])
  | .duplicateEntity _ entity => t = .ident entity ∧ ∃ inner, Opened seen entity inner
  | .duplicateField _ entity field =>
    t = .ident field ∧ ∃ inner, Opened seen entity inner ∧ Token.ident field ∈ inner

def ParseError.PointsInto (e : ParseError) (seen : List Token) (ls : List Lexeme) : Prop :=
  ∃ before l after, ls = before ++ l :: after ∧ l.line = e.line ∧
    e.Concerns (seen ++ before.map (·.token)) l.token (after.map (·.token))

namespace ParseError.PointsInto

variable {e : ParseError} {seen : List Token} {ls : List Lexeme}

theorem behind (front : List Lexeme) (h : e.PointsInto (seen ++ front.map (·.token)) ls) :
    e.PointsInto seen (front ++ ls) := by
  obtain ⟨before, l, after, rfl, line, concerns⟩ := h
  refine ⟨front ++ before, l, after, by simp, line, ?_⟩
  rwa [List.map_append, ← List.append_assoc]

theorem head {l : Lexeme} (line : l.line = e.line)
    (concerns : e.Concerns seen l.token (ls.map (·.token))) : e.PointsInto seen (l :: ls) :=
  ⟨[], l, ls, rfl, line, by simpa using concerns⟩

end ParseError.PointsInto

-- What is left of `ls`, the end token included.
structure Leaves (ls rest : List Lexeme) : Prop where
  suffix : rest <:+ ls
  ends : Terminated (rest.map (·.token))

namespace Leaves

variable {ls mid rest : List Lexeme} {l : Lexeme}

theorem refl (ends : Terminated (ls.map (·.token))) : Leaves ls ls := ⟨List.suffix_refl _, ends⟩

theorem trans (h : Leaves ls mid) (h' : Leaves mid rest) : Leaves ls rest :=
  ⟨h'.suffix.trans h.suffix, h'.ends⟩

theorem tail (ends : Terminated ((l :: rest).map (·.token))) (inner : l.token ≠ .eof) :
    Leaves (l :: rest) rest :=
  ⟨List.suffix_cons _ _, by simpa [Terminated, inner] using ends⟩

theorem dropWhile {p : Lexeme → Bool} (stop : ∀ n, p ⟨.eof, n⟩ = false)
    (ends : Terminated (ls.map (·.token))) : Leaves ls (ls.dropWhile p) := by
  induction ls with
  | nil => cases ends
  | cons l ls ih =>
    rw [List.dropWhile_cons]
    split
    · next inside =>
      have inner : l.token ≠ .eof := by
        obtain ⟨t, n⟩ := l
        rintro same
        cases same
        rw [stop] at inside
        cases inside
      have next := tail ends inner
      exact next.trans (ih next.ends)
    · exact refl ends

theorem dropBefore {stops : List Token} (stop : .eof ∈ stops)
    (ends : Terminated (ls.map (·.token))) : Leaves ls (Reader.dropBefore stops ls) :=
  dropWhile (fun n => by simp [Reader.isOneOf, stop]) ends

end Leaves

/-- What a reader makes of `ls` when it leaves an end of them, and when it fails only in front of a
token that the grammar does not have there. -/
inductive Reading.FaithfulTo {α : Type} (ls : List Lexeme) : Reading α → Prop
  | done {a : α} {rest : List Lexeme} (left : Leaves ls rest) : FaithfulTo ls (.done a rest)
  | stuck {expected : Expected} {rest : List Lexeme} (left : Leaves ls rest)
      (unmet : ¬expected.Met (Reader.peek rest)) :
      FaithfulTo ls (.stuck (.unexpected (Reader.line rest) (Reader.peek rest) expected) rest)

theorem Reading.FaithfulTo.behind {α : Type} {ls mid : List Lexeme} {r : Reading α}
    (h : r.FaithfulTo mid) (left : Leaves ls mid) : r.FaithfulTo ls := by
  cases h with
  | done left' => exact .done (left.trans left')
  | stuck left' unmet => exact .stuck (left.trans left') unmet

namespace Reader

variable {α β : Type} {ls rest : List Lexeme}

theorem exists_cons_of_peek {t : Token} (ends : Terminated (ls.map (·.token)))
    (here : peek ls = t) : ∃ n rest, ls = ⟨t, n⟩ :: rest := by
  cases ls with
  | nil => cases ends
  | cons l ls => exact ⟨l.line, ls, here ▸ rfl⟩

def Faithful (p : Reader α) : Prop :=
  ∀ ls, Terminated (ls.map (·.token)) → (p ls).FaithfulTo ls

namespace Faithful

variable {p : Reader α} (hp : Faithful p) (ends : Terminated (ls.map (·.token)))
include hp ends

theorem of_done {a : α} (read : p ls = .done a rest) : Leaves ls rest := by
  have faithful := hp ls ends
  rw [read] at faithful
  cases faithful with
  | done left => exact left

theorem of_stuck {e : ParseError} (read : p ls = .stuck e rest) :
    Leaves ls rest ∧ ∀ seen, e.PointsInto seen ls := by
  have faithful := hp ls ends
  rw [read] at faithful
  cases faithful with
  | stuck left unmet =>
    refine ⟨left, fun seen => ?_⟩
    obtain ⟨front, rfl⟩ := left.suffix
    cases rest with
    | nil => cases left.ends
    | cons l rest => exact .behind front (.head rfl ⟨rfl, unmet⟩)

end Faithful

theorem faithful_pure (a : α) : Faithful (pure a : Reader α) := fun _ ends => .done (.refl ends)

theorem faithful_bind {p : Reader α} {f : α → Reader β} (hp : Faithful p)
    (hf : ∀ a, Faithful (f a)) : Faithful (p >>= f) := by
  intro ls ends
  have first := hp ls ends
  show (bind p f ls).FaithfulTo ls
  unfold bind
  generalize p ls = r at first
  cases first with
  | done left => exact (hf _ _ left.ends).behind left
  | stuck left unmet => exact .stuck left unmet

theorem faithful_name {expected : Expected} (only : ∀ t, expected.Met t → ∃ s, t = .ident s) :
    Faithful (name expected) := by
  intro ls ends
  unfold name
  split
  · exact .done (.tail ends (by simp))
  · next other =>
    refine .stuck (.refl ends) fun met => ?_
    obtain ⟨s, same⟩ := only _ met
    obtain ⟨n, rest, split⟩ := exists_cons_of_peek ends same
    exact other s n rest split

theorem faithful_symbol {t : Token} {expected : Expected} (inner : t ≠ .eof)
    (only : ∀ t', expected.Met t' → t' = t) : Faithful (symbol t expected) := by
  intro ls ends
  unfold symbol
  split
  · next l rest =>
    split
    · next same => exact .done (.tail ends (same ▸ inner))
    · next other => exact .stuck (.refl ends) fun met => other (only _ met)
  · cases ends

theorem faithful_before {ts : List Token} {expected : Expected}
    (only : ∀ t, expected.Met t → t ∈ ts) : Faithful (before ts expected) := by
  intro ls ends
  unfold before
  split
  · exact .done (.refl ends)
  · next other => exact .stuck (.refl ends) fun met => other (only _ met)

theorem faithful_pointsLeft : Faithful pointsLeft := by
  intro ls ends
  unfold pointsLeft
  split
  · exact .done (.tail ends (by simp))
  · exact .done (.tail ends (by simp))
  · next gt lt =>
    refine .stuck (.refl ends) ?_
    rintro (same | same) <;> obtain ⟨n, rest, split⟩ := exists_cons_of_peek ends same
    · exact gt n rest split
    · exact lt n rest split

theorem faithful_relationshipFrom (leftEntity : String) : Faithful (relationshipFrom leftEntity) :=
  faithful_bind (faithful_symbol (by simp) fun _ met => met) fun _ =>
    faithful_bind (faithful_name fun _ met => met) fun _ =>
      faithful_bind faithful_pointsLeft fun _ =>
        faithful_bind (faithful_name fun _ met => met) fun _ =>
          faithful_bind (faithful_symbol (by simp) fun _ met => met) fun _ =>
            faithful_bind (faithful_name fun _ met => met) fun _ =>
              faithful_bind (faithful_before fun _ met => met) fun _ => faithful_pure _

theorem faithful_metadataItems (items : List (String × String)) :
    Faithful (metadataItems items) := by
  intro ls ends
  have value {s : String} {n k : Nat} {rest : List Lexeme}
      (ends : Terminated ((⟨.ident s, n⟩ :: ⟨.colon, k⟩ :: rest : List Lexeme).map (·.token))) :
      Leaves (⟨.ident s, n⟩ :: ⟨.colon, k⟩ :: rest) (dropBefore valueEnds rest) := by
    have first := Leaves.tail ends (by simp)
    have second := Leaves.tail first.ends (by simp)
    exact (first.trans second).trans (.dropBefore (by simp [valueEnds]) second.ends)
  fun_induction metadataItems items ls with
  | case1 => exact .done (.tail ends (by simp))
  | case2 items s n k rest item c after dropped ih =>
    have left := value ends
    rw [dropped] at left
    have next := left.trans (.tail left.ends (by simp))
    exact (ih next.ends).behind next
  | case3 items s n k rest item c after dropped =>
    have left := value ends
    rw [dropped] at left
    exact .done (left.trans (.tail left.ends (by simp)))
  | case4 items s n k rest noComma noBracket =>
    have left := value ends
    refine .stuck left ?_
    rintro (same | same) <;> obtain ⟨n, after, split⟩ := exists_cons_of_peek left.ends same
    · exact noBracket n after split
    · exact noComma n after split
  | case5 items s n rest noColon =>
    have left := Leaves.tail ends (by simp)
    refine .stuck left fun same => ?_
    obtain ⟨k, after, split⟩ := exists_cons_of_peek left.ends same
    exact noColon k after split
  | case6 items ls noBracket _ noKey =>
    refine .stuck (.refl ends) ?_
    rintro (⟨s, same⟩ | same) <;> obtain ⟨n, after, split⟩ := exists_cons_of_peek ends same
    · exact noKey s n after split
    · exact noBracket n after split

theorem faithful_metadata : Faithful metadata := by
  intro ls ends
  unfold metadata
  split
  · have left := Leaves.tail ends (by simp)
    exact (faithful_metadataItems [] _ left.ends).behind left
  · exact .done (.refl ends)

theorem faithful_openBrace : Faithful openBrace := by
  intro ls ends
  have left := Leaves.dropWhile (p := isOneOf [.newline]) (by simp [isOneOf]) ends
  unfold openBrace
  split
  · next n rest dropped =>
    rw [dropped] at left
    exact .done (left.trans (.tail left.ends (by simp)))
  · next other =>
    refine .stuck (.refl ends) fun same => ?_
    obtain ⟨n, rest, rfl⟩ := exists_cons_of_peek ends same
    exact other n rest rfl

theorem faithful_entityHead : Faithful entityHead :=
  faithful_bind faithful_metadata fun _ =>
    faithful_bind faithful_openBrace fun _ => faithful_pure _

theorem faithful_typeArguments : Faithful typeArguments := by
  intro ls ends
  unfold typeArguments
  split
  · next n rest =>
    have inner := Leaves.tail ends (by simp)
    have stop : Token.eof ∈ argumentEnds := by simp [argumentEnds]
    have left := inner.trans (.dropBefore stop inner.ends)
    split
    · next k after dropped =>
      rw [dropped] at left
      exact .done (left.trans (.tail left.ends (by simp)))
    · next other =>
      refine .stuck left fun same => ?_
      obtain ⟨k, after, split⟩ := exists_cons_of_peek left.ends same
      exact other k after split
  · exact .done (.refl ends)

theorem faithful_arraySuffix : Faithful arraySuffix := by
  intro ls ends
  unfold arraySuffix
  split
  · have first := Leaves.tail ends (by simp)
    exact .done (first.trans (.tail first.ends (by simp)))
  · exact .done (.refl ends)

theorem faithful_modifiers : Faithful modifiers :=
  fun _ ends => .done (.dropWhile (fun _ => rfl) ends)

theorem faithful_field : Faithful field :=
  faithful_bind (faithful_name fun _ met => met) fun _ =>
    faithful_bind
      (faithful_bind (faithful_name fun _ met => met) fun _ =>
        faithful_bind faithful_typeArguments fun _ =>
          faithful_bind faithful_arraySuffix fun _ => faithful_pure _)
      fun _ => faithful_bind faithful_modifiers fun _ =>
        faithful_bind (faithful_before fun _ met => met) fun _ => faithful_pure _

theorem startsDeclaration_eq {l : Lexeme} (h : startsDeclaration (l :: ls) = true) :
    (∃ s, l.token = .ident s) ∧
      ∃ u ∈ (ls.map (·.token)).head?, u ∈ [Token.lbrace, .lbracket, .dot] := by
  unfold startsDeclaration at h
  split at h
  · next s n k rest same =>
    cases same
    exact ⟨⟨s, rfl⟩, k.token, rfl, by simpa [isOneOf] using h⟩
  · cases h

def Inside (seen : List Token) (entity : String) (fields : List Field) : Prop :=
  ∃ inner, Opened seen entity inner ∧ ∀ f ∈ fields, Token.ident f.name ∈ inner

namespace Inside

variable {seen ts : List Token} {entity : String} {fields : List Field}

theorem append (h : Inside seen entity fields) (ts : List Token) :
    Inside (seen ++ ts) entity fields := by
  obtain ⟨inner, opened, named⟩ := h
  exact ⟨inner ++ ts, opened.append ts, fun f hf => List.mem_append_left _ (named f hf)⟩

theorem snoc {f : Field} (h : Inside seen entity fields) (mem : Token.ident f.name ∈ ts) :
    Inside (seen ++ ts) entity (fields ++ [f]) := by
  obtain ⟨inner, opened, named⟩ := h
  refine ⟨inner ++ ts, opened.append ts, fun g hg => ?_⟩
  rcases List.mem_append.mp hg with hg | hg
  · exact List.mem_append_left _ (named g hg)
  · cases List.mem_singleton.mp hg
    exact List.mem_append_right _ mem

end Inside

theorem token_of_field {l : Lexeme} {f : Field} (done : field (l :: ls) = .done f rest) :
    l.token = .ident f.name := by
  obtain ⟨line, -, rfl, run, -⟩ := field_done.mp done
  exact peek_cons_of_spells run

theorem mem_of_field {front : List Lexeme} {f : Field}
    (done : field (front ++ rest) = .done f rest) : Token.ident f.name ∈ front.map (·.token) := by
  obtain ⟨line, -, rfl, ⟨taken, split, tokens⟩, -⟩ := field_done.mp done
  rw [List.append_cancel_right split, tokens]
  exact List.mem_cons_self

theorem points_of_body {entity : String} {fields : List Field} {seen : List Token}
    (inside : Inside seen entity fields) (ends : Terminated (ls.map (·.token))) :
    Leaves ls (body entity fields ls).rest ∧
      ∀ e ∈ (body entity fields ls).errors, e.PointsInto seen ls := by
  fun_induction body entity fields ls generalizing seen with
  | case1 => cases ends
  | case2 fields l ls skip ih =>
    have inner : l.token ≠ .eof := by rcases skip with same | same <;> simp [same]
    have left := Leaves.tail ends inner
    obtain ⟨further, points⟩ := ih (inside.append [l.token]) left.ends
    exact ⟨left.trans further, fun e he => (points e he).behind [l]⟩
  | case3 fields l ls skip close =>
    exact ⟨.tail ends (by simp [close]), fun e he => by cases he⟩
  | case4 fields l ls skip close stop =>
    refine ⟨.refl ends, fun e he => ?_⟩
    cases List.mem_singleton.mp he
    obtain ⟨inner, opened, -⟩ := inside
    exact .head rfl ⟨⟨inner, opened⟩, stop.imp_right startsDeclaration_eq⟩
  | case5 fields l ls skip close stop f after done repeated ih =>
    have left := faithful_field.of_done ends done
    obtain ⟨front, split⟩ := left.suffix
    obtain ⟨further, points⟩ := ih (inside.append (front.map (·.token))) left.ends
    refine ⟨left.trans further, List.forall_mem_cons.mpr ⟨.head rfl ⟨token_of_field done, ?_⟩, ?_⟩⟩
    · obtain ⟨g, hg, same⟩ := List.any_eq_true.mp repeated
      obtain ⟨inner, opened, named⟩ := inside
      exact ⟨inner, opened, of_decide_eq_true same ▸ named g hg⟩
    · exact fun e he => split ▸ (points e he).behind _
  | case6 fields l ls skip close stop f after done fresh ih =>
    have left := faithful_field.of_done ends done
    obtain ⟨front, split⟩ := left.suffix
    have mem := mem_of_field (split.symm ▸ done)
    obtain ⟨further, points⟩ := ih (inside.snoc mem) left.ends
    exact ⟨left.trans further, fun e he => split ▸ (points e he).behind _⟩
  | case7 fields l ls skip close stop e after wrong ih =>
    obtain ⟨left, here⟩ := faithful_field.of_stuck ends wrong
    have stop : Token.eof ∈ fieldEnds := by simp [fieldEnds]
    have skipped := left.trans (.dropBefore stop left.ends)
    obtain ⟨front, split⟩ := skipped.suffix
    obtain ⟨further, points⟩ := ih (inside.append (front.map (·.token))) skipped.ends
    refine ⟨skipped.trans further, List.forall_mem_cons.mpr ⟨here seen, fun e he => ?_⟩⟩
    exact split ▸ (points e he).behind _

structure Points (seen : List Token) (ls : List Lexeme) (d : Declaration × List Lexeme) : Prop where
  left : Leaves ls d.2
  errors : ∀ e ∈ d.1.errors, e.PointsInto seen ls
  entity : ∀ line v errors, d.1 = .entity line v errors →
    (∃ after, ls = ⟨.ident v.name, line⟩ :: after) ∧
      ∀ front, ls = front ++ d.2 → ∃ inner, Opened (seen ++ front.map (·.token)) v.name inner

theorem points_of_stuck {p : Reader α} {e : ParseError} {l : Lexeme} (seen : List Token)
    (faithful : Faithful p) (left : Leaves (l :: ls) ls) (read : p ls = .stuck e rest) :
    Points seen (l :: ls) (.malformed e, dropBefore lineEnds rest) := by
  obtain ⟨further, here⟩ := faithful.of_stuck left.ends read
  have stop : Token.eof ∈ lineEnds := by simp [lineEnds]
  have skipped := further.trans (.dropBefore stop further.ends)
  refine ⟨left.trans skipped, fun e' he => ?_, fun _ _ _ made => by cases made⟩
  cases List.mem_singleton.mp he
  exact (here _).behind [l]

theorem points_of_relationship {s : String} {n : Nat} (seen : List Token)
    (left : Leaves (⟨.ident s, n⟩ :: ls) ls) :
    Points seen (⟨.ident s, n⟩ :: ls) (relationship s ls) := by
  unfold relationship declared
  cases read : relationshipFrom s ls with
  | stuck e rest => exact points_of_stuck seen (faithful_relationshipFrom s) left read
  | done r rest =>
    have further := (faithful_relationshipFrom s).of_done left.ends read
    refine ⟨left.trans further, ?_, ?_⟩
    · intro e he
      cases he
    · intro line v errors made
      cases made

theorem opened_of_entityHead (name : String) {items : List (String × String)} (seen : List Token)
    {head : List Lexeme} (read : entityHead (head ++ rest) = .done items rest) :
    Opened (seen ++ Token.ident name :: head.map (·.token)) name [] := by
  obtain ⟨md, gap, -, -, taken, split, tokens⟩ := entityHead_done.mp read
  exact ⟨seen, md, gap, by rw [List.append_cancel_right split, tokens, List.append_nil]⟩

theorem points_of_entity {s : String} {n : Nat} (seen : List Token)
    (left : Leaves (⟨.ident s, n⟩ :: ls) ls) :
    Points seen (⟨.ident s, n⟩ :: ls) (entity n s ls) := by
  unfold entity declared
  cases read : entityHead ls with
  | stuck e rest => exact points_of_stuck seen faithful_entityHead left read
  | done items rest =>
    have head := faithful_entityHead.of_done left.ends read
    obtain ⟨front, rfl⟩ := head.suffix
    have opened := opened_of_entityHead s seen read
    have inside : Inside (seen ++ Token.ident s :: front.map (·.token)) s [] :=
      ⟨[], opened, fun f hf => by cases hf⟩
    obtain ⟨within, points⟩ := points_of_body inside head.ends
    refine ⟨left.trans (head.trans within), fun e he => ?_, ?_⟩
    · exact (points e he).behind (⟨.ident s, n⟩ :: front)
    · intro line v errors made
      cases made
      refine ⟨⟨_, rfl⟩, fun taken split => ?_⟩
      obtain ⟨more, behind⟩ := within.suffix
      have whole : (⟨.ident s, n⟩ :: front) ++ more ++ (body s [] rest).rest =
          ⟨.ident s, n⟩ :: (front ++ rest) := by
        rw [List.append_assoc, behind, List.cons_append]
      obtain rfl := List.append_cancel_right (whole.trans split)
      exact ⟨_, by simpa using opened.append (more.map (·.token))⟩

theorem points_of_declaration {l : Lexeme} (seen : List Token)
    (ends : Terminated ((l :: ls).map (·.token))) :
    Points seen (l :: ls) (declaration (l :: ls)) := by
  unfold declaration
  split
  · next s n rest same =>
    cases same
    have left := Leaves.tail ends (by simp)
    split
    · exact points_of_relationship seen left
    · exact points_of_entity seen left
  · next other =>
    refine ⟨.dropBefore (by simp [lineEnds]) ends, fun e he => ?_, fun _ _ _ made => by cases made⟩
    cases List.mem_singleton.mp he
    refine .head rfl ⟨rfl, ?_⟩
    rintro ⟨s, same⟩
    exact other s l.line ls (by rw [← same])

end Reader

namespace Parsed

variable {p : Parsed} {d : Declaration} {e : ParseError}

theorem mem_errors_add (mem : e ∈ (p.add d).errors) :
    e ∈ p.errors ∨ e ∈ d.errors ∨ ∃ line v errors, d = .entity line v errors ∧
      v.name ∈ p.schema.entities.map (·.name) ∧ e = .duplicateEntity line v.name := by
  cases d with
  | relationship r =>
    rw [add, addRelationship] at mem
    split at mem <;> exact .inl mem
  | malformed e' => exact (List.mem_append.mp mem).imp_right .inl
  | entity line v errors =>
    rw [add, addEntity] at mem
    split at mem
    · next present =>
      rcases List.mem_append.mp mem with mem | mem
      · exact (List.mem_append.mp mem).imp_right .inl
      · have again := isSome_entity?.mp present
        exact .inr (.inr ⟨line, v, errors, rfl, again, List.mem_singleton.mp mem⟩)
    · exact (List.mem_append.mp mem).imp_right .inl

theorem mem_entities_add {v : Entity} (mem : v ∈ (p.add d).schema.entities) :
    v ∈ p.schema.entities ∨ ∃ line errors, d = .entity line v errors := by
  cases d with
  | relationship r =>
    rw [add, addRelationship] at mem
    split at mem <;> exact .inl mem
  | malformed e' => exact .inl mem
  | entity line w errors =>
    rw [add, addEntity] at mem
    split at mem
    · exact .inl mem
    · rcases List.mem_append.mp mem with mem | mem
      · exact .inl mem
      · cases List.mem_singleton.mp mem
        exact .inr ⟨line, errors, rfl⟩

end Parsed

open Reader (declarations declaration Points points_of_declaration) in
theorem pointsInto_of_declarations {ls : List Lexeme} (ends : Terminated (ls.map (·.token)))
    {seen : List Token} {p : Parsed}
    (known : ∀ v ∈ p.schema.entities, ∃ inner, Opened seen v.name inner) {e : ParseError}
    (mem : e ∈ ((declarations ls).foldl Parsed.add p).errors) :
    e ∈ p.errors ∨ e.PointsInto seen ls := by
  fun_induction declarations ls generalizing p seen with
  | case1 => cases ends
  | case2 l ls newline ih =>
    have known' : ∀ v ∈ p.schema.entities, ∃ inner, Opened (seen ++ [l.token]) v.name inner := by
      intro v hv
      obtain ⟨inner, opened⟩ := known v hv
      exact ⟨_, opened.append [l.token]⟩
    exact (ih (Leaves.tail ends (by simp [newline])).ends known' mem).imp_right
      fun points => points.behind [l]
  | case3 => exact .inl mem
  | case4 l ls newline eof ih =>
    have points := points_of_declaration seen ends
    obtain ⟨front, split⟩ := points.left.suffix
    rw [List.foldl_cons] at mem
    have known' : ∀ v ∈ (p.add (declaration (l :: ls)).1).schema.entities,
        ∃ inner, Opened (seen ++ front.map (·.token)) v.name inner := by
      intro v hv
      rcases Parsed.mem_entities_add hv with hv | ⟨line, errors, made⟩
      · obtain ⟨inner, opened⟩ := known v hv
        exact ⟨_, opened.append _⟩
      · exact (points.entity line v errors made).2 front split.symm
    rcases ih points.left.ends known' mem with mem | behind
    · rcases Parsed.mem_errors_add mem with mem | mem | ⟨line, v, errors, made, again, rfl⟩
      · exact .inl mem
      · exact .inr (points.errors e mem)
      · obtain ⟨after, whole⟩ := (points.entity line v errors made).1
        obtain ⟨w, hw, same⟩ := List.mem_map.mp again
        rw [whole]
        exact .inr (.head rfl ⟨rfl, same ▸ known w hw⟩)
    · exact .inr (split ▸ behind.behind _)

theorem pointsInto_of_parse (source : String) :
    ∀ e ∈ (parse source).errors, e.PointsInto [] (tokenize source) := by
  intro e mem
  have empty : ∀ v ∈ Parsed.empty.schema.entities, ∃ inner, Opened [] v.name inner :=
    fun v hv => by cases hv
  rcases pointsInto_of_declarations (terminated_lexemes 1 source.toList) empty mem with mem | points
  · cases mem
  · exact points

open Lexer (pieces located lineBehind)

/-- The lines of a text are told right. Each token bears the line of its first character, each error
the line of the token that it is about, and every string ends with its line. -/
structure RightLines (source : String) : Prop where
  whole : (pieces source.toList).flatMap (·.source) = source.toList
  tokens : tokenize source = located [] (pieces source.toList)
  errors : ∀ e ∈ (parse source).errors, ∃ before p after,
    pieces source.toList = before ++ p :: after ∧
      e.Concerns (before.map (·.token)) p.token (after.map (·.token)) ∧
      e.line = lineBehind (before.flatMap (·.source) ++ p.gap)
  strings : ∀ p ∈ pieces source.toList, (∃ v, p.token = .str v) → '\n' ∉ p.text

theorem rightLines_iff (source : String) :
    RightLines source ↔ ∀ p ∈ pieces source.toList, ¬p.RunsOn := by
  rw [← Lexer.tokenize_eq_located_iff]
  constructor
  · exact fun right => right.tokens
  · intro tokens
    refine ⟨Lexer.source_pieces _, tokens, fun e mem => ?_, fun p mem string inside => ?_⟩
    · obtain ⟨before, l, after, split, line, concerns⟩ := pointsInto_of_parse source e mem
      rw [tokens] at split
      obtain ⟨qs, p, rs, pieces, hb, ha, token, place⟩ := Lexer.exists_of_located split
      rw [hb, ha, token] at concerns
      exact ⟨qs, p, rs, pieces, concerns, line.symm.trans place⟩
    · obtain ⟨v, string⟩ := string
      rcases (Lexer.bounded_of_mem_pieces mem).inside inside with newline | runs
      · cases newline.symm.trans string
      · exact (Lexer.tokenize_eq_located_iff source).mp tokens p mem runs

theorem blankLine_rightLines : RightLines "a\n\nb" := by
  refine (rightLines_iff _).mpr (Lexer.not_runsOn_of_unescaped fun escaped => ?_)
  have backslash := escaped.subset (List.mem_cons_self (a := '\\') (l := ['\n']))
  revert backslash
  decide

theorem continued_not_rightLines : ¬RightLines "'a\\\nb" := by
  intro right
  have read : Lexer.skipBlanks "'a\\\nb".toList = '\'' :: ['a', '\\', '\n', 'b'] := rfl
  have string : ⟨[], "'a\\\nb".toList, .str "a\nb"⟩ ∈ pieces "'a\\\nb".toList := by
    rw [Lexer.pieces_of_skipBlanks read]
    exact List.mem_cons_self
  exact right.strings _ string ⟨_, rfl⟩ (by decide)

end QueryBuilder
