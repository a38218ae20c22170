import QueryBuilder.Proofs.Schema.Consumption

set_option autoImplicit false

namespace QueryBuilder.Reader

open Sentence (joined FieldLine MetadataItem RelationLine TypeName)
open Sentence.EntityBlock (MetadataFits metadataTokens pairs)

variable {ls rest : List Lexeme}

theorem relationshipFrom_done {leftEntity : String} {r : Relationship} :
    relationshipFrom leftEntity ls = .done r rest ↔
      ∃ line : RelationLine, line.leftEntity = leftEntity ∧ line.relationship = r ∧
        Spells line.tailTokens ls rest ∧ peek rest ∈ lineEnds := by
  simp only [relationshipFrom, bind_done, pure_done, symbol_done, name_done, pointsLeft_done,
    before_done]
  constructor
  · rintro ⟨_, _, h₁, leftField, _, h₂, left, _, h₃, rightEntity, _, h₄, _, _, h₅, rightField, _,
      h₆, _, _, ⟨rfl, stop⟩, rfl, rfl⟩
    refine ⟨⟨leftEntity, leftField, left, rightEntity, rightField⟩, rfl, rfl, ?_, stop⟩
    exact h₁.append (h₂.append (h₃.append (h₄.append (h₅.append h₆))))
  · rintro ⟨line, rfl, rfl, h, stop⟩
    obtain ⟨_, h₁, h⟩ := h.uncons
    obtain ⟨_, h₂, h⟩ := h.uncons
    obtain ⟨_, h₃, h⟩ := h.uncons
    obtain ⟨_, h₄, h⟩ := h.uncons
    obtain ⟨_, h₅, h₆⟩ := h.uncons
    exact ⟨(), _, h₁, _, _, h₂, _, _, h₃, _, _, h₄, (), _, h₅, _, _, h₆, (), _, ⟨rfl, stop⟩, rfl,
      rfl⟩

theorem typeArguments_sound {s : String} (h : typeArguments ls = .done s rest) :
    ∃ arguments, TypeName.ArgumentsFit arguments ∧ TypeName.argumentText arguments = s ∧
      Spells (TypeName.argumentTokens arguments) ls rest := by
  unfold typeArguments at h
  split at h
  · next n inner =>
    split at h
    · next m after stop =>
      cases h
      obtain ⟨ws, run, inside, text⟩ := spells_dropBefore argumentEnds inner
      refine ⟨some ws, ?_, by rw [text]; rfl, ?_⟩
      · rintro ws' ⟨⟩
        exact inside
      · rw [stop] at run
        exact (run.append (Spells.nil_iff.mpr rfl).cons).cons
    · cases h
  · cases h
    exact ⟨none, by rintro _ ⟨⟩, rfl, Spells.nil_iff.mpr rfl⟩

theorem typeArguments_complete {arguments : Option (List Token)}
    (fit : TypeName.ArgumentsFit arguments)
    (run : Spells (TypeName.argumentTokens arguments) ls rest)
    (stop : arguments = none → peek rest ≠ .lparen) :
    typeArguments ls = .done (TypeName.argumentText arguments) rest := by
  cases arguments with
  | none =>
    obtain rfl := Spells.nil_iff.mp run
    unfold typeArguments
    split
    · exact absurd rfl (stop rfl)
    · rfl
  | some ws =>
    obtain ⟨n, mid, rfl, inner⟩ := Spells.cons_iff.mp run
    obtain ⟨_, words, close⟩ := Spells.append_iff.mp inner
    obtain ⟨m, _, rfl, done⟩ := Spells.cons_iff.mp close
    obtain rfl := Spells.nil_iff.mp done
    have inside : ∀ w ∈ ws, w ∉ argumentEnds := fit ws rfl
    obtain ⟨dropped, text⟩ :=
      dropBefore_of_spells words inside (by simp [peek, argumentEnds]) (List.cons_ne_nil _ _)
    simp only [typeArguments, dropped, text]
    rfl

theorem arraySuffix_sound {s : String} (h : arraySuffix ls = .done s rest) :
    ∃ isArray, TypeName.suffixText isArray = s ∧
      Spells (TypeName.suffixTokens isArray) ls rest := by
  unfold arraySuffix at h
  split at h
  · cases h
    exact ⟨true, rfl, (Spells.nil_iff.mpr rfl).cons.cons⟩
  · cases h
    exact ⟨false, rfl, Spells.nil_iff.mpr rfl⟩

theorem arraySuffix_complete {isArray : Bool}
    (run : Spells (TypeName.suffixTokens isArray) ls rest)
    (stop : isArray = false → peek rest ≠ .lbracket) :
    arraySuffix ls = .done (TypeName.suffixText isArray) rest := by
  cases isArray with
  | false =>
    obtain rfl := Spells.nil_iff.mp run
    unfold arraySuffix
    split
    · exact absurd rfl (stop rfl)
    · rfl
  | true =>
    obtain ⟨n, _, rfl, second⟩ := Spells.cons_iff.mp run
    obtain ⟨m, _, rfl, done⟩ := Spells.cons_iff.mp second
    obtain rfl := Spells.nil_iff.mp done
    rfl

theorem modifiers_sound {isKey : Bool} (h : modifiers ls = .done isKey rest) :
    ∃ words : List String, Spells (words.map .ident) ls rest ∧
      words.any (Text.sameLetters · "pk") = isKey := by
  simp only [modifiers, Reading.done.injEq] at h
  obtain ⟨rfl, rfl⟩ := h
  induction ls with
  | nil => exact ⟨[], Spells.nil_iff.mpr rfl, rfl⟩
  | cons l ls ih =>
    obtain ⟨t, n⟩ := l
    obtain ⟨words, run, key⟩ := ih
    cases t with
    | ident w =>
      refine ⟨w :: words, run.cons, ?_⟩
      simp [List.takeWhile_cons, isWord, isKeyMark, key]
    | _ => exact ⟨[], Spells.nil_iff.mpr rfl, rfl⟩

theorem modifiers_complete {words : List String} (run : Spells (words.map .ident) ls rest)
    (stop : ∀ w, peek rest ≠ .ident w) :
    modifiers ls = .done (words.any (Text.sameLetters · "pk")) rest := by
  induction words generalizing ls with
  | nil =>
    obtain rfl := Spells.nil_iff.mp run
    cases ls with
    | nil => rfl
    | cons l ls =>
      obtain ⟨t, n⟩ := l
      cases t with
      | ident w => exact absurd rfl (stop w)
      | _ => rfl
  | cons w words ih =>
    obtain ⟨n, mid, rfl, run'⟩ := Spells.cons_iff.mp run
    have later := ih run'
    simp only [modifiers, Reading.done.injEq] at later ⊢
    simp [List.takeWhile_cons, List.dropWhile_cons, isWord, isKeyMark, later]

theorem peek_modifiers {words : List String} (run : Spells (words.map .ident) ls rest)
    (stop : peek rest ∈ fieldEnds) : peek ls ≠ .lparen ∧ peek ls ≠ .lbracket := by
  cases words with
  | nil =>
    obtain rfl := Spells.nil_iff.mp run
    constructor <;> intro h <;> rw [h] at stop <;> revert stop <;> decide
  | cons w words => simp [peek_cons_of_spells run]

theorem peek_suffix {isArray : Bool} (run : Spells (TypeName.suffixTokens isArray) ls rest)
    (stop : peek rest ≠ .lparen) : peek ls ≠ .lparen := by
  cases isArray with
  | false => rwa [Spells.nil_iff.mp run]
  | true => simp [peek_cons_of_spells run]

theorem field_done {f : Field} :
    field ls = .done f rest ↔
      ∃ line : FieldLine, TypeName.ArgumentsFit line.type.arguments ∧ line.field = f ∧
        Spells line.tokens ls rest ∧ peek rest ∈ fieldEnds := by
  simp only [field, fieldNamed, fieldType, bind_done, pure_done, name_done, before_done]
  constructor
  · rintro ⟨name, _, h₁, _, _, ⟨word, _, h₂, _, _, h₃, _, _, h₄, rfl, rfl⟩, isKey, _, h₅, _, _,
      ⟨rfl, stop⟩, rfl, rfl⟩
    obtain ⟨arguments, fit, rfl, run₃⟩ := typeArguments_sound h₃
    obtain ⟨isArray, rfl, run₄⟩ := arraySuffix_sound h₄
    obtain ⟨words, run₅, rfl⟩ := modifiers_sound h₅
    refine ⟨⟨name, ⟨word, arguments, isArray⟩, words⟩, fit, rfl, ?_, stop⟩
    exact h₁.append ((h₂.append (run₃.append run₄)).append run₅)
  · rintro ⟨⟨name, ⟨word, arguments, isArray⟩, words⟩, fit, rfl, run, stop⟩
    obtain ⟨_, h₁, run⟩ := run.uncons
    obtain ⟨_, typed, h₅⟩ := Spells.append_iff.mp run
    obtain ⟨_, h₂, typed⟩ := typed.uncons
    obtain ⟨_, h₃, h₄⟩ := Spells.append_iff.mp typed
    have after := peek_modifiers h₅ stop
    have noWord : ∀ w, peek rest ≠ .ident w := by
      intro w h
      rw [h] at stop
      simp [fieldEnds] at stop
    exact ⟨name, _, h₁, _, _, ⟨word, _, h₂, _, _,
      typeArguments_complete fit h₃ fun _ => peek_suffix h₄ after.1, _, _,
      arraySuffix_complete h₄ fun _ => after.2, rfl, rfl⟩, _, _,
      modifiers_complete h₅ noWord, (), _, ⟨rfl, stop⟩, rfl, rfl⟩

theorem metadataItems_sound {items m : List (String × String)}
    (h : metadataItems items ls = .done m rest) :
    ∃ more : List MetadataItem, Sentence.Followed MetadataItem.Separated more ∧
      (∀ i ∈ more, i.Fits) ∧ items ++ more.map (·.pair) = m ∧
      Spells (more.flatMap (·.tokens) ++ [Token.rbracket]) ls rest := by
  fun_induction metadataItems items ls with
  | case1 items n after =>
    cases h
    exact ⟨[], trivial, by simp, by simp, (Spells.nil_iff.mpr rfl).cons⟩
  | case2 items key n k inner item c after dropped ih =>
    obtain ⟨more, separated, fits, rfl, run⟩ := ih h
    obtain ⟨value, words, inside, text⟩ := spells_dropBefore valueEnds inner
    rw [dropped] at words
    refine ⟨⟨key, value, true⟩ :: more, ⟨.inl rfl, separated⟩, ?_, ?_, ?_⟩
    · rintro i (_ | ⟨_, hi⟩)
      · exact inside
      · exact fits i hi
    · simp [item, MetadataItem.pair, text]
    · simpa [MetadataItem.tokens] using (words.append run.cons).cons.cons
  | case3 items key n k inner item c after dropped =>
    cases h
    obtain ⟨value, words, inside, text⟩ := spells_dropBefore valueEnds inner
    rw [dropped] at words
    refine ⟨[⟨key, value, false⟩], ⟨.inr rfl, trivial⟩, ?_, ?_, ?_⟩
    · rintro i (_ | ⟨_, ⟨⟩⟩)
      exact inside
    · simp [item, MetadataItem.pair, text]
    · simpa [MetadataItem.tokens] using (words.append (Spells.nil_iff.mpr rfl).cons).cons.cons
  | case4 | case5 | case6 => cases h

theorem metadataItems_complete {more : List MetadataItem} {items : List (String × String)}
    (separated : Sentence.Followed MetadataItem.Separated more) (fits : ∀ i ∈ more, i.Fits)
    (run : Spells (more.flatMap (·.tokens) ++ [Token.rbracket]) ls rest) :
    metadataItems items ls = .done (items ++ more.map (·.pair)) rest := by
  induction more generalizing items ls with
  | nil =>
    obtain ⟨n, _, rfl, done⟩ := Spells.cons_iff.mp run
    obtain rfl := Spells.nil_iff.mp done
    rw [metadataItems, List.map_nil, List.append_nil]
  | cons i more ih =>
    obtain ⟨key, value, comma⟩ := i
    have inside : ∀ v ∈ value, v ∉ valueEnds := fits _ List.mem_cons_self
    have front : Spells (Token.ident key :: .colon ::
        (value ++ ((if comma then [Token.comma] else []) ++
          (more.flatMap (·.tokens) ++ [Token.rbracket])))) ls rest := by
      simpa [MetadataItem.tokens] using run
    obtain ⟨n, _, rfl, colon⟩ := Spells.cons_iff.mp front
    obtain ⟨k, mid, rfl, valued⟩ := Spells.cons_iff.mp colon
    obtain ⟨_, words, close⟩ := Spells.append_iff.mp valued
    -- An item without a comma is the last one, so the bracket stands behind it.
    cases comma with
    | true =>
      obtain ⟨c, after, rfl, later⟩ := Spells.cons_iff.mp close
      obtain ⟨dropped, text⟩ := dropBefore_of_spells words inside (by simp [peek, valueEnds])
        (List.cons_ne_nil _ _)
      have others : metadataItems (items ++ [(key, joined value)]) after = _ :=
        ih separated.2 (fun i hi => fits i (List.mem_cons_of_mem _ hi)) later
      rw [metadataItems, text]
      split
      · next h =>
        rw [dropped] at h
        cases h
        simpa [MetadataItem.pair] using others
      · next h => rw [dropped] at h; cases h
      · next other _ => exact absurd dropped (other c after)
    | false =>
      have last : more = [] := by simpa [MetadataItem.Separated] using separated.1
      subst last
      obtain ⟨c, after, rfl, done⟩ := Spells.cons_iff.mp close
      obtain rfl := Spells.nil_iff.mp done
      obtain ⟨dropped, text⟩ := dropBefore_of_spells words inside (by simp [peek, valueEnds])
        (List.cons_ne_nil _ _)
      rw [metadataItems, text]
      split
      · next h => rw [dropped] at h; cases h
      · next h =>
        rw [dropped] at h
        cases h
        simp [MetadataItem.pair]
      · next _ other => exact absurd dropped (other c after)

theorem metadata_sound {m : List (String × String)} (h : metadata ls = .done m rest) :
    ∃ md, MetadataFits md ∧ pairs md = m ∧ Spells (metadataTokens md) ls rest := by
  unfold metadata at h
  split at h
  · obtain ⟨items, separated, fits, rfl, run⟩ := metadataItems_sound h
    refine ⟨some items, ?_, rfl, run.cons⟩
    rintro _ ⟨⟩
    exact ⟨separated, fits⟩
  · cases h
    exact ⟨none, by rintro _ ⟨⟩, rfl, Spells.nil_iff.mpr rfl⟩

theorem metadata_complete {md : Option (List MetadataItem)} (fits : MetadataFits md)
    (run : Spells (metadataTokens md) ls rest) (stop : md = none → peek rest ≠ .lbracket) :
    metadata ls = .done (pairs md) rest := by
  cases md with
  | none =>
    obtain rfl := Spells.nil_iff.mp run
    unfold metadata
    split
    · exact absurd rfl (stop rfl)
    · rfl
  | some items =>
    obtain ⟨n, _, rfl, inner⟩ := Spells.cons_iff.mp run
    obtain ⟨separated, fits⟩ := fits items rfl
    exact metadataItems_complete separated fits inner

theorem openBrace_done {u : Unit} :
    openBrace ls = .done u rest ↔
      ∃ gap, Spells (List.replicate gap Token.newline ++ [Token.lbrace]) ls rest := by
  unfold openBrace
  constructor
  · intro h
    split at h
    · next n after dropped =>
      cases h
      have blank : ∃ gap, (ls.takeWhile (isOneOf [.newline])).map (·.token) =
          List.replicate gap Token.newline := by
        refine ⟨_, List.eq_replicate_iff.mpr ⟨rfl, ?_⟩⟩
        intro t ht
        obtain ⟨l, hl, rfl⟩ := List.mem_map.mp ht
        simpa [isOneOf] using List.all_eq_true.mp List.all_takeWhile l hl
      obtain ⟨gap, blank⟩ := blank
      have newlines : Spells (List.replicate gap Token.newline) ls (⟨.lbrace, n⟩ :: rest) := by
        refine ⟨_, ?_, blank⟩
        rw [← dropped]
        exact List.takeWhile_append_dropWhile.symm
      exact ⟨gap, newlines.append (Spells.nil_iff.mpr rfl).cons⟩
    · cases h
  · rintro ⟨gap, run⟩
    obtain ⟨_, ⟨front, rfl, blank⟩, brace⟩ := Spells.append_iff.mp run
    obtain ⟨n, after, rfl, done⟩ := Spells.cons_iff.mp brace
    obtain rfl := Spells.nil_iff.mp done
    have inner : ∀ l ∈ front, isOneOf [.newline] l := by
      intro l hl
      have token : l.token ∈ front.map (·.token) := List.mem_map_of_mem hl
      rw [blank] at token
      simp [isOneOf, (List.mem_replicate.mp token).2]
    have out : ∀ l ∈ (⟨.lbrace, n⟩ :: after : List Lexeme).head?, isOneOf [.newline] l = false := by
      simp [isOneOf]
    have dropped := (span_of_stop inner out).2
    rw [dropped]

theorem entityHead_done {m : List (String × String)} :
    entityHead ls = .done m rest ↔
      ∃ md gap, MetadataFits md ∧ pairs md = m ∧
        Spells (metadataTokens md ++ (List.replicate gap Token.newline ++ [Token.lbrace]))
          ls rest := by
  simp only [entityHead, bind_done, pure_done, openBrace_done]
  constructor
  · rintro ⟨_, _, h, _, _, ⟨gap, brace⟩, rfl, rfl⟩
    obtain ⟨md, fits, rfl, run⟩ := metadata_sound h
    exact ⟨md, gap, fits, rfl, run.append brace⟩
  · rintro ⟨md, gap, fits, rfl, run⟩
    obtain ⟨mid, run, brace⟩ := Spells.append_iff.mp run
    refine ⟨_, mid, metadata_complete fits run ?_, (), rest, ⟨gap, brace⟩, rfl, rfl⟩
    intro _ bracket
    rw [peek_of_spells brace] at bracket
    cases gap <;> simp [List.replicate_succ] at bracket

end QueryBuilder.Reader
