import QueryBuilder.Json.Printer
import QueryBuilder.Json.Token
import QueryBuilder.Proofs.Schema.Lexing

set_option autoImplicit false

namespace QueryBuilder.Json

namespace Token

theorem hexUnit_control {n : Nat} (control : n < 0x20) :
    ∃ a b, (if n < 0x10 then '0' :: Nat.toDigits 16 n else Nat.toDigits 16 n) = [a, b] ∧
      hexUnit? '0' '0' a b = some n := by
  have all : ∀ n < 0x20,
      (if n < 0x10 then '0' :: Nat.toDigits 16 n else Nat.toDigits 16 n) =
        [Nat.digitChar (n / 16), Nat.digitChar (n % 16)] ∧
      hexUnit? '0' '0' (Nat.digitChar (n / 16)) (Nat.digitChar (n % 16)) = some n := by
    decide
  exact ⟨_, _, all n control⟩

theorem characters_unit {n : Nat} (low : n < 0xd800) (ps : List Piece) :
    characters? (.unit n :: ps) = (characters? ps).map (Char.ofNat n :: ·) := by
  have notHigh : isHighSurrogate n = false := by
    simp [isHighSurrogate, Nat.not_le.mpr low]
  have notLow : isLowSurrogate n = false := by
    simp only [isLowSurrogate, Bool.and_eq_false_iff, decide_eq_false_iff_not]
    omega
  rcases ps with _ | ⟨p, ps⟩
  · simp [characters?, notHigh, notLow]
  · cases p <;> simp [characters?, notHigh, notLow]

theorem pieces_escaped {e c : Char} (other : e ≠ 'u') (stands : unescape? e = some c)
    (rest : List Char) : pieces? ('\\' :: e :: rest) = (pieces? rest).map (consPiece (.char c)) := by
  rw [pieces?]
  · rw [stands, Option.bind_some]
  · intro _ _ _ _ _ head
    exact absurd head other

theorem pieces_plain {c : Char} (quote : c ≠ '"') (backslash : c ≠ '\\') (shown : ¬c.toNat < 0x20)
    (rest : List Char) : pieces? (c :: rest) = (pieces? rest).map (consPiece (.char c)) := by
  rw [pieces?]
  · simp [quote, backslash, shown]
  · simp [backslash]
  · simp [backslash]

theorem pieces_unit {a b : Char} {n : Nat} (stands : hexUnit? '0' '0' a b = some n)
    (rest : List Char) :
    pieces? ('\\' :: 'u' :: '0' :: '0' :: a :: b :: rest) =
      (pieces? rest).map (consPiece (.unit n)) := by
  rw [pieces?, stands, Option.bind_some]

theorem toList_escape {c : Char} (other : c ∉ ['"', '\\', '\n', '\r', '\t', '\x08', '\x0c']) :
    (escape c).toList =
      if c.toNat < 0x20 then
        '\\' :: 'u' :: '0' :: '0' ::
          if c.toNat < 0x10 then '0' :: Nat.toDigits 16 c.toNat else Nat.toDigits 16 c.toNat
      else [c] := by
  have backspace : c.toNat ≠ 0x8 := by
    intro same
    have here : c = '\x08' := Char.toNat_inj.mp same
    simp [here] at other
  have feed : c.toNat ≠ 0xc := by
    intro same
    have here : c = '\x0c' := Char.toNat_inj.mp same
    simp [here] at other
  unfold escape
  split
  case h_6 =>
    rw [if_neg backspace, if_neg feed]
    by_cases first : c.toNat < 0x10
    · simp [first, Nat.lt_trans first, Text.hexDigits]
    · by_cases control : c.toNat < 0x20 <;> simp [first, control, Text.hexDigits]
  all_goals simp at other

theorem exists_piece (c : Char) :
    ∃ p, (∀ rest, pieces? ((escape c).toList ++ rest) = (pieces? rest).map (consPiece p)) ∧
      ∀ ps, characters? (p :: ps) = (characters? ps).map (c :: ·) := by
  -- Some characters have a letter of their own, the other controls two hexadecimal digits.
  by_cases letter : c ∈ ['"', '\\', '\n', '\r', '\t', '\x08', '\x0c']
  · have stands : ∃ e, (escape c).toList = ['\\', e] ∧ e ≠ 'u' ∧ unescape? e = some c := by
      simp only [List.mem_cons, List.not_mem_nil, or_false] at letter
      rcases letter with rfl | rfl | rfl | rfl | rfl | rfl | rfl
      · exact ⟨'"', by decide⟩
      · exact ⟨'\\', by decide⟩
      · exact ⟨'n', by decide⟩
      · exact ⟨'r', by decide⟩
      · exact ⟨'t', by decide⟩
      · exact ⟨'b', by decide⟩
      · exact ⟨'f', by decide⟩
    obtain ⟨e, written, other, stands⟩ := stands
    refine ⟨.char c, fun rest => ?_, fun ps => by rw [characters?]⟩
    rw [written]
    exact pieces_escaped other stands rest
  · have written := toList_escape letter
    by_cases control : c.toNat < 0x20
    · obtain ⟨a, b, digits, stands⟩ := hexUnit_control control
      rw [if_pos control, digits] at written
      refine ⟨.unit c.toNat, fun rest => ?_, fun ps => ?_⟩
      · rw [written]
        exact pieces_unit stands rest
      · rw [characters_unit (by omega), Char.ofNat_toNat]
    · simp only [List.mem_cons, not_or] at letter
      rw [if_neg control] at written
      refine ⟨.char c, fun rest => ?_, fun ps => by rw [characters?]⟩
      rw [written]
      exact pieces_plain letter.1 letter.2.1 control rest

theorem exists_pieces (cs : List Char) :
    ∃ ps, (∀ rest,
        pieces? (cs.flatMap (fun c => (escape c).toList) ++ '"' :: rest) = some (ps, rest)) ∧
      characters? ps = some cs := by
  induction cs with
  | nil =>
    refine ⟨[], fun rest => ?_, rfl⟩
    rw [List.flatMap_nil, List.nil_append, pieces?]
    · simp
    · simp
    · simp
  | cons c cs ih =>
    obtain ⟨ps, inside, made⟩ := ih
    obtain ⟨p, first, next⟩ := exists_piece c
    refine ⟨p :: ps, fun rest => ?_, ?_⟩
    · rw [List.flatMap_cons, List.append_assoc, first, inside, Option.map_some]
      rfl
    · rw [next, made, Option.map_some]

-- Whether nothing at the head of a text could continue a number in front of it.
def Ends (rest : List Char) : Prop :=
  ∀ c ∈ rest.head?, Text.isDigit c = false ∧ c ≠ '.' ∧ c ≠ 'e' ∧ c ≠ 'E'

end Token

namespace Numeral

open Json.Token (Ends)

theorem isDigit_ofNat (n : Nat) : ∀ c ∈ Digits.ofNat n, Text.isDigit c = true := by
  intro c mem
  have digit := Nat.isDigit_of_mem_toDigits (by decide) (by decide) mem
  simpa [Text.isDigit, Char.isDigit, Char.le_def] using digit

theorem value_ofNat (n : Nat) : Digits.value (Digits.ofNat n) = n :=
  Nat.ofDigitChars_ten_toDigits

theorem ofNat_ne_nil (n : Nat) : Digits.ofNat n ≠ [] := Nat.toDigits_ne_nil

theorem ofNat_eq_cons {n : Nat} (positive : 0 < n) :
    ∃ d ds, Digits.ofNat n = d :: ds ∧ d ≠ '0' := by
  induction n using Nat.strongRecOn with
  | ind n ih =>
    rw [Digits.ofNat, Nat.toDigits_eq_if (by decide)]
    split
    · have all : ∀ n < 10, 0 < n → Nat.digitChar n ≠ '0' := by decide
      exact ⟨_, _, rfl, all n (by assumption) positive⟩
    · obtain ⟨d, ds, digits, leading⟩ := ih (n / 10) (by omega) (by omega)
      rw [Digits.ofNat] at digits
      rw [digits]
      exact ⟨d, _, rfl, leading⟩

theorem digits_ofNat (n : Nat) {rest : List Char} (ends : Ends rest) :
    digits? (Digits.ofNat n ++ rest) = some (Digits.ofNat n, rest) := by
  obtain ⟨taken, left⟩ := span_of_stop (isDigit_ofNat n) fun c head => (ends c head).1
  unfold digits?
  rw [taken, left]
  split
  · next empty => exact absurd empty (ofNat_ne_nil n)
  · rfl

theorem whole_ofNat (n : Nat) {rest : List Char} (ends : Ends rest) :
    whole? (Digits.ofNat n ++ rest) = some (Digits.ofNat n, rest) := by
  unfold whole?
  split
  · next rest' written =>
    -- A zero at the head is read alone, and only the number zero has one.
    rcases Nat.eq_zero_or_pos n with rfl | positive
    · cases written
      rfl
    · obtain ⟨d, ds, digits, leading⟩ := ofNat_eq_cons positive
      rw [digits] at written
      exact absurd (List.cons.inj written).1 leading
  · exact digits_ofNat n ends

theorem fraction_ends {rest : List Char} (ends : Ends rest) : fraction? rest = some ([], rest) := by
  unfold fraction?
  split
  · exact absurd rfl (ends '.' rfl).2.1
  · rfl

theorem exponent_ends {rest : List Char} (ends : Ends rest) :
    exponent? rest = some (none, rest) := by
  cases rest with
  | nil => rfl
  | cons c rest =>
    obtain ⟨-, -, small, capital⟩ := ends c rfl
    simp [exponent?, small, capital]

theorem head_intText (n : Int) (rest : List Char) :
    ∃ c cs, (Digits.intText n).toList ++ rest = c :: cs ∧ (Text.isDigit c = true ∨ c = '-') ∧
      ((c == '-') = decide (n < 0)) ∧
      (if decide (n < 0) = true then cs else c :: cs) = Digits.ofNat n.natAbs ++ rest := by
  unfold Digits.intText Digits.text
  by_cases negative : n < 0
  · refine ⟨'-', Digits.ofNat n.natAbs ++ rest, ?_, .inr rfl, ?_, ?_⟩
    · simp [negative]
    · simp [negative]
    · simp [negative]
  · obtain ⟨d, ds, digits⟩ := List.exists_cons_of_ne_nil (ofNat_ne_nil n.natAbs)
    have digit : Text.isDigit d = true :=
      isDigit_ofNat n.natAbs d (by rw [digits]; exact List.mem_cons_self)
    have unsigned : (d == '-') = false := by
      rw [beq_eq_false_iff_ne]
      rintro rfl
      exact absurd digit (by decide)
    refine ⟨d, ds ++ rest, ?_, .inl digit, ?_, ?_⟩
    · simp [negative, digits]
    · simp [negative, unsigned]
    · simp [negative, digits]

theorem read_intText (n : Int) {rest : List Char} (ends : Ends rest) :
    read? ((Digits.intText n).toList ++ rest) =
      some (⟨decide (n < 0), Digits.ofNat n.natAbs, [], true, 0⟩, rest) := by
  obtain ⟨c, cs, written, -, sign, digits⟩ := head_intText n rest
  have point : (rest.head? == some '.') = false := by
    cases rest with
    | nil => rfl
    | cons c rest => simpa using (ends c rfl).2.1
  simp [read?, written, sign, digits, whole_ofNat _ ends, point, fraction_ends ends,
    exponent_ends ends, -decide_eq_true_eq]

theorem value_intText (n : Integer) :
    value? ⟨decide (n.val < 0), Digits.ofNat n.val.natAbs, [], true, 0⟩ = some (.int n) := by
  have whole : (if decide (n.val < 0) = true then -(n.val.natAbs : Int) else n.val.natAbs) =
      n.val := by
    simp only [decide_eq_true_eq]
    split <;> omega
  have zero : (decide (n.val < 0) && n.val.natAbs == 0) = false := by
    simp only [Bool.and_eq_false_iff, decide_eq_false_iff_not, beq_eq_false_iff_ne]
    omega
  have fits : Integer.ofInt? n.val = some n := dif_pos ⟨n.lower, n.upper⟩
  simp only [value?, value_ofNat, zero, whole, fits]
  rfl

end Numeral

mutual

def Value.tokens : Value → List Token
  | .null => [.null]
  | .bool b => [.bool b]
  | .number n => [.number (some n)]
  | .string s => [.string (some s)]
  | .array items => Token.openBracket :: ([Token.comma].intercalate (itemTokens items) ++
      [Token.closeBracket])
  | .object members => Token.openBrace :: ([Token.comma].intercalate (memberTokens members) ++
      [Token.closeBrace])

def itemTokens : List Value → List (List Token)
  | [] => []
  | v :: rest => v.tokens :: itemTokens rest

def memberTokens : List (String × Value) → List (List Token)
  | [] => []
  | (k, v) :: rest => (Token.string (some k) :: Token.colon :: v.tokens) :: memberTokens rest

end

theorem itemTokens_eq (items : List Value) : itemTokens items = items.map Value.tokens := by
  induction items with
  | nil => rfl
  | cons v rest ih => rw [itemTokens, ih, List.map_cons]

theorem memberTokens_eq (members : List (String × Value)) :
    memberTokens members =
      members.map fun m => Token.string (some m.1) :: Token.colon :: m.2.tokens := by
  induction members with
  | nil => rfl
  | cons m rest ih => rw [memberTokens, ih, List.map_cons]

theorem compactItems_eq (items : List Value) : compactItems items = items.map Value.compact := by
  induction items with
  | nil => rfl
  | cons v rest ih => rw [compactItems, ih, List.map_cons]

theorem compactMembers_eq (members : List (String × Value)) :
    compactMembers members = members.map fun m => quote m.1 ++ ":" ++ m.2.compact := by
  induction members with
  | nil => rfl
  | cons m rest ih => rw [compactMembers, ih, List.map_cons]

namespace Token

theorem list_nil : list? [] = some [] := by rw [list?]

theorem list_cons {c : Char} {cs rest : List Char} {t : Token} (first : read? c cs = some (t, rest))
    (visible : isSpace c = false) : list? (c :: cs) = (list? rest).map (t :: ·) := by
  rw [list?, if_neg (by simp [visible])]
  split
  · next none => cases none.symm.trans first
  · next some =>
    cases some.symm.trans first
    rfl

-- The tokens of a text, whatever stands behind it that may.
def Yields (behind : List Char → Prop) (text : String) (ts : List Token) : Prop :=
  ∀ rest, behind rest → list? (text.toList ++ rest) = (list? rest).map (ts ++ ·)

def Anything (_ : List Char) : Prop := True

theorem Yields.append {p p' : List Char → Prop} {s text : String} {ts us : List Token}
    (front : Yields p s ts) (back : Yields p' text us)
    (stop : ∀ rest, p' rest → p (text.toList ++ rest)) : Yields p' (s ++ text) (ts ++ us) := by
  intro rest may
  rw [String.toList_append, List.append_assoc, front _ (stop rest may), back rest may,
    Option.map_map]
  simp only [Function.comp_def, List.append_assoc]

theorem Yields.ends {text : String} {ts : List Token} (yields : Yields Anything text ts) :
    Yields Ends text ts :=
  fun rest _ => yields rest trivial

theorem yields_mark {text : String} {c : Char} {t : Token} (written : text.toList = [c])
    (first : ∀ cs, read? c cs = some (t, cs)) (visible : isSpace c = false) :
    Yields Anything text [t] := by
  intro rest _
  rw [written]
  exact list_cons (first rest) visible

theorem yields_quote (s : String) : Yields Anything (quote s) [.string (some s)] := by
  intro rest _
  obtain ⟨ps, inside, made⟩ := exists_pieces s.toList
  have written : (quote s).toList ++ rest =
      '"' :: (s.toList.flatMap (fun c => (escape c).toList) ++ '"' :: rest) := by
    simp [quote, List.flatMap_map]
  rw [written]
  refine list_cons ?_ rfl
  rw [read?, inside, Option.map_some, made, Option.map_some, String.ofList_toList]

theorem read_numeral {c : Char} (first : Text.isDigit c = true ∨ c = '-') (cs : List Char) :
    read? c cs = (Numeral.read? (c :: cs)).map fun r => (.number r.1.value?, r.2) := by
  unfold read?
  split
  case h_11 => rfl
  all_goals exact absurd first (by decide)

theorem isSpace_numeral {c : Char} (first : Text.isDigit c = true ∨ c = '-') :
    isSpace c = false := by
  cases space : isSpace c with
  | false => rfl
  | true =>
    simp only [isSpace, Bool.or_eq_true, beq_iff_eq] at space
    rcases space with ((rfl | rfl) | rfl) | rfl <;> exact absurd first (by decide)

theorem yields_int (n : Integer) :
    Yields Ends (Digits.intText n.val) [.number (some (.int n))] := by
  intro rest ends
  have numeral := Numeral.read_intText n.val ends
  obtain ⟨c, cs, written, first, -⟩ := Numeral.head_intText n.val rest
  rw [written] at numeral ⊢
  refine list_cons ?_ (isSpace_numeral first)
  rw [read_numeral first, numeral, Option.map_some, Numeral.value_intText]

theorem ends_cons {c : Char} (other : Text.isDigit c = false ∧ c ≠ '.' ∧ c ≠ 'e' ∧ c ≠ 'E')
    (rest : List Char) : Ends (c :: rest) := by
  rintro _ ⟨⟩
  exact other

theorem yields_join {α : Type} {f : α → String} {g : α → List Token} {xs : List α}
    (each : ∀ x ∈ xs, Yields Ends (f x) (g x)) :
    Yields Ends (",".intercalate (xs.map f)) ([Token.comma].intercalate (xs.map g)) := by
  have comma : Yields Anything "," [Token.comma] := yields_mark rfl (fun _ => rfl) rfl
  induction xs with
  | nil => exact fun rest _ => by simp
  | cons x xs ih =>
    rw [List.forall_mem_cons] at each
    -- A comma ends whatever stands in front of it, a number included.
    have tail := comma.append (ih each.2) fun _ _ => trivial
    cases xs with
    | nil => simpa using each.1
    | cons y ys =>
      simp only [List.map_cons, String.intercalate_cons_cons, List.intercalate_cons_cons,
        String.append_assoc, List.append_assoc] at tail ⊢
      exact each.1.append tail fun rest _ => by simpa using ends_cons (by decide) _

theorem yields_enclose {opening closing : String} {t t' : Token} {texts : List String}
    {ts : List Token} (front : Yields Anything opening [t])
    (inside : Yields Ends (",".intercalate texts) ts) (back : Yields Anything closing [t'])
    (stop : ∀ rest, Ends (closing.toList ++ rest)) :
    Yields Anything (enclose opening closing texts) (t :: (ts ++ [t'])) := by
  rw [enclose, String.append_assoc]
  exact front.append (inside.append back fun rest _ => stop rest) fun _ _ => trivial

end Token

inductive Value.FloatFree : Value → Prop
  | null : FloatFree .null
  | bool (b : Bool) : FloatFree (.bool b)
  | int (n : Integer) : FloatFree (.number (.int n))
  | string (s : String) : FloatFree (.string s)
  | array {items : List Value} (each : ∀ v ∈ items, v.FloatFree) : FloatFree (.array items)
  | object {members : List (String × Value)} (each : ∀ m ∈ members, m.2.FloatFree) :
    FloatFree (.object members)

namespace Value

attribute [simp] FloatFree.null FloatFree.bool FloatFree.int FloatFree.string

@[simp]
theorem floatFree_array {items : List Value} :
    (array items).FloatFree ↔ ∀ v ∈ items, v.FloatFree :=
  ⟨fun | .array each => each, .array⟩

@[simp]
theorem floatFree_object {members : List (String × Value)} :
    (object members).FloatFree ↔ ∀ m ∈ members, m.2.FloatFree :=
  ⟨fun | .object each => each, .object⟩

end Value

open Json.Token in
theorem Value.yields_compact {v : Value} (exact : v.FloatFree) :
    Yields Ends v.compact v.tokens := by
  induction exact with
  | null => exact fun rest _ => list_cons rfl rfl
  | bool b => cases b <;> exact fun rest _ => list_cons rfl rfl
  | int n => exact yields_int n
  | string s => exact (yields_quote s).ends
  | @array items each ih =>
    rw [compact, tokens, compactItems_eq, itemTokens_eq]
    have front : Yields Anything "[" [Token.openBracket] := yields_mark rfl (fun _ => rfl) rfl
    have back : Yields Anything "]" [Token.closeBracket] := yields_mark rfl (fun _ => rfl) rfl
    exact (yields_enclose front (yields_join ih) back (ends_cons (c := ']') (by decide))).ends
  | @object members each ih =>
    have member : ∀ m ∈ members, Yields Ends (quote m.1 ++ ":" ++ m.2.compact)
        (Token.string (some m.1) :: Token.colon :: m.2.tokens) := by
      intro m mem
      have colon : Yields Anything ":" [Token.colon] := yields_mark rfl (fun _ => rfl) rfl
      have key := (yields_quote m.1).append colon fun _ _ => trivial
      exact key.append (ih m mem) fun _ _ => trivial
    rw [compact, tokens, compactMembers_eq, memberTokens_eq]
    have front : Yields Anything "\x7b" [Token.openBrace] := yields_mark rfl (fun _ => rfl) rfl
    have back : Yields Anything "\x7d" [Token.closeBrace] := yields_mark rfl (fun _ => rfl) rfl
    exact (yields_enclose front (yields_join member) back
      (ends_cons (c := '}') (by decide))).ends

theorem Value.list_compact {v : Value} (exact : v.FloatFree) :
    Token.list? v.compact.toList = some v.tokens := by
  have read := v.yields_compact exact [] nofun
  simpa [Token.list_nil] using read

end QueryBuilder.Json
