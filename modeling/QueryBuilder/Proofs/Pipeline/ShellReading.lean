import QueryBuilder.Pipeline.Shell
import QueryBuilder.Proofs.Json.Numerals

set_option autoImplicit false

namespace QueryBuilder.Pipeline.Shell

open Json (Value Token Numeral)

-- Of a number the text is kept.
inductive Tree where
  | null
  | bool (b : Bool)
  | number (text : String)
  | string (s : String)
  | array (items : List Tree)
  | object (members : List (String × Tree))

mutual

def Tree.ofValue : Value → Tree
  | .null => .null
  | .bool b => .bool b
  | .number n => .number n.text
  | .string s => .string s
  | .array items => .array (itemTrees items)
  | .object members => .object (memberTrees members)

def itemTrees : List Value → List Tree
  | [] => []
  | v :: rest => .ofValue v :: itemTrees rest

def memberTrees : List (String × Value) → List (String × Tree)
  | [] => []
  | (k, v) :: rest => (k, .ofValue v) :: memberTrees rest

end

def isBlank (c : Char) : Bool := c == ' ' || c == '\n'

def isNamePart (c : Char) : Bool := isNameStart c || Text.isDigit c

def skip (cs : List Char) : List Char := cs.dropWhile isBlank

def mark? (c : Char) (cs : List Char) : Option (List Char) :=
  match skip cs with
  | d :: rest => if d = c then some rest else none
  | [] => none

def word? (cs : List Char) : Option (String × List Char) :=
  match skip cs with
  | c :: rest =>
    if isNameStart c then
      some (String.ofList (c :: rest.takeWhile isNamePart), rest.dropWhile isNamePart)
    else none
  | [] => none

def string? (cs : List Char) : Option (String × List Char) := do
  let cs ← mark? '"' cs
  let (pieces, rest) ← Token.pieces? cs
  let inner ← Token.characters? pieces
  return (String.ofList inner, rest)

def number? (cs : List Char) : Option (String × List Char) :=
  (Numeral.read? (skip cs)).map fun r =>
    (String.ofList ((skip cs).take ((skip cs).length - r.2.length)), r.2)

def meaning? (word : String) (cs : List Char) : Option (Tree × List Char) :=
  if word = "null" then some (.null, cs)
  else if word = "true" then some (.bool true, cs)
  else if word = "false" then some (.bool false, cs)
  else if word = "ISODate" then do
    let cs ← mark? '(' cs
    let (date, cs) ← string? cs
    let cs ← mark? ')' cs
    return (.object [("$date", .string date)], cs)
  else none

def scalar? (cs : List Char) : Option (Tree × List Char) :=
  match word? cs, string? cs with
  | some (word, cs), _ => meaning? word cs
  | none, some (s, cs) => some (.string s, cs)
  | none, none => (number? cs).map fun r => (.number r.1, r.2)

def key? (cs : List Char) : Option (String × List Char) :=
  match word? cs with
  | some r => some r
  | none => string? cs

def member? (value? : List Char → Option (Tree × List Char)) (cs : List Char) :
    Option ((String × Tree) × List Char) := do
  let (key, cs) ← key? cs
  let cs ← mark? ':' cs
  let (value, cs) ← value? cs
  return ((key, value), cs)

section

variable {α : Type}

def items? (item? : List Char → Option (α × List Char)) (close : Char) :
    Nat → List Char → Option (List α × List Char)
  | 0, _ => none
  | fuel + 1, cs => do
    let (x, cs) ← item? cs
    match mark? close cs with
    | some cs => return ([x], cs)
    | none => do
      let cs ← mark? ',' cs
      let (xs, cs) ← items? item? close fuel cs
      return (x :: xs, cs)

def enclosed? (item? : List Char → Option (α × List Char)) (close : Char) (fuel : Nat)
    (cs : List Char) : Option (List α × List Char) :=
  match mark? close cs with
  | some cs => some ([], cs)
  | none => items? item? close fuel cs

end

def value? : Nat → List Char → Option (Tree × List Char)
  | 0, _ => none
  | fuel + 1, cs =>
    match mark? '[' cs, mark? '{' cs with
    | some cs, _ => (enclosed? (value? fuel) ']' fuel cs).map fun r => (.array r.1, r.2)
    | none, some cs =>
      (enclosed? (member? (value? fuel)) '}' fuel cs).map fun r => (.object r.1, r.2)
    | none, none => scalar? cs

def read? (text : String) : Option Tree := do
  let (tree, rest) ← value? text.toList.length text.toList
  if skip rest = [] then some tree else none

def collection? (cs : List Char) : Option (String × List Char) := do
  let (word, rest) ← word? cs
  match if word = "getCollection" then mark? '(' rest else none with
  | none => return (word, rest)
  | some rest => do
    let (name, rest) ← string? rest
    let rest ← mark? ')' rest
    return (name, rest)

def behind? : List Char → List Char → Option (List Char)
  | [], cs => some cs
  | c :: front, d :: cs => if d = c then behind? front cs else none
  | _ :: _, [] => none

def call? (text : String) : Option (String × Tree) := do
  let cs ← behind? "db.".toList text.toList
  let (collection, cs) ← collection? cs
  let cs ← behind? ".aggregate(".toList cs
  let (tree, cs) ← value? cs.length cs
  if cs = [')'] then some (collection, tree) else none

def Skips {β : Type} (reader : List Char → β) : Prop :=
  ∀ cs cs', skip cs = skip cs' → reader cs = reader cs'

theorem eq_of_isBlank {c : Char} (blank : isBlank c = true) : c = ' ' ∨ c = '\n' := by
  simpa [isBlank] using blank

theorem isBlank_nil : ∀ c ∈ ([] : List Char), isBlank c = true := List.all_eq_true.mp rfl

theorem isBlank_space : ∀ c ∈ [' '], isBlank c = true := List.all_eq_true.mp rfl

theorem skip_append {pad : List Char} (blank : ∀ c ∈ pad, isBlank c = true) (cs : List Char) :
    skip (pad ++ cs) = skip cs :=
  List.dropWhile_append_of_pos blank

theorem skip_cons {c : Char} (shown : isBlank c = false) (cs : List Char) :
    skip (c :: cs) = c :: cs := by
  simp [skip, shown]

theorem skips_mark (c : Char) : Skips (mark? c) := by
  intro cs cs' same
  simp only [mark?, same]

theorem skips_word : Skips word? := by
  intro cs cs' same
  simp only [word?, same]

theorem skips_string : Skips string? := by
  intro cs cs' same
  simp only [string?, skips_mark _ cs cs' same]

theorem skips_key : Skips key? := by
  intro cs cs' same
  simp only [key?, skips_word cs cs' same, skips_string cs cs' same]

theorem skips_scalar : Skips scalar? := by
  intro cs cs' same
  simp only [scalar?, number?, skips_word cs cs' same, skips_string cs cs' same, same]

theorem skips_member (reader : List Char → Option (Tree × List Char)) : Skips (member? reader) := by
  intro cs cs' same
  simp only [member?, skips_key cs cs' same]

theorem skips_value (fuel : Nat) : Skips (value? fuel) := by
  intro cs cs' same
  cases fuel with
  | zero => rfl
  | succ fuel =>
    simp only [value?, skips_mark _ cs cs' same, skips_scalar cs cs' same]

theorem mark_cons {c : Char} (shown : isBlank c = false) (cs : List Char) :
    mark? c (c :: cs) = some cs := by
  simp [mark?, skip_cons shown]

theorem skip_of_mark {c : Char} {cs rest : List Char} (marked : mark? c cs = some rest) :
    skip cs = c :: rest := by
  unfold mark? at marked
  split at marked
  · next d rest' here =>
    split at marked
    · next same =>
      cases marked
      rw [here, same]
    · cases marked
  · cases marked

theorem mark_other {c d : Char} (shown : isBlank d = false) (other : d ≠ c) (cs : List Char) :
    mark? c (d :: cs) = none := by
  simp [mark?, skip_cons shown, other]

-- Whether nothing at the head of a text could continue a word or a number in front of it.
def Stops (rest : List Char) : Prop := ∀ c ∈ rest.head?, isNamePart c = false ∧ c ≠ '.'

def Reads {α : Type} (reader : List Char → Option (α × List Char)) (text : List Char) (x : α) :
    Prop :=
  ∀ rest, Stops rest → reader (text ++ rest) = some (x, rest)

theorem stops_nil : Stops [] := nofun

theorem stops_cons {c : Char} (other : isNamePart c = false ∧ c ≠ '.') (rest : List Char) :
    Stops (c :: rest) := by
  rintro _ ⟨⟩
  exact other

theorem stops_blank {tail rest : List Char} (blank : ∀ c ∈ tail, isBlank c = true)
    (stops : Stops rest) : Stops (tail ++ rest) := by
  cases tail with
  | nil => exact stops
  | cons c tail =>
    refine stops_cons ?_ _
    rcases eq_of_isBlank (blank c List.mem_cons_self) with rfl | rfl <;> decide

theorem Stops.ends {rest : List Char} (stops : Stops rest) : Token.Ends rest := by
  intro c head
  obtain ⟨other, point⟩ := stops c head
  refine ⟨?_, point, ?_, ?_⟩
  · exact (Bool.or_eq_false_iff.mp other).2
  · rintro rfl
    exact absurd other (by decide)
  · rintro rfl
    exact absurd other (by decide)

theorem word_append {word : String} (bare : isBare word = true) {rest : List Char}
    (stop : ∀ c ∈ rest.head?, isNamePart c = false) :
    word? (word.toList ++ rest) = some (word, rest) := by
  unfold isBare at bare
  split at bare
  · cases bare
  · next c cs written =>
    obtain ⟨start, inner⟩ := Bool.and_eq_true_iff.mp bare
    have shown : isBlank c = false := by
      cases blank : isBlank c with
      | false => rfl
      | true => rcases eq_of_isBlank blank with rfl | rfl <;> exact absurd start (by decide)
    obtain ⟨taken, left⟩ := span_of_stop (List.all_eq_true.mp inner) stop
    have name : String.ofList (c :: cs) = word := by rw [← written, String.ofList_toList]
    rw [written, List.cons_append, word?, skip_cons shown]
    simp only [start, if_true]
    rw [← name]
    exact congrArg some (Prod.ext (congrArg (fun cs => String.ofList (c :: cs)) taken) left)

theorem reads_word {word : String} (bare : isBare word = true) :
    Reads word? word.toList word :=
  fun _ stops => word_append bare fun c head => (stops c head).1

theorem string_quote (s : String) (rest : List Char) :
    string? ((Json.quote s).toList ++ rest) = some (s, rest) := by
  obtain ⟨pieces, inside, made⟩ := Token.exists_pieces s.toList
  have written : (Json.quote s).toList ++ rest =
      '"' :: (s.toList.flatMap (fun c => (Json.escape c).toList) ++ '"' :: rest) := by
    simp [Json.quote, List.flatMap_map]
  rw [written, string?, mark_cons rfl]
  simp [inside, made]

theorem word_quote (s : String) (rest : List Char) :
    word? ((Json.quote s).toList ++ rest) = none := by
  simp [word?, Json.quote, skip_cons (c := '"') rfl, show isNameStart '"' = false from rfl]

theorem reads_keyText (key : String) : Reads key? (keyText key).toList key := by
  intro rest stops
  unfold keyText
  split
  · next bare => rw [key?, reads_word bare rest stops]
  · rw [key?, word_quote, string_quote]

theorem numeral_start {c : Char} (first : Text.isDigit c = true ∨ c = '-') :
    isBlank c = false ∧ isNameStart c = false ∧ c ≠ '"' ∧ c ≠ '[' ∧ c ≠ '{' := by
  rcases first with digit | rfl
  · have all : ∀ n < 58, 48 ≤ n → isBlank (Char.ofNat n) = false ∧
        isNameStart (Char.ofNat n) = false ∧ Char.ofNat n ≠ '"' ∧ Char.ofNat n ≠ '[' ∧
        Char.ofNat n ≠ '{' := by
      decide
    obtain ⟨low, high⟩ := Bool.and_eq_true_iff.mp digit
    have low : 48 ≤ c.toNat := by simpa [Char.le_def, UInt32.le_iff_toNat_le] using low
    have high : c.toNat ≤ 57 := by simpa [Char.le_def, UInt32.le_iff_toNat_le] using high
    have here := all c.toNat (by omega) low
    rwa [Char.ofNat_toNat] at here
  · decide

theorem scalar_numeral (n : Json.Number) : Reads scalar? n.text.toList (.number n.text) := by
  intro rest stops
  have numeral := Numeral.isNumeral_text n
  obtain ⟨value, read⟩ := Numeral.read_isNumeral numeral stops.ends
  obtain ⟨c, cs, written, first⟩ := Numeral.head_isNumeral numeral
  obtain ⟨shown, start, quote, -⟩ := numeral_start first
  have here : skip (n.text.toList ++ rest) = n.text.toList ++ rest := by
    rw [written]
    exact skip_cons shown _
  have word : word? (n.text.toList ++ rest) = none := by
    simp [word?, written, skip_cons shown, start]
  have string : string? (n.text.toList ++ rest) = none := by
    simp [string?, written, mark_other shown quote]
  have number : number? (n.text.toList ++ rest) = some (n.text, rest) := by
    rw [number?, here, read]
    simp
  rw [scalar?, word, string, number]
  rfl

theorem scalar_string (s : String) : Reads scalar? (Json.quote s).toList (.string s) := by
  intro rest _
  rw [scalar?, word_quote, string_quote]

theorem scalar_word {word : String} {tree : Tree} (bare : isBare word = true)
    (means : ∀ cs, meaning? word cs = some (tree, cs)) : Reads scalar? word.toList tree := by
  intro rest stops
  rw [scalar?, reads_word bare rest stops]
  exact means rest

theorem scalar_date (date : String) :
    Reads scalar? ("ISODate(" ++ Json.quote date ++ ")").toList
      (.object [("$date", .string date)]) := by
  intro rest _
  have written : ("ISODate(" ++ Json.quote date ++ ")").toList ++ rest =
      "ISODate".toList ++ '(' :: ((Json.quote date).toList ++ ')' :: rest) := by
    simp
  rw [written, scalar?, reads_word (by decide) _ (stops_cons (by decide) _)]
  simp [meaning?, mark_cons (c := '(') rfl, mark_cons (c := ')') rfl, string_quote]

inductive Spaced : List (List Char) → List Char → Prop
  | nil {pad : List Char} (blank : ∀ c ∈ pad, isBlank c = true) : Spaced [] pad
  | last {pad item tail : List Char} (blank : ∀ c ∈ pad, isBlank c = true)
    (behind : ∀ c ∈ tail, isBlank c = true) : Spaced [item] (pad ++ (item ++ tail))
  | cons {pad item next text : List Char} {rest : List (List Char)}
    (blank : ∀ c ∈ pad, isBlank c = true) (others : Spaced (next :: rest) text) :
    Spaced (item :: next :: rest) (pad ++ (item ++ ',' :: text))

theorem Spaced.length {items : List (List Char)} {text : List Char} (spaced : Spaced items text) :
    items.length ≤ text.length + 1 ∧ ∀ item ∈ items, item.length ≤ text.length := by
  induction spaced with
  | nil => exact ⟨Nat.zero_le _, nofun⟩
  | last =>
    refine ⟨by simp, fun item mem => ?_⟩
    rw [List.mem_singleton.mp mem]
    simp only [List.length_append]
    omega
  | cons _ _ ih =>
    simp only [List.length_append, List.length_cons] at ih ⊢
    refine ⟨by omega, List.forall_mem_cons.mpr ⟨by omega, fun item mem => ?_⟩⟩
    have := ih.2 item mem
    omega

section

variable {α β : Type} {item? : List Char → Option (β × List Char)} {f : α → List Char} {g : α → β}
  {xs : List α} {text : List Char} {close : Char}

theorem items_spaced (skips : Skips item?) (other : isNamePart close = false ∧ close ≠ '.')
    (shown : isBlank close = false) (comma : ',' ≠ close) (spaced : Spaced (xs.map f) text)
    (each : ∀ x ∈ xs, Reads item? (f x) (g x)) (filled : xs ≠ []) {fuel : Nat}
    (enough : xs.length ≤ fuel) (rest : List Char) :
    items? item? close fuel (text ++ close :: rest) = some (xs.map g, rest) := by
  induction xs generalizing text fuel with
  | nil => exact absurd rfl filled
  | cons x xs ih =>
    obtain ⟨here, behind⟩ := List.forall_mem_cons.mp each
    cases fuel with
    | zero => exact absurd enough (Nat.not_succ_le_zero _)
    | succ fuel =>
      cases xs with
      | nil =>
        cases spaced with
        | @last pad _ tail blank after =>
          have first := here (tail ++ close :: rest) (stops_blank after (stops_cons other _))
          have last : mark? close (tail ++ close :: rest) = some rest :=
            (skips_mark close _ _ (skip_append after _)).trans (mark_cons shown rest)
          rw [items?, List.append_assoc, List.append_assoc,
            skips _ _ (skip_append blank _), first]
          simp [last]
      | cons y ys =>
        cases spaced with
        | @cons pad _ _ text' _ blank others =>
          have first := here (',' :: (text' ++ close :: rest)) (stops_cons (by decide) _)
          have next := ih others behind (List.cons_ne_nil y ys) (Nat.le_of_succ_le_succ enough)
          rw [items?, List.append_assoc, List.append_assoc,
            skips _ _ (skip_append blank _), List.cons_append, first]
          simp [mark_other (c := close) (d := ',') rfl comma, mark_cons (c := ',') rfl, next]

theorem enclosed_spaced (skips : Skips item?) (other : isNamePart close = false ∧ close ≠ '.')
    (shown : isBlank close = false) (comma : ',' ≠ close)
    (ends : ∀ cs, item? (close :: cs) = none) (spaced : Spaced (xs.map f) text)
    (each : ∀ x ∈ xs, Reads item? (f x) (g x)) {fuel : Nat} (enough : xs.length ≤ fuel)
    (rest : List Char) :
    enclosed? item? close fuel (text ++ close :: rest) = some (xs.map g, rest) := by
  cases xs with
  | nil =>
    cases spaced with
    | nil blank =>
      have last : mark? close (text ++ close :: rest) = some rest :=
        (skips_mark close _ _ (skip_append blank _)).trans (mark_cons shown rest)
      rw [enclosed?, last]
      rfl
  | cons x xs =>
    have read :=
      items_spaced skips other shown comma spaced each (List.cons_ne_nil x xs) enough rest
    -- What starts with the mark is no item, but there is one.
    have unclosed : mark? close (text ++ close :: rest) = none := by
      cases marked : mark? close (text ++ close :: rest) with
      | none => rfl
      | some behind =>
        have same := skips _ _ ((skip_of_mark marked).trans (skip_cons shown behind).symm)
        cases fuel with
        | zero => cases read
        | succ fuel =>
          rw [items?, same, ends] at read
          cases read
    rw [enclosed?, unclosed, read]

end

theorem value_closed (fuel : Nat) (cs : List Char) : value? fuel (']' :: cs) = none := by
  cases fuel <;> rfl

theorem member_closed (reader : List Char → Option (Tree × List Char)) (cs : List Char) :
    member? reader ('}' :: cs) = none := rfl

end QueryBuilder.Pipeline.Shell
