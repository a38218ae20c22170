import QueryBuilder.Proofs.Pipeline.ShellReading

set_option autoImplicit false

namespace QueryBuilder.Pipeline.Shell

open Json (Value Numeral)

def Encloses (opening closing : Char) (items : List String) (text : String) : Prop :=
  ∃ inner, text.toList = opening :: (inner ++ [closing]) ∧
    Spaced (items.map String.toList) inner

theorem spaced_joined {front pad tail : List Char} (first : ∀ c ∈ front, isBlank c = true)
    (blank : ∀ c ∈ pad, isBlank c = true) (behind : ∀ c ∈ tail, isBlank c = true) (item : String)
    (rest : List String) :
    Spaced ((item :: rest).map String.toList)
      (front ++ (((String.ofList (',' :: pad)).intercalate (item :: rest)).toList ++ tail)) := by
  induction rest generalizing item front with
  | nil => simpa using @Spaced.last front item.toList tail first behind
  | cons next rest ih =>
    have others := @Spaced.cons front item.toList _ _ _ first (ih blank next)
    simpa [String.intercalate_cons_cons] using others

theorem encloses_joined {opening closing : Char} {front pad tail : List Char}
    (first : ∀ c ∈ front, isBlank c = true) (blank : ∀ c ∈ pad, isBlank c = true)
    (behind : ∀ c ∈ tail, isBlank c = true) {items : List String} (filled : items ≠ [])
    {text : String}
    (written : text.toList = opening ::
      (front ++ ((String.ofList (',' :: pad)).intercalate items).toList ++ tail ++ [closing])) :
    Encloses opening closing items text := by
  obtain ⟨item, rest, rfl⟩ := List.exists_cons_of_ne_nil filled
  refine ⟨_, written.trans ?_, spaced_joined first blank behind item rest⟩
  simp

theorem encloses_nil (opening closing : Char) :
    Encloses opening closing [] (String.ofList [opening, closing]) :=
  ⟨[], by simp, .nil isBlank_nil⟩

theorem isBlank_margin (level : Nat) : ∀ c ∈ (Json.margin level).toList, isBlank c = true := by
  intro c mem
  rw [Json.margin, String.toList_ofList] at mem
  rw [List.eq_of_mem_replicate mem]
  rfl

theorem intercalate_padded (pad : String) (item : String) (rest : List String) :
    ",".intercalate ((item :: rest).map (pad ++ ·)) =
      pad ++ ("," ++ pad).intercalate (item :: rest) := by
  induction rest generalizing item with
  | nil => simp
  | cons next rest ih =>
    have others := ih next
    simp only [List.map_cons, String.intercalate_cons_cons] at others ⊢
    rw [others]
    simp [String.append_assoc]

theorem encloses_lines (level : Nat) {opening closing : Char} (items : List String) :
    Encloses opening closing items
      (Json.encloseLines level (String.singleton opening) (String.singleton closing) items) := by
  cases items with
  | nil => simpa [Json.encloseLines] using encloses_nil opening closing
  | cons item rest =>
    have line (level : Nat) : ∀ c ∈ '\n' :: (Json.margin level).toList, isBlank c = true :=
      List.forall_mem_cons.mpr ⟨rfl, isBlank_margin level⟩
    refine encloses_joined (line (level + 1)) (line (level + 1)) (line level)
      (List.cons_ne_nil item rest) ?_
    have padded := intercalate_padded ("\n" ++ Json.margin (level + 1)) item rest
    have sep : "," ++ ("\n" ++ Json.margin (level + 1)) =
        String.ofList (',' :: '\n' :: (Json.margin (level + 1)).toList) := by
      apply String.toList_inj.mp
      simp
    rw [sep] at padded
    simp only [Json.encloseLines, List.isEmpty_cons, Bool.false_eq_true, if_false, padded]
    simp

theorem encloses_tight {opening closing : Char} (items : List String) :
    Encloses opening closing items
      (Json.enclose (String.singleton opening) (String.singleton closing) items) := by
  cases items with
  | nil => simpa [Json.enclose] using encloses_nil opening closing
  | cons item rest =>
    refine encloses_joined isBlank_nil isBlank_nil isBlank_nil (List.cons_ne_nil item rest) ?_
    simp [Json.enclose]

theorem encloses_braces (pretty : Bool) (level : Nat) (items : List String) :
    Encloses '{' '}' items (braces pretty level items) := by
  unfold braces
  split
  · next empty =>
    rw [List.isEmpty_iff.mp empty]
    exact encloses_nil _ _
  split
  · exact encloses_lines level items
  · next filled _ =>
    refine encloses_joined isBlank_space isBlank_space isBlank_space (by simpa using filled) ?_
    simp

theorem encloses_brackets (pretty : Bool) (level : Nat) (items : List String) :
    Encloses '[' ']' items (brackets pretty level items) := by
  unfold brackets
  split
  · exact encloses_lines level items
  · cases items with
    | nil => exact encloses_nil _ _
    | cons item rest =>
      refine encloses_joined isBlank_nil isBlank_space isBlank_nil (List.cons_ne_nil item rest) ?_
      simp

def Holds (text : String) (tree : Tree) : Prop :=
  ∀ fuel, text.toList.length ≤ fuel → Reads (value? fuel) text.toList tree

theorem value_bracket (fuel : Nat) (cs : List Char) :
    value? (fuel + 1) ('[' :: cs) =
      (enclosed? (value? fuel) ']' fuel cs).map fun r => (.array r.1, r.2) := rfl

theorem value_brace (fuel : Nat) (cs : List Char) :
    value? (fuel + 1) ('{' :: cs) =
      (enclosed? (member? (value? fuel)) '}' fuel cs).map fun r => (.object r.1, r.2) := rfl

theorem itemTrees_eq (items : List Value) : itemTrees items = items.map Tree.ofValue := by
  induction items with
  | nil => rfl
  | cons v rest ih => rw [itemTrees, ih, List.map_cons]

theorem memberTrees_eq (members : List (String × Value)) :
    memberTrees members = members.map fun m => (m.1, Tree.ofValue m.2) := by
  induction members with
  | nil => rfl
  | cons m rest ih => rw [memberTrees, ih, List.map_cons]

theorem holds_scalar {text : String} {tree : Tree} {c : Char} {cs : List Char}
    (reads : Reads scalar? text.toList tree) (written : text.toList = c :: cs)
    (other : isBlank c = false ∧ c ≠ '[' ∧ c ≠ '{') : Holds text tree := by
  obtain ⟨shown, bracket, brace⟩ := other
  intro fuel enough rest stops
  cases fuel with
  | zero => simp [written] at enough
  | succ fuel =>
    have read := reads rest stops
    rw [written, List.cons_append] at read ⊢
    rw [value?, mark_other shown bracket, mark_other shown brace]
    exact read

theorem holds_number (n : Json.Number) : Holds n.text (.number n.text) := by
  obtain ⟨c, cs, written, first⟩ := Numeral.head_isNumeral (Numeral.isNumeral_text n)
  obtain ⟨shown, -, -, marks⟩ := numeral_start first
  exact holds_scalar (scalar_numeral n) written ⟨shown, marks⟩

theorem holds_string (s : String) : Holds (Json.quote s) (.string s) := by
  have written : (Json.quote s).toList =
      '"' :: ((String.join (s.toList.map Json.escape)).toList ++ ['"']) := by
    simp [Json.quote]
  exact holds_scalar (scalar_string s) written (by decide)

theorem holds_date (date : String) :
    Holds ("ISODate(" ++ Json.quote date ++ ")") (.object [("$date", .string date)]) := by
  have written : ("ISODate(" ++ Json.quote date ++ ")").toList =
      'I' :: ("SODate(" ++ Json.quote date ++ ")").toList := by
    simp
  exact holds_scalar (scalar_date date) written (by decide)

theorem holds_null : Holds "null" .null :=
  holds_scalar (scalar_word (by decide) fun _ => rfl) rfl (by decide)

theorem holds_bool (b : Bool) : Holds (if b then "true" else "false") (.bool b) := by
  cases b
  · exact holds_scalar (scalar_word (by decide) fun _ => rfl) rfl (by decide)
  · exact holds_scalar (scalar_word (by decide) fun _ => rfl) rfl (by decide)

theorem holds_array {items : List Value} {write : Value → String} {text : String}
    (encloses : Encloses '[' ']' (items.map write) text)
    (each : ∀ v ∈ items, Holds (write v) (.ofValue v)) :
    Holds text (.ofValue (.array items)) := by
  obtain ⟨inner, written, spaced⟩ := encloses
  intro fuel enough rest _
  rw [written, List.length_cons, List.length_append, List.length_singleton] at enough
  cases fuel with
  | zero => exact absurd enough (Nat.not_succ_le_zero _)
  | succ fuel =>
    rw [List.map_map] at spaced
    obtain ⟨count, longest⟩ := spaced.length
    have item : ∀ v ∈ items, Reads (value? fuel) (write v).toList (.ofValue v) := by
      intro v mem
      have short : (write v).toList.length ≤ inner.length := longest _ (List.mem_map_of_mem mem)
      exact each v mem fuel (by omega)
    have some : items.length ≤ fuel := by
      rw [List.length_map] at count
      omega
    have inside := enclosed_spaced (skips_value fuel) (by decide) rfl (by decide)
      (value_closed fuel) spaced item some rest
    rw [written, List.cons_append, List.append_assoc, List.singleton_append, value_bracket,
      inside, Tree.ofValue, itemTrees_eq]
    rfl

theorem holds_object {members : List (String × Value)} {key : String → String}
    {colon : String} {write : Value → String} {text : String}
    (encloses : Encloses '{' '}' (members.map fun m => key m.1 ++ colon ++ write m.2) text)
    (keys : ∀ k, Reads key? (key k).toList k) {pad : List Char} (mark : colon.toList = ':' :: pad)
    (blank : ∀ c ∈ pad, isBlank c = true)
    (each : ∀ m ∈ members, Holds (write m.2) (.ofValue m.2)) :
    Holds text (.ofValue (.object members)) := by
  obtain ⟨inner, written, spaced⟩ := encloses
  intro fuel enough rest _
  rw [written, List.length_cons, List.length_append, List.length_singleton] at enough
  cases fuel with
  | zero => exact absurd enough (Nat.not_succ_le_zero _)
  | succ fuel =>
    rw [List.map_map] at spaced
    obtain ⟨count, longest⟩ := spaced.length
    have member : ∀ m ∈ members, Reads (member? (value? fuel))
        (key m.1 ++ colon ++ write m.2).toList (m.1, .ofValue m.2) := by
      intro m mem behind stops
      have short : (key m.1 ++ colon ++ write m.2).toList.length ≤ inner.length :=
        longest _ (List.mem_map_of_mem mem)
      simp only [String.toList_append, List.length_append] at short
      have value := each m mem fuel (by omega) behind stops
      have first := keys m.1 (':' :: (pad ++ ((write m.2).toList ++ behind)))
        (stops_cons (by decide) _)
      have colon := mark_cons (c := ':') rfl (pad ++ ((write m.2).toList ++ behind))
      simp only [String.toList_append, mark, List.append_assoc, List.cons_append, member?, first,
        Option.bind_eq_bind, Option.bind_some, colon, skips_value fuel _ _ (skip_append blank _),
        value]
      rfl
    have some : members.length ≤ fuel := by
      rw [List.length_map] at count
      omega
    have inside := enclosed_spaced (g := fun m : String × Value => (m.1, Tree.ofValue m.2))
      (skips_member (value? fuel)) (by decide) rfl (by decide) (member_closed (value? fuel)) spaced
      member some rest
    rw [written, List.cons_append, List.append_assoc, List.singleton_append, value_brace,
      inside, Tree.ofValue, memberTrees_eq]
    rfl

theorem itemTexts_eq (pretty : Bool) (level : Nat) (items : List Value) :
    itemTexts pretty level items = items.map (text pretty level) := by
  induction items with
  | nil => rfl
  | cons v rest ih => rw [itemTexts, ih, List.map_cons]

theorem memberTexts_eq (pretty : Bool) (level : Nat) (members : List (String × Value)) :
    memberTexts pretty level members =
      members.map fun m => keyText m.1 ++ ": " ++ text pretty level m.2 := by
  induction members with
  | nil => rfl
  | cons m rest ih => rw [memberTexts, ih, List.map_cons]

theorem prettyItems_eq (level : Nat) (items : List Value) :
    Json.prettyItems level items = items.map (Value.prettyAt level) := by
  induction items with
  | nil => rfl
  | cons v rest ih => rw [Json.prettyItems, ih, List.map_cons]

theorem prettyMembers_eq (level : Nat) (members : List (String × Value)) :
    Json.prettyMembers level members =
      members.map fun m => Json.quote m.1 ++ ": " ++ m.2.prettyAt level := by
  induction members with
  | nil => rfl
  | cons m rest ih => rw [Json.prettyMembers, ih, List.map_cons]

theorem reads_quote (key : String) : Reads key? (Json.quote key).toList key := by
  intro rest _
  rw [key?, word_quote, string_quote]

theorem holds_text (pretty : Bool) (level : Nat) (v : Value) :
    Holds (text pretty level v) (.ofValue v) := by
  induction v using Value.induction generalizing level with
  | null => exact holds_null
  | bool b => exact holds_bool b
  | number n => exact holds_number n
  | string s => exact holds_string s
  | array items each =>
    rw [text, itemTexts_eq]
    exact holds_array (encloses_brackets pretty level _) fun v mem => each v mem (level + 1)
  | object members each =>
    by_cases date : ∃ s, members = [("$date", .string s)]
    · obtain ⟨s, rfl⟩ := date
      rw [text]
      exact holds_date s
    · rw [text, memberTexts_eq]
      · exact holds_object (encloses_braces pretty level _) reads_keyText rfl isBlank_space
          fun m mem => each m mem (level + 1)
      · exact fun s same => date ⟨s, same⟩

theorem holds_compact (v : Value) : Holds v.compact (.ofValue v) := by
  induction v using Value.induction with
  | null => exact holds_null
  | bool b => exact holds_bool b
  | number n => exact holds_number n
  | string s => exact holds_string s
  | array items each =>
    rw [Value.compact, Json.compactItems_eq]
    exact holds_array (encloses_tight _) each
  | object members each =>
    rw [Value.compact, Json.compactMembers_eq]
    exact holds_object (encloses_tight _) reads_quote rfl isBlank_nil each

theorem holds_prettyAt (level : Nat) (v : Value) : Holds (v.prettyAt level) (.ofValue v) := by
  induction v using Value.induction generalizing level with
  | null => exact holds_null
  | bool b => exact holds_bool b
  | number n => exact holds_number n
  | string s => exact holds_string s
  | array items each =>
    rw [Value.prettyAt, prettyItems_eq]
    exact holds_array (encloses_lines level _) fun v mem => each v mem (level + 1)
  | object members each =>
    rw [Value.prettyAt, prettyMembers_eq]
    exact holds_object (encloses_lines level _) reads_quote rfl isBlank_space
      fun m mem => each m mem (level + 1)

theorem read_of_holds {text : String} {tree : Tree} (holds : Holds text tree) :
    read? text = some tree := by
  have read := holds _ (Nat.le_refl _) [] stops_nil
  rw [List.append_nil] at read
  rw [read?, read]
  rfl

theorem behind_append (front cs : List Char) : behind? front (front ++ cs) = some cs := by
  induction front with
  | nil => rfl
  | cons c front ih => simpa [behind?] using ih

theorem collection_text (collection : String) (rest : List Char) :
    ∃ cs, (collectionText collection).toList ++ '.' :: rest = "db.".toList ++ cs ∧
      collection? cs = some (collection, '.' :: rest) := by
  have dot : ∀ c ∈ ('.' :: rest).head?, isNamePart c = false := by
    rintro _ ⟨⟩
    rfl
  unfold collectionText
  split
  · next bare =>
    refine ⟨collection.toList ++ '.' :: rest, by simp, ?_⟩
    have marked : mark? '(' ('.' :: rest) = none := mark_other rfl (by decide) rest
    rw [collection?, word_append (Bool.and_eq_true_iff.mp bare).1 dot]
    simp [marked]
  · refine ⟨"getCollection".toList ++ '(' :: ((Json.quote collection).toList ++ ')' :: '.' :: rest),
      by simp, ?_⟩
    rw [collection?, reads_word (by decide) _ (stops_cons (by decide) _)]
    simp [mark_cons (c := '(') rfl, mark_cons (c := ')') rfl, string_quote]

theorem call_text (p : Pipeline) (pretty : Bool) :
    call? (p.text ⟨.shell, pretty⟩) = some (p.collection, .ofValue p.document) := by
  generalize shown : (text pretty 0 p.document).toList ++ [')'] = argument
  obtain ⟨cs, written, collection⟩ :=
    collection_text p.collection ("aggregate(".toList ++ argument)
  have whole : (p.text ⟨.shell, pretty⟩).toList = "db.".toList ++ cs := by
    rw [← written, ← shown]
    simp [Pipeline.text]
  have call : behind? ".aggregate(".toList ('.' :: ("aggregate(".toList ++ argument)) =
      some argument :=
    behind_append ".aggregate(".toList argument
  have value : value? argument.length argument = some (.ofValue p.document, [')']) := by
    rw [← shown]
    exact holds_text pretty 0 p.document _ (by simp) [')'] (stops_cons (by decide) [])
  rw [call?, whole, behind_append]
  simp only [Option.bind_eq_bind, Option.bind_some, collection, call, value, if_true]

mutual

def Tree.compact : Tree → String
  | .null => "null"
  | .bool b => if b then "true" else "false"
  | .number text => text
  | .string s => Json.quote s
  | .array items => Json.enclose "[" "]" (compactTrees items)
  | .object members => Json.enclose "\x7b" "\x7d" (compactMemberTrees members)

def compactTrees : List Tree → List String
  | [] => []
  | t :: rest => t.compact :: compactTrees rest

def compactMemberTrees : List (String × Tree) → List String
  | [] => []
  | (k, t) :: rest => (Json.quote k ++ ":" ++ t.compact) :: compactMemberTrees rest

end

theorem compact_ofValue (v : Value) : (Tree.ofValue v).compact = v.compact := by
  induction v using Value.induction with
  | null | bool | number | string => rfl
  | array items each =>
    rw [Tree.ofValue, Tree.compact, Value.compact]
    congr 1
    induction items with
    | nil => rfl
    | cons v rest ih =>
      obtain ⟨here, others⟩ := List.forall_mem_cons.mp each
      rw [itemTrees, compactTrees, Json.compactItems, here, ih others]
  | object members each =>
    rw [Tree.ofValue, Tree.compact, Value.compact]
    congr 1
    induction members with
    | nil => rfl
    | cons m rest ih =>
      obtain ⟨here, others⟩ := List.forall_mem_cons.mp each
      rw [memberTrees, compactMemberTrees, Json.compactMembers, here, ih others]

theorem ofValue_eq_iff {v w : Value} : Tree.ofValue v = Tree.ofValue w ↔ v.compact = w.compact := by
  constructor
  · intro same
    rw [← compact_ofValue, same, compact_ofValue]
  · intro same
    have read := read_of_holds (holds_compact v)
    rw [same, read_of_holds (holds_compact w)] at read
    exact (Option.some.inj read).symm

theorem text_denotes :
    (∀ pretty level v, read? (text pretty level v) = some (.ofValue v)) ∧
      (∀ v : Value, read? v.compact = some (.ofValue v) ∧ read? v.pretty = some (.ofValue v)) ∧
      (∀ (p : Pipeline) pretty,
        call? (p.text ⟨.shell, pretty⟩) = some (p.collection, .ofValue p.document) ∧
          read? (p.text ⟨.json, pretty⟩) = some (.ofValue p.document)) ∧
      ∀ (p p' : Pipeline) pretty pretty', p.document.compact ≠ p'.document.compact →
        p.text ⟨.shell, pretty⟩ ≠ p'.text ⟨.shell, pretty'⟩ := by
  have shown (v : Value) :
      read? v.compact = some (.ofValue v) ∧ read? v.pretty = some (.ofValue v) :=
    ⟨read_of_holds (holds_compact v), read_of_holds (holds_prettyAt 0 v)⟩
  refine ⟨fun pretty level v => read_of_holds (holds_text pretty level v), shown, ?_, ?_⟩
  · intro p pretty
    refine ⟨call_text p pretty, ?_⟩
    cases pretty
    · exact (shown p.document).1
    · exact (shown p.document).2
  · intro p p' pretty pretty' apart same
    have read := call_text p pretty
    rw [same, call_text p' pretty'] at read
    have trees := (Prod.mk.inj (Option.some.inj read)).2
    exact apart (ofValue_eq_iff.mp trees.symm)

def setting (v : Value) : Pipeline := ⟨"log", [.custom (.set [("at", v)])]⟩

-- A date, and a string that looks like one.
theorem setting_apart :
    (setting (.object [("$date", .string "now")])).text ⟨.shell, false⟩ =
        "db.log.aggregate([\x7b $set: \x7b at: ISODate(\"now\") \x7d \x7d])" ∧
      (setting (.object [("$date", .string "now")])).text ⟨.shell, false⟩ ≠
        (setting (.string "ISODate(\"now\")")).text ⟨.shell, true⟩ := by
  refine ⟨by decide +kernel, ?_⟩
  exact text_denotes.2.2.2 _ _ false true (by decide +kernel)

end QueryBuilder.Pipeline.Shell
