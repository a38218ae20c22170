import QueryBuilder.Pipeline.Condition

set_option autoImplicit false

namespace QueryBuilder

-- No character of a pattern escapes another one.
inductive Sql.Like : List Char → List Char → Prop
  | nil : Like [] []
  | run {pattern rest : List Char} (skipped : List Char) (behind : Like pattern rest) :
    Like ('%' :: pattern) (skipped ++ rest)
  | any {pattern rest : List Char} (c : Char) (behind : Like pattern rest) :
    Like ('_' :: pattern) (c :: rest)
  | same {pattern rest : List Char} {c : Char} (plain : c ≠ '%' ∧ c ≠ '_')
    (behind : Like pattern rest) : Like (c :: pattern) (c :: rest)

namespace Pipeline

namespace Regex

inductive Item where
  | start
  | finish
  | literal (c : Char)
  | any
  | run
  deriving DecidableEq

-- Groups, classes, alternatives and all repetitions but that of any character have no reading.
def item? : Char → Option Item
  | '^' => some .start
  | '$' => some .finish
  | '.' => some .any
  | c => if c ∈ ['*', '+', '?', '(', ')', '[', ']', '{', '}', '|', '\\'] then none
    else some (.literal c)

def read? : List Char → Option (List Item)
  | [] => some []
  -- In front of a letter or a digit a backslash would be a class, a reference or a control.
  | '\\' :: c :: rest =>
    if Text.isAlphanumeric c then none else (read? rest).map (.literal c :: ·)
  | '.' :: '*' :: rest => (read? rest).map (.run :: ·)
  | c :: rest => (item? c).bind fun item => (read? rest).map (item :: ·)

/-- Whether items match in front of the last of three parts of a text, the one that they are tried
on, with the first part before it. A character of `newline` is not any character. -/
inductive Matches (newline : Char → Prop) : List Item → List Char → List Char → Prop
  | nil {before rest : List Char} : Matches newline [] before rest
  | start {items : List Item} {rest : List Char} (behind : Matches newline items [] rest) :
    Matches newline (.start :: items) [] rest
  | finish {items : List Item} {before : List Char} (behind : Matches newline items before []) :
    Matches newline (.finish :: items) before []
  | literal {items : List Item} {before rest : List Char} {c : Char}
    (behind : Matches newline items (before ++ [c]) rest) :
    Matches newline (.literal c :: items) before (c :: rest)
  | any {items : List Item} {before rest : List Char} {c : Char} (inside : ¬newline c)
    (behind : Matches newline items (before ++ [c]) rest) :
    Matches newline (.any :: items) before (c :: rest)
  | run {items : List Item} {before rest : List Char} {skipped : List Char}
    (inside : ∀ c ∈ skipped, ¬newline c)
    (behind : Matches newline items (before ++ skipped) rest) :
    Matches newline (.run :: items) before (skipped ++ rest)

def Finds (newline : Char → Prop) (items : List Item) (text : List Char) : Prop :=
  ∃ before rest, text = before ++ rest ∧ Matches newline items before rest

def itemOf : Char → Item
  | '%' => .run
  | '_' => .any
  | c => .literal c

def ofPattern (pattern : List Char) : List Item :=
  .start :: (pattern.map itemOf ++ [.finish])

theorem itemOf_of_plain {c : Char} (plain : c ≠ '%' ∧ c ≠ '_') : itemOf c = .literal c := by
  unfold itemOf
  split
  · exact absurd rfl plain.1
  · exact absurd rfl plain.2
  · rfl

theorem read_escaped {c : Char} (sign : Text.isAlphanumeric c = false) (rest : List Char) :
    read? ('\\' :: c :: rest) = (read? rest).map (.literal c :: ·) := by
  rw [read?, if_neg (by simp [sign])]

theorem read_any {rest : List Char} (single : rest.head? ≠ some '*') :
    read? ('.' :: rest) = (read? rest).map (.any :: ·) := by
  rw [read?]
  · rfl
  · intro _ _ escaped
    cases escaped
  · rintro _ - rfl
    exact single rfl

theorem read_plain {c : Char} (plain : c ∉ metacharacters) (rest : List Char) :
    read? (c :: rest) = (read? rest).map (.literal c :: ·) := by
  have other : c ≠ '\\' ∧ c ≠ '.' ∧ item? c = some (.literal c) := by
    simp only [metacharacters, List.mem_cons, List.not_mem_nil, or_false, not_or] at plain
    refine ⟨plain.1, plain.2.1, ?_⟩
    unfold item?
    split <;> simp_all
  rw [read?, other.2.2, Option.bind_some]
  · rintro _ _ rfl
    exact absurd rfl other.1
  · rintro _ rfl
    exact absurd rfl other.2.1

end Regex

theorem isAlphanumeric_metacharacter {c : Char} (sign : c ∈ metacharacters) :
    Text.isAlphanumeric c = false := by
  have all : metacharacters.all (fun c => !Text.isAlphanumeric c) = true := by decide
  simpa using List.all_eq_true.mp all c sign

open Regex

-- A star of the pattern stands behind its backslash, so it repeats nothing.
theorem head_regexOf (pattern : List Char) : (regexOf pattern ++ ['$']).head? ≠ some '*' := by
  fun_cases regexOf pattern with
  | case1 => decide
  | case2 | case3 | case4 => simp
  | case5 c rest _ _ plain =>
    intro head
    cases head
    exact plain (by decide)

theorem read_regexOf (pattern : List Char) :
    read? (regexOf pattern ++ ['$']) = some (pattern.map itemOf ++ [.finish]) := by
  fun_induction regexOf pattern with
  | case1 => rfl
  | case2 rest ih => simp [read?, ih, itemOf]
  | case3 rest ih => simp [read_any (head_regexOf rest), ih, itemOf]
  | case4 c rest notRun notAny sign ih =>
    have item := itemOf_of_plain ⟨notRun, notAny⟩
    simp [read_escaped (isAlphanumeric_metacharacter sign), ih, item]
  | case5 c rest notRun notAny plain ih =>
    have item := itemOf_of_plain ⟨notRun, notAny⟩
    simp [read_plain plain, ih, item]

theorem read_likeRegex (pattern : String) :
    read? (likeRegex pattern).toList = some (ofPattern pattern.toList) := by
  rw [likeRegex, String.toList_ofList, read?, read_regexOf]
  · rfl
  · simp
  · simp

section

variable {newline : Char → Prop} {before text : List Char}

theorem matches_finish_iff : Matches newline [.finish] before text ↔ text = [] := by
  constructor
  · intro found
    cases found
    rfl
  · rintro rfl
    exact .finish .nil

theorem matches_pattern_iff {pattern : List Char} (inside : ∀ c ∈ text, ¬newline c) :
    Matches newline (pattern.map itemOf ++ [.finish]) before text ↔ Sql.Like pattern text := by
  induction pattern generalizing before text with
  | nil =>
    rw [List.map_nil, List.nil_append, matches_finish_iff]
    constructor
    · rintro rfl
      exact .nil
    · intro matched
      cases matched
      rfl
  | cons c pattern ih =>
    rw [List.map_cons, List.cons_append]
    constructor
    · intro found
      by_cases run : c = '%'
      · subst run
        cases found with
        | run _ behind =>
          exact .run _ ((ih (List.forall_mem_append.mp inside).2).mp behind)
      by_cases any : c = '_'
      · subst any
        cases found with
        | any _ behind =>
          exact .any _ ((ih (List.forall_mem_cons.mp inside).2).mp behind)
      rw [itemOf_of_plain ⟨run, any⟩] at found
      cases found with
      | literal behind =>
        exact .same ⟨run, any⟩ ((ih (List.forall_mem_cons.mp inside).2).mp behind)
    · intro matched
      cases matched with
      | run skipped behind =>
        have parts := List.forall_mem_append.mp inside
        exact .run parts.1 ((ih parts.2).mpr behind)
      | any c behind =>
        have parts := List.forall_mem_cons.mp inside
        exact .any parts.1 ((ih parts.2).mpr behind)
      | same plain behind =>
        rw [itemOf_of_plain plain]
        exact .literal ((ih (List.forall_mem_cons.mp inside).2).mpr behind)

theorem finds_ofPattern_iff {pattern : List Char} (inside : ∀ c ∈ text, ¬newline c) :
    Finds newline (ofPattern pattern) text ↔ Sql.Like pattern text := by
  constructor
  · rintro ⟨before, rest, rfl, found⟩
    cases found with
    | start behind => exact (matches_pattern_iff inside).mp behind
  · intro matched
    exact ⟨[], text, rfl, .start ((matches_pattern_iff inside).mpr matched)⟩

end

theorem likeRegex_finds_iff (pattern : String) :
    read? (likeRegex pattern).toList = some (ofPattern pattern.toList) ∧
      ∀ (newline : Char → Prop) (text : String), (∀ c ∈ text.toList, ¬newline c) →
        (Finds newline (ofPattern pattern.toList) text.toList ↔
          Sql.Like pattern.toList text.toList) :=
  ⟨read_likeRegex pattern, fun _ _ inside => finds_ofPattern_iff inside⟩

-- The star and the point are signs of regular expressions, one of them behind any character.
theorem starred_finds :
    (∀ c ∈ "a*.md".toList, c ≠ '\n') ∧ Sql.Like "_*.%".toList "a*.md".toList ∧
      Finds (· = '\n') (ofPattern "_*.%".toList) "a*.md".toList := by
  have line : ∀ c ∈ "a*.md".toList, c ≠ '\n' := by simp
  have matched : Sql.Like "_*.%".toList "a*.md".toList :=
    .any 'a' (.same (by decide) (.same (by decide) (.run ['m', 'd'] .nil)))
  exact ⟨line, matched, ((likeRegex_finds_iff "_*.%").2 (· = '\n') "a*.md" line).mpr matched⟩

end Pipeline

end QueryBuilder
