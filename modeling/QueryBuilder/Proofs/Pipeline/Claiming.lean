import Mathlib.Data.Finset.Card
import Mathlib.Order.Bounds.Basic
import QueryBuilder.Pipeline.Name

set_option autoImplicit false

namespace QueryBuilder.Pipeline.Names

variable {names : Names} {wanted : String} {i k : Nat} {result : String × Names}

theorem numbered_injective (wanted : String) : Function.Injective (numbered wanted) := by
  intro m n h
  have digits : Nat.toDigits 10 m = Nat.toDigits 10 n := by
    simpa [numbered, Digits.text, Digits.ofNat] using congrArg String.toList h
  simpa using congrArg (fun ds => Nat.ofDigitChars 10 ds 0) digits

theorem numbered_ne (wanted : String) (n : Nat) : numbered wanted n ≠ wanted := by
  intro h
  have longer := congrArg (fun s => s.toList.length) h
  simp [numbered] at longer

def candidate (wanted : String) : Nat → String
  | 0 => wanted
  | i + 1 => numbered wanted (i + 2)

theorem candidate_injective (wanted : String) : Function.Injective (candidate wanted) := by
  intro i j h
  cases i with
  | zero =>
    cases j with
    | zero => rfl
    | succ j => exact absurd h.symm (numbered_ne wanted (j + 2))
  | succ i =>
    cases j with
    | zero => exact absurd h (numbered_ne wanted (i + 2))
    | succ j => exact congrArg (· + 1) (Nat.add_right_cancel (numbered_injective wanted h))

/-- The attempts from the `i`-th on, of which the first `k` fail: while a candidate is taken the
next one is tried, and the first that is free is added. -/
inductive Tries (names : Names) (wanted : String) : Nat → Nat → String × Names → Prop where
  | found {i : Nat} (free : candidate wanted i ∉ names.taken) :
      Tries names wanted i 0 (candidate wanted i, ⟨candidate wanted i :: names.taken⟩)
  | next {i k : Nat} {result : String × Names} (taken : candidate wanted i ∈ names.taken)
      (more : Tries names wanted (i + 1) k result) : Tries names wanted i (k + 1) result

def unmet (names : Names) (wanted : String) (i : Nat) : Finset String :=
  names.taken.toFinset \ (Finset.range i).image (candidate wanted)

theorem card_unmet_le (names : Names) (wanted : String) (i : Nat) :
    (unmet names wanted i).card ≤ names.taken.toFinset.card :=
  Finset.card_le_card Finset.sdiff_subset

theorem card_unmet_succ (taken : candidate wanted i ∈ names.taken) :
    (unmet names wanted (i + 1)).card + 1 = (unmet names wanted i).card := by
  have fresh : candidate wanted i ∉ (Finset.range i).image (candidate wanted) := by
    intro mem
    obtain ⟨j, before, same⟩ := Finset.mem_image.mp mem
    obtain rfl := candidate_injective wanted same
    exact Nat.lt_irrefl _ (Finset.mem_range.mp before)
  have met : unmet names wanted (i + 1) = (unmet names wanted i).erase (candidate wanted i) := by
    rw [unmet, Finset.range_add_one, Finset.image_insert, Finset.sdiff_insert, unmet]
  rw [met]
  exact Finset.card_erase_add_one (Finset.mem_sdiff.mpr ⟨List.mem_toFinset.mpr taken, fresh⟩)

-- The names that are still unmet are the measure.
theorem exists_tries (names : Names) (wanted : String) (i : Nat) :
    ∃ k ≤ (unmet names wanted i).card, ∃ result, Tries names wanted i k result := by
  induction size : (unmet names wanted i).card using Nat.strongRecOn generalizing i with
  | ind size ih =>
    by_cases taken : candidate wanted i ∈ names.taken
    · have fewer := card_unmet_succ taken
      obtain ⟨k, bound, result, more⟩ :=
        ih (unmet names wanted (i + 1)).card (by omega) (i + 1) rfl
      exact ⟨k + 1, by omega, result, .next taken more⟩
    · exact ⟨0, Nat.zero_le _, _, .found taken⟩

theorem Tries.isLeast (h : Tries names wanted i k result) :
    IsLeast {j | i ≤ j ∧ candidate wanted j ∉ names.taken} (i + k) ∧
      result = (candidate wanted (i + k), ⟨candidate wanted (i + k) :: names.taken⟩) := by
  induction h with
  | found free => exact ⟨⟨⟨Nat.le_refl _, free⟩, fun j later => later.1⟩, rfl⟩
  | @next i k result taken more ih =>
    obtain ⟨⟨⟨-, free⟩, least⟩, same⟩ := ih
    have place : i + (k + 1) = i + 1 + k := by omega
    rw [place]
    refine ⟨⟨⟨by omega, free⟩, ?_⟩, same⟩
    rintro j ⟨later, unused⟩
    have apart : i ≠ j := by
      rintro rfl
      exact unused taken
    exact least ⟨by omega, unused⟩

theorem exists_first (names : Names) (wanted : String) :
    ∃ k ≤ names.taken.toFinset.card, Tries names wanted 0 k
        (candidate wanted k, ⟨candidate wanted k :: names.taken⟩) ∧
      IsLeast {j | candidate wanted j ∉ names.taken} k := by
  obtain ⟨k, bound, result, tries⟩ := exists_tries names wanted 0
  obtain ⟨least, same⟩ := tries.isLeast
  rw [Nat.zero_add] at least same
  rw [same] at tries
  exact ⟨k, Nat.le_trans bound (card_unmet_le names wanted 0), tries, by simpa using least⟩

theorem free_eq_candidate (first : IsLeast {j | candidate wanted j ∉ names.taken} k) :
    names.free wanted = candidate wanted k := by
  obtain ⟨k', bound, -, first'⟩ := exists_first names wanted
  obtain rfl := first.unique first'
  obtain ⟨unused, least⟩ := first
  cases k with
  | zero => exact if_pos unused
  | succ i =>
    have taken (j : Nat) (before : j < i + 1) : candidate wanted j ∈ names.taken := by
      by_contra free
      exact Nat.not_le_of_lt before (least free)
    have within : i < names.taken.length + 1 := by
      have := names.taken.toFinset_card_le
      omega
    have found : (List.range (names.taken.length + 1)).find?
        (fun j => decide (numbered wanted (j + 2) ∉ names.taken)) = some i := by
      refine List.find?_range_eq_some.mpr ⟨decide_eq_true unused, List.mem_range.mpr within, ?_⟩
      intro j before
      simpa [candidate] using taken (j + 1) (by omega)
    have occupied : ¬ wanted ∉ names.taken := not_not.mpr (taken 0 (Nat.zero_lt_succ i))
    simp only [free, if_neg occupied, List.find?_map, Function.comp_def, found, Option.map_some,
      Option.getD_some, candidate]

theorem free_eq (names : Names) (wanted : String) :
    names.free wanted ∉ names.taken ∧
      (names.free wanted = wanted ∨ ∃ n, names.free wanted = numbered wanted n) := by
  obtain ⟨k, -, -, first⟩ := exists_first names wanted
  rw [free_eq_candidate first]
  refine ⟨first.1, ?_⟩
  cases k with
  | zero => exact .inl rfl
  | succ i => exact .inr ⟨i + 2, rfl⟩

/-- The name itself if it is free, else the one with the least number, counted from two, that makes
it free. -/
inductive Picks (names : Names) (wanted : String) : String → Prop where
  | itself (free : wanted ∉ names.taken) : Picks names wanted wanted
  | withNumber {n : Nat} (taken : wanted ∈ names.taken)
      (least : IsLeast {n | 2 ≤ n ∧ numbered wanted n ∉ names.taken} n) :
      Picks names wanted (numbered wanted n)

/-- The attempts have one outcome, and reach it after no more failures than names are taken. -/
structure Settles (names : Names) (wanted : String) (outcome : String × Names) : Prop where
  -- The number that is tried last is one more than the failures, so a signed counter of 32 bits
  -- stays in its range as long as no more than 2 ^ 31 - 2 names are taken.
  ends : ∃ failures ≤ names.taken.toFinset.card, ∀ k result,
    Tries names wanted 0 k result ↔ k = failures ∧ result = outcome
  picks : Picks names wanted outcome.1
  adds : outcome.2.taken.toFinset = insert outcome.1 names.taken.toFinset

theorem picks_candidate (first : IsLeast {j | candidate wanted j ∉ names.taken} k) :
    Picks names wanted (candidate wanted k) := by
  obtain ⟨unused, least⟩ := first
  cases k with
  | zero => exact .itself unused
  | succ i =>
    have taken : wanted ∈ names.taken := by
      by_contra free
      exact Nat.not_succ_le_zero i (least free)
    refine .withNumber taken ⟨⟨by omega, unused⟩, ?_⟩
    rintro n ⟨counted, free⟩
    obtain ⟨j, rfl⟩ := Nat.exists_eq_add_of_le' counted
    have later : i + 1 ≤ j + 1 := least (show candidate wanted (j + 1) ∉ names.taken from free)
    exact Nat.add_le_add_right later 1

theorem claim_settles (names : Names) (wanted : String) :
    Settles names wanted (names.claim wanted) := by
  obtain ⟨failures, bound, tries, first⟩ := exists_first names wanted
  have name := free_eq_candidate first
  have made : names.claim wanted =
      (candidate wanted failures, ⟨candidate wanted failures :: names.taken⟩) := by
    rw [claim, name]
  rw [made]
  refine ⟨⟨failures, bound, fun k result => ⟨fun other => ?_, ?_⟩⟩, picks_candidate first,
    List.toFinset_cons⟩
  · obtain ⟨least, same⟩ := other.isLeast
    rw [Nat.zero_add] at least same
    obtain rfl : k = failures := IsLeast.unique (by simpa using least) first
    exact ⟨rfl, same⟩
  · rintro ⟨rfl, rfl⟩
    exact tries

theorem claimKey_settles (names : Names) (key : FieldKey) :
    Settles names
      (if key.field ∉ names.taken then key.field else key.entity ++ "_" ++ key.field)
      (names.claimKey key) := by
  unfold claimKey
  split <;> exact claim_settles names _

-- `after` has the names of `before` and those of `claimed`, which were free.
structure Claims (before : Names) (claimed : List String) (after : Names) : Prop where
  mem_taken : ∀ name, name ∈ after.taken ↔ name ∈ claimed ∨ name ∈ before.taken
  nodup : claimed.Nodup
  free : ∀ name ∈ claimed, name ∉ before.taken

namespace Claims

variable {a b c : Names} {xs ys : List String}

theorem nil (names : Names) : Claims names [] names where
  mem_taken := by simp
  nodup := .nil
  free := by simp

theorem append (first : Claims a xs b) (second : Claims b ys c) : Claims a (xs ++ ys) c where
  mem_taken := by
    intro name
    rw [second.mem_taken, first.mem_taken, List.mem_append, or_left_comm, or_assoc]
  nodup := by
    refine List.nodup_append.mpr ⟨first.nodup, second.nodup, ?_⟩
    rintro x hx y hy rfl
    exact second.free x hy ((first.mem_taken x).mpr (.inl hx))
  free := by
    intro name mem
    rcases List.mem_append.mp mem with mem | mem
    · exact first.free name mem
    · exact fun taken => second.free name mem ((first.mem_taken name).mpr (.inr taken))

end Claims

theorem claim_claims (names : Names) (wanted : String) :
    Claims names [(names.claim wanted).1] (names.claim wanted).2 where
  mem_taken := by simp [claim]
  nodup := List.nodup_singleton _
  free := by simpa [claim] using (free_eq names wanted).1

theorem claimKey_claims (names : Names) (key : FieldKey) :
    Claims names [(names.claimKey key).1] (names.claimKey key).2 := by
  unfold claimKey
  split <;> exact claim_claims names _

inductive Request where
  | text (wanted : String)
  | key (key : FieldKey)

def serve (names : Names) : Request → String × Names
  | .text wanted => names.claim wanted
  | .key key => names.claimKey key

def serveAll : Names → List Request → List String × Names
  | names, [] => ([], names)
  | names, request :: rest =>
    let (name, after) := names.serve request
    let (more, last) := after.serveAll rest
    (name :: more, last)

theorem serve_claims (names : Names) (request : Request) :
    Claims names [(names.serve request).1] (names.serve request).2 := by
  cases request with
  | text wanted => exact claim_claims names wanted
  | key key => exact claimKey_claims names key

theorem serveAll_claims (names : Names) (requests : List Request) :
    Claims names (names.serveAll requests).1 (names.serveAll requests).2 := by
  induction requests generalizing names with
  | nil => exact .nil names
  | cons request rest ih => exact (serve_claims names request).append (ih (names.serve request).2)

theorem claiming_settles :
    (∀ (names : Names) (wanted : String), Settles names wanted (names.claim wanted)) ∧
      (∀ (names : Names) (key : FieldKey), Settles names
        (if key.field ∉ names.taken then key.field else key.entity ++ "_" ++ key.field)
        (names.claimKey key)) ∧
      (∀ (names : Names) (requests : List Request),
        Claims names (names.serveAll requests).1 (names.serveAll requests).2) ∧
      ∀ requests : List Request, ("_id" :: (initial.serveAll requests).1).Nodup := by
  refine ⟨claim_settles, claimKey_settles, serveAll_claims, fun requests => ?_⟩
  have claims := serveAll_claims initial requests
  refine List.nodup_cons.mpr ⟨fun mem => ?_, claims.nodup⟩
  exact claims.free _ mem List.mem_cons_self

example : (initial.serveAll [.text "total", .text "total_2", .key ⟨"orders", "total"⟩,
    .text "total", .key ⟨"orders", "total"⟩, .text "_id"]).1 =
    ["total", "total_2", "orders_total", "total_3", "orders_total_2", "_id_2"] := by
  decide +kernel

end QueryBuilder.Pipeline.Names
