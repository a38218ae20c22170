import QueryBuilder.Json.Document
import QueryBuilder.Proofs.Json.Text

set_option autoImplicit false

namespace QueryBuilder.Json

theorem mapM_map_some {α β γ : Type} {f : β → Option γ} {g : α → β} {h : α → γ} {xs : List α}
    (each : ∀ x ∈ xs, f (g x) = some (h x)) : (xs.map g).mapM f = some (xs.map h) := by
  induction xs with
  | nil => rfl
  | cons x rest ih =>
    rw [List.forall_mem_cons] at each
    rw [List.map_cons, List.mapM_cons, each.1, ih each.2]
    rfl

namespace Document

theorem ofItems_eq (items : List Value) : ofItems items = items.map ofValue := by
  induction items with
  | nil => rfl
  | cons v rest ih => rw [ofItems, ih, List.map_cons]

theorem ofMembers_eq (members : List (String × Value)) :
    ofMembers members = members.map fun m => (m.1, ofValue m.2) := by
  induction members with
  | nil => rfl
  | cons m rest ih => rw [ofMembers, ih, List.map_cons]

theorem depth_item {items : List Document} {d : Document} (mem : d ∈ items) :
    d.depth ≤ depthItems items := by
  induction items with
  | nil => cases mem
  | cons first rest ih =>
    rw [depthItems]
    rcases List.mem_cons.mp mem with rfl | mem
    · exact Nat.le_max_left _ _
    · exact Nat.le_trans (ih mem) (Nat.le_max_right _ _)

theorem depth_member {members : List (String × Document)} {m : String × Document}
    (mem : m ∈ members) : m.2.depth ≤ depthMembers members := by
  induction members with
  | nil => cases mem
  | cons first rest ih =>
    rw [depthMembers]
    rcases List.mem_cons.mp mem with rfl | mem
    · exact Nat.le_max_left _ _
    · exact Nat.le_trans (ih mem) (Nat.le_max_right _ _)

theorem depth_lt_array {items : List Value} {v : Value} (mem : v ∈ items) :
    (ofValue v).depth < (ofValue (.array items)).depth := by
  rw [ofValue, ofItems_eq, depth]
  exact Nat.lt_succ_of_le (depth_item (List.mem_map_of_mem mem))

theorem depth_lt_object {members : List (String × Value)} {m : String × Value}
    (mem : m ∈ members) : (ofValue m.2).depth < (ofValue (.object members)).depth := by
  rw [ofValue, ofMembers_eq, depth]
  exact Nat.lt_succ_of_le
    (depth_member (List.mem_map_of_mem (f := fun m => (m.1, ofValue m.2)) mem))

namespace State

def Ready (s : State) : Prop :=
  s.place = .value ∨ s.place = .firstItem ∧ ∃ items frames, s.frames = .array items :: frames

theorem give_of_ready {s : State} (ready : s.Ready) (d : Document) :
    give ⟨s.frames, .value, s.result⟩ d = s.give d := by
  obtain ⟨frames, place, result⟩ := s
  rcases ready with rfl | ⟨rfl, items, frames, rfl⟩ <;> rfl

theorem giveString_of_ready {s : State} (ready : s.Ready) (text : Option String) :
    s.giveString text = s.give (text.elim .unreadable .string) := by
  obtain ⟨frames, place, result⟩ := s
  rcases ready with rfl | ⟨rfl, items, frames, rfl⟩ <;> rfl

theorem openWith_of_ready {s : State} (ready : s.Ready) (frame : Frame) (place : Place) :
    s.openWith frame place = some ⟨frame :: s.frames, place, s.result⟩ := by
  obtain ⟨frames, place, result⟩ := s
  rcases ready with rfl | ⟨rfl, items, frames, rfl⟩ <;> rfl

theorem run_cons (s : State) (t : Token) (ts : List Token) :
    s.run (t :: ts) = (s.step t).bind fun r => r.run ts :=
  List.foldlM_cons

theorem run_singleton (s : State) (t : Token) : s.run [t] = s.step t := by
  rw [run_cons]
  exact Option.bind_fun_some (s.step t)

theorem close_of_ready {s : State} (ready : s.Ready) (shallow : s.frames.length < maxDepth)
    (d : Document) : give ⟨s.frames, .value, s.result⟩ (limited s.frames d) = s.give d := by
  rw [limited, if_pos shallow, give_of_ready ready]

def Reads (v : Value) : Prop :=
  ∀ s : State, s.Ready → s.frames.length + (ofValue v).depth ≤ maxDepth →
    s.run v.tokens = s.give (ofValue v)

theorem run_separated {α β : Type} {f : α → List Token} {g : α → β}
    {state : Place → List β → State} {first next : Place} {xs : List α} (filled : xs ≠ [])
    (comma : ∀ done, (state .separator done).step Token.comma = some (state next done))
    (each : ∀ x ∈ xs, ∀ place, place = first ∨ place = next → ∀ done,
      (state place done).run (f x) = some (state .separator (g x :: done)))
    {place : Place} (starts : place = first ∨ place = next) (done : List β) :
    (state place done).run ([Token.comma].intercalate (xs.map f)) =
      some (state .separator ((xs.map g).reverse ++ done)) := by
  -- The induction is on the parts, with those behind it on the frame, the latest first.
  induction xs generalizing place done with
  | nil => exact absurd rfl filled
  | cons x rest ih =>
    rw [List.forall_mem_cons] at each
    have here := each.1 place starts done
    cases rest with
    | nil => simpa using here
    | cons y rest =>
      have others := ih (List.cons_ne_nil y rest) each.2 (.inr rfl) (g x :: done)
      rw [List.map_cons, List.map_cons, List.intercalate_cons_cons, ← List.map_cons, run_append,
        run_append, here, Option.bind_some, run_cons, comma, Option.bind_some]
      refine others.trans ?_
      simp

theorem run_enclosed {s : State} (ready : s.Ready) {t t' : Token} {frame : Frame} {place : Place}
    {ts : List Token} {inner : State} {d : Document} (shallow : s.frames.length < maxDepth)
    (opens : s.step t = s.openWith frame place)
    (inside : run ⟨frame :: s.frames, place, s.result⟩ ts = some inner)
    (closes : inner.step t' = give ⟨s.frames, .value, s.result⟩ (limited s.frames d)) :
    s.run (t :: (ts ++ [t'])) = s.give d := by
  rw [run_cons, opens, openWith_of_ready ready, Option.bind_some, run_append, inside,
    Option.bind_some, run_singleton, closes, close_of_ready ready shallow]

theorem reads_array {items : List Value} (each : ∀ v ∈ items, Reads v) : Reads (.array items) := by
  intro s ready within
  have shallow : s.frames.length < maxDepth := by
    rw [ofValue, depth] at within
    omega
  -- An item is as much less deep as there is one frame more.
  have item : ∀ v ∈ items, ∀ place, place = .firstItem ∨ place = .value → ∀ done,
      run ⟨.array done :: s.frames, place, s.result⟩ v.tokens =
        some ⟨.array (ofValue v :: done) :: s.frames, .separator, s.result⟩ := by
    intro v mem place starts done
    have deep := depth_lt_array mem
    have inner : Ready ⟨.array done :: s.frames, place, s.result⟩ :=
      starts.symm.imp_right fun first => ⟨first, done, s.frames, rfl⟩
    rw [each v mem _ inner (by rw [List.length_cons]; omega)]
    rcases starts with rfl | rfl <;> rfl
  rw [Value.tokens, itemTokens_eq, ofValue, ofItems_eq]
  cases items with
  | nil => exact run_enclosed ready shallow rfl rfl rfl
  | cons v rest =>
    refine run_enclosed ready shallow rfl
      (run_separated (List.cons_ne_nil v rest) (fun _ => rfl) item (.inl rfl) []) ?_
    have order := List.reverse_reverse ((v :: rest).map ofValue)
    rw [List.append_nil]
    exact congrArg (fun items => give _ (limited s.frames (.array items))) order

def memberOf (m : String × Value) : Option String × Document := (some m.1, ofValue m.2)

theorem objectOf_memberOf (members : List (String × Value)) :
    objectOf (members.map memberOf).reverse =
      .object (members.map fun m => (m.1, ofValue m.2)) := by
  have named : ((members.map memberOf).mapM fun m => m.1.map (·, m.2)) =
      some (members.map fun m => (m.1, ofValue m.2)) :=
    mapM_map_some fun _ _ => rfl
  rw [objectOf, List.reverse_reverse, named]

theorem reads_object {members : List (String × Value)} (each : ∀ m ∈ members, Reads m.2) :
    Reads (.object members) := by
  intro s ready within
  have shallow : s.frames.length < maxDepth := by
    rw [ofValue, depth] at within
    omega
  have member : ∀ m ∈ members, ∀ place, place = .firstKey ∨ place = .key → ∀ done,
      run ⟨.object done :: s.frames, place, s.result⟩
          (Token.string (some m.1) :: Token.colon :: m.2.tokens) =
        some ⟨.object (memberOf m :: done) :: s.frames, .separator, s.result⟩ := by
    intro m mem place starts done
    have deep := depth_lt_object mem
    have value : run ⟨.member done (some m.1) :: s.frames, .value, s.result⟩ m.2.tokens =
        some ⟨.object (memberOf m :: done) :: s.frames, .separator, s.result⟩ := by
      rw [each m mem _ (.inl rfl) (by rw [List.length_cons]; omega)]
      rfl
    rw [← value]
    rcases starts with rfl | rfl <;> rfl
  rw [Value.tokens, memberTokens_eq, ofValue, ofMembers_eq]
  cases members with
  | nil => exact run_enclosed ready shallow rfl rfl rfl
  | cons m rest =>
    refine run_enclosed ready shallow rfl
      (run_separated (List.cons_ne_nil m rest) (fun _ => rfl) member (.inl rfl) []) ?_
    rw [List.append_nil, ← objectOf_memberOf]
    rfl

theorem reads (v : Value) : Reads v := by
  induction v using Value.induction with
  | null | bool | number => exact fun s _ _ => run_singleton s _
  | string text => exact fun s ready _ => (run_singleton s _).trans (giveString_of_ready ready _)
  | array items each => exact reads_array each
  | object members each => exact reads_object each

end State

theorem read_value {v : Value} (exact : v.FloatFree) (shallow : (ofValue v).depth ≤ maxDepth) :
    read? v.compact = some (ofValue v) := by
  have run : State.initial.run v.tokens = some ⟨[], .separator, some (ofValue v)⟩ :=
    State.reads v State.initial (.inl rfl) (by simpa [State.initial] using shallow)
  rw [read?, Value.list_compact exact]
  simp only [Option.bind_eq_bind, Option.bind_some, run]
  rfl

end Document

end QueryBuilder.Json
