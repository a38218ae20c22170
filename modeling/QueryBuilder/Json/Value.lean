import QueryBuilder.Number.Shortest

set_option autoImplicit false

namespace QueryBuilder.Json

structure Integer where
  val : Int
  lower : -0x8000000000000000 ≤ val
  upper : val < 0x10000000000000000
  deriving DecidableEq

inductive Number where
  | int (n : Integer)
  | float (x : Binary64)
  deriving DecidableEq

inductive Value where
  | null
  | bool (b : Bool)
  | number (n : Number)
  | string (s : String)
  | array (items : List Value)
  | object (members : List (String × Value))
  deriving Inhabited

theorem Value.induction {P : Value → Prop} (null : P .null) (bool : ∀ b, P (.bool b))
    (number : ∀ n, P (.number n)) (string : ∀ s, P (.string s))
    (array : ∀ items, (∀ v ∈ items, P v) → P (.array items))
    (object : ∀ members, (∀ m ∈ members, P m.2) → P (.object members)) : ∀ v, P v :=
  @Value.rec P (fun items => ∀ v ∈ items, P v) (fun members => ∀ m ∈ members, P m.2)
    (fun m => P m.2) null bool number string array object
    nofun (fun _ _ head tail => List.forall_mem_cons.mpr ⟨head, tail⟩)
    nofun (fun _ _ head tail => List.forall_mem_cons.mpr ⟨head, tail⟩)
    (fun _ _ value => value)

abbrev Object := List (String × Value)

namespace Object

-- Sets a key: in its place if the object has it, at the end if not.
def insert (key : String) (v : Value) : Object → Object
  | [] => [(key, v)]
  | (k, w) :: rest => if k = key then (k, v) :: rest else (k, w) :: insert key v rest

def ofMembers (members : List (String × Value)) : Object :=
  members.foldl (fun o m => insert m.1 m.2 o) []

def keys (o : Object) : List String := o.map Prod.fst

def get? (o : Object) (key : String) : Option Value := o.lookup key

theorem keys_insert_of_mem {key : String} {o : Object} (h : key ∈ keys o) (v : Value) :
    keys (insert key v o) = keys o := by
  induction o with
  | nil => cases h
  | cons m rest ih =>
    obtain ⟨k, w⟩ := m
    unfold insert
    split
    · rfl
    · next hk =>
      have hr : key ∈ keys rest := (List.mem_cons.1 h).resolve_left (Ne.symm hk)
      exact congrArg (k :: ·) (ih hr)

theorem insert_of_not_mem {key : String} {o : Object} (h : key ∉ keys o) (v : Value) :
    insert key v o = o ++ [(key, v)] := by
  induction o with
  | nil => rfl
  | cons m rest ih =>
    obtain ⟨k, w⟩ := m
    have hk : ¬ k = key := fun e => h (e ▸ List.mem_cons_self)
    rw [insert, if_neg hk, ih fun hr => h (List.mem_cons_of_mem _ hr)]
    rfl

theorem nodup_keys_insert {o : Object} (h : (keys o).Nodup) (key : String) (v : Value) :
    (keys (insert key v o)).Nodup := by
  by_cases hk : key ∈ keys o
  · rwa [keys_insert_of_mem hk]
  · rw [insert_of_not_mem hk, keys, List.map_append, List.nodup_append]
    refine ⟨h, by simp, fun a ha b hb e => hk ?_⟩
    have hb : b = key := by simpa using hb
    exact hb ▸ e ▸ ha

theorem mem_of_mem_insert {key : String} {v : Value} {m : String × Value} {o : Object}
    (mem : m ∈ insert key v o) : m = (key, v) ∨ m ∈ o := by
  induction o with
  | nil => exact .inl (List.mem_singleton.mp mem)
  | cons n rest ih =>
    unfold insert at mem
    split at mem
    · next same =>
      rcases List.mem_cons.mp mem with rfl | mem
      · exact .inl (Prod.ext same rfl)
      · exact .inr (List.mem_cons_of_mem _ mem)
    · rcases List.mem_cons.mp mem with rfl | mem
      · exact .inr List.mem_cons_self
      · exact (ih mem).imp_right (List.mem_cons_of_mem _)

theorem mem_of_mem_ofMembers {members : List (String × Value)} {m : String × Value}
    (mem : m ∈ ofMembers members) : m ∈ members := by
  suffices h : ∀ o : Object, m ∈ members.foldl (fun o m => insert m.1 m.2 o) o →
      m ∈ members ∨ m ∈ o from (h [] mem).resolve_right List.not_mem_nil
  clear mem
  induction members with
  | nil => exact fun _ mem => .inr mem
  | cons n rest ih =>
    intro o mem
    rcases ih _ mem with later | mem
    · exact .inl (List.mem_cons_of_mem _ later)
    · rcases mem_of_mem_insert mem with rfl | mem
      · exact .inl List.mem_cons_self
      · exact .inr mem

theorem nodup_keys_ofMembers (members : List (String × Value)) :
    (keys (ofMembers members)).Nodup := by
  suffices h : ∀ o : Object, (keys o).Nodup →
      (keys (members.foldl (fun o m => insert m.1 m.2 o) o)).Nodup from h [] .nil
  induction members with
  | nil => exact fun _ h => h
  | cons m rest ih => exact fun o h => ih _ (nodup_keys_insert h m.1 m.2)

theorem ofMembers_of_nodup {members : List (String × Value)} (h : (keys members).Nodup) :
    ofMembers members = members := by
  suffices hs : ∀ o : Object, (keys (o ++ members)).Nodup →
      members.foldl (fun o m => insert m.1 m.2 o) o = o ++ members from hs [] h
  clear h
  induction members with
  | nil => exact fun o _ => (List.append_nil o).symm
  | cons m rest ih =>
    intro o ho
    have hm : m.1 ∉ keys o := by
      rw [keys, List.map_append, List.nodup_append] at ho
      exact fun hk => ho.2.2 _ hk _ List.mem_cons_self rfl
    rw [List.foldl_cons, insert_of_not_mem hm, ih _ (by simpa using ho)]
    simp

end Object

namespace Integer

def ofInt? (n : Int) : Option Integer :=
  if h : -0x8000000000000000 ≤ n ∧ n < 0x10000000000000000 then some ⟨n, h.1, h.2⟩ else none

def ofUInt64 (n : UInt64) : Integer :=
  ⟨n.toNat, by omega, by have := n.toNat_lt; omega⟩

def ofInt64 (n : Int64) : Integer :=
  ⟨n.toInt, n.le_toInt, by have := n.toInt_lt; omega⟩

end Integer

namespace Value

def ofInt64 (n : Int64) : Value := .number (.int (.ofInt64 n))

def ofUInt64 (n : UInt64) : Value := .number (.int (.ofUInt64 n))

def single (key : String) (v : Value) : Value := .object [(key, v)]

@[simp] theorem single_inj {key key' : String} {v w : Value} :
    single key v = single key' w ↔ key = key' ∧ v = w := by
  simp [single]

def strings (ss : List String) : Value := .array (ss.map .string)

def ofOption {α : Type} (f : α → Value) : Option α → Value
  | none => .null
  | some a => f a

end Value

end QueryBuilder.Json
