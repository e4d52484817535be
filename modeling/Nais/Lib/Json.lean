import Mathlib.Tactic

/-!
# JSON texts of Python values

`json.dumps` with its default arguments. A value without a JSON form, also deep inside a list
or a dict, is a `TypeError`, and there is no other way to fail on a value that does not
contain itself.
-/

namespace Nais.Lib.Json

/-- The keys of a dict. A float is given by its `repr`. -/
inductive Key where
  | str (s : String)
  | int (n : Int)
  | float (repr : String)
  | bool (b : Bool)
  | none
  | other

/-- A Python value. `other` is an object that the encoder does not know. -/
inductive Value where
  | none
  | bool (b : Bool)
  | int (n : Int)
  | float (repr : String)
  | str (s : String)
  | list (items : List Value)
  | dict (items : List (Key × Value))
  | other

def QUOTE : Char := Char.ofNat 34
def BACKSLASH : Char := Char.ofNat 92

/-- The escape of a 16 bit unit. -/
def unicodeEscape (n : Nat) : List Char :=
  [BACKSLASH, 'u', Nat.digitChar (n / 4096), Nat.digitChar (n / 256 % 16), Nat.digitChar (n / 16 % 16),
    Nat.digitChar (n % 16)]

/-- The text of a character, which is ASCII. -/
def escapeChar (c : Char) : List Char :=
  match c.toNat with
  | 34 => [BACKSLASH, QUOTE]
  | 92 => [BACKSLASH, BACKSLASH]
  | 10 => [BACKSLASH, 'n']
  | 13 => [BACKSLASH, 'r']
  | 9 => [BACKSLASH, 't']
  | 12 => [BACKSLASH, 'f']
  | 8 => [BACKSLASH, 'b']
  | n =>
    if 32 ≤ n ∧ n ≤ 126 then [c]
    else if n < 0x10000 then unicodeEscape n
    else unicodeEscape (0xD800 + (n - 0x10000) / 1024) ++ unicodeEscape (0xDC00 + (n - 0x10000) % 1024)

def quote (s : String) : String := String.ofList (QUOTE :: s.toList.flatMap escapeChar ++ [QUOTE])

def boolText (b : Bool) : String := if b then "true" else "false"

def Key.dumps : Key → Option String
  | str s => some (quote s)
  | int n => some (quote (toString n))
  | float repr => some (quote repr)
  | bool b => some (quote (boolText b))
  | none => some (quote "null")
  | other => Option.none

mutual

/-- The text of a value, or `none` for a `TypeError`. -/
def dumps : Value → Option String
  | .none => some "null"
  | .bool b => some (boolText b)
  | .int n => some (toString n)
  | .float repr => some repr
  | .str s => some (quote s)
  | .list items => (dumpsItems items).map fun texts => "[" ++ ", ".intercalate texts ++ "]"
  | .dict items => (dumpsEntries items).map fun texts => "\x7b" ++ ", ".intercalate texts ++ "\x7d"
  | .other => none

def dumpsItems : List Value → Option (List String)
  | [] => some []
  | v :: items =>
    match dumps v, dumpsItems items with
    | some text, some texts => some (text :: texts)
    | _, _ => none

def dumpsEntries : List (Key × Value) → Option (List String)
  | [] => some []
  | (k, v) :: items =>
    match k.dumps, dumps v, dumpsEntries items with
    | some key, some text, some texts => some ((key ++ ": " ++ text) :: texts)
    | _, _, _ => none

end

def Key.IsSerializable (k : Key) : Prop := k ≠ other

/-- Nothing in the value is unknown to the encoder. -/
inductive Serializable : Value → Prop
  | none : Serializable .none
  | bool (b : Bool) : Serializable (.bool b)
  | int (n : Int) : Serializable (.int n)
  | float (repr : String) : Serializable (.float repr)
  | str (s : String) : Serializable (.str s)
  | list {items : List Value} : (∀ v ∈ items, Serializable v) → Serializable (.list items)
  | dict {items : List (Key × Value)} : (∀ e ∈ items, e.1.IsSerializable) →
      (∀ e ∈ items, Serializable e.2) → Serializable (.dict items)

lemma Key.dumps_isSome_iff (k : Key) : k.dumps.isSome ↔ k.IsSerializable := by
  cases k <;> simp [Key.dumps, Key.IsSerializable]

mutual

/-- A value has a text exactly when all that it holds is known to the encoder. -/
theorem dumps_isSome_iff : ∀ v : Value, (dumps v).isSome ↔ Serializable v
  | .none => iff_of_true rfl .none
  | .bool b => iff_of_true rfl (.bool b)
  | .int n => iff_of_true rfl (.int n)
  | .float repr => iff_of_true rfl (.float repr)
  | .str s => iff_of_true rfl (.str s)
  | .list items => by
    rw [dumps, Option.isSome_map, dumpsItems_isSome_iff items]
    constructor
    · exact .list
    · rintro ⟨⟩
      assumption
  | .dict items => by
    rw [dumps, Option.isSome_map, dumpsEntries_isSome_iff items]
    constructor
    · rintro ⟨hkeys, hvalues⟩
      exact .dict hkeys hvalues
    · rintro ⟨⟩
      constructor <;> assumption
  | .other => by
    rw [dumps]
    refine iff_of_false (by simp) ?_
    rintro ⟨⟩

theorem dumpsItems_isSome_iff : ∀ items : List Value,
    (dumpsItems items).isSome ↔ ∀ v ∈ items, Serializable v
  | [] => by simp [dumpsItems]
  | v :: items => by
    rw [dumpsItems, List.forall_mem_cons, ← dumps_isSome_iff v, ← dumpsItems_isSome_iff items]
    cases dumps v <;> cases dumpsItems items <;> simp

theorem dumpsEntries_isSome_iff : ∀ items : List (Key × Value),
    (dumpsEntries items).isSome ↔
      (∀ e ∈ items, e.1.IsSerializable) ∧ ∀ e ∈ items, Serializable e.2
  | [] => by simp [dumpsEntries]
  | (k, v) :: items => by
    have hrest := dumpsEntries_isSome_iff items
    rw [dumpsEntries, List.forall_mem_cons, List.forall_mem_cons, ← dumps_isSome_iff v,
      ← k.dumps_isSome_iff, and_and_and_comm, ← hrest]
    cases k.dumps <;> cases dumps v <;> cases dumpsEntries items <;> simp

end

/-- A dict with a name for each of its values. -/
example : dumps (.dict [(.str "sts", .none), (.str "id", .int 5)]) =
    some "\x7b\"sts\": null, \"id\": 5\x7d" := by decide +kernel

end Nais.Lib.Json
