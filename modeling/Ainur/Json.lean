import Mathlib.Tactic.Common

set_option autoImplicit false

/-! # JSON values

`serde_json::Value` as the orchestrator uses it, without the `arbitrary_precision` feature: an
integer is a `u64`, or an `i64` when it is negative, and every other number is a finite `f64`.
Only the decimal text of a float is kept, since nothing here computes with one.

Reading and writing the text of a value is `serde_json`'s own work; where a result depends on it,
it is the parameter `SerdeJson`.
-/

namespace Ainur

/-- `serde_json::Number`. `negInt n` is the negative integer `-(n + 1)`. -/
inductive Number where
  | posInt (n : UInt64)
  | negInt (n : Nat)
  | float (text : String)
  deriving DecidableEq, Repr

/-- The number of an `i64`, such as a column of type `BIGINT` holds. -/
def Number.ofI64 : Int → Number
  | .ofNat n => .posInt (UInt64.ofNat n)
  | .negSucc n => .negInt n

/-- `serde_json::Value`. The members of an object have distinct names. -/
inductive Value where
  | null
  | bool (b : Bool)
  | number (n : Number)
  | string (s : String)
  | array (items : List Value)
  | object (members : List (String × Value))
  deriving Repr

namespace Value

/-- `Value::get` with a name: the member of an object, `None` for anything else. -/
def get : Value → String → Option Value
  | .object members, key => members.lookup key
  | _, _ => none

/-- `Value::as_str`. -/
def asStr : Value → Option String
  | .string s => some s
  | _ => none

/-- `Value::as_u64`. -/
def asU64 : Value → Option UInt64
  | .number (.posInt n) => some n
  | _ => none

/-- `Value::as_array`. -/
def asArray : Value → Option (List Value)
  | .array items => some items
  | _ => none

/-- The integer a number stands for; a float stands for none. -/
def integer? : Value → Option Int
  | .number (.posInt n) => some n.toNat
  | .number (.negInt n) => some (.negSucc n)
  | _ => none

/-- Set the member `key` of an object, adding it at the end where it is missing. -/
def set (v : Value) (key : String) (x : Value) : Value :=
  match v with
  | .object members =>
      if (members.lookup key).isSome then
        .object (members.map fun m => if m.1 = key then (m.1, x) else m)
      else
        .object (members ++ [(key, x)])
  | v => v

end Value

/-- The part of `serde_json` that reads and writes text. -/
structure SerdeJson where
  /-- `serde_json::from_str::<Value>`, the error as its message. -/
  fromStr : String → Except String Value
  /-- `Value::to_string`. -/
  toString : Value → String

/-! ## Sample text -/

def Number.text : Number → String
  | .posInt n => toString n.toNat
  | .negInt n => "-" ++ toString (n + 1)
  | .float text => text

mutual

/-- The text of a value whose own texts need no escapes, with these separators. -/
def Value.render (comma colon : String) : Value → String
  | .null => "null"
  | .bool b => if b then "true" else "false"
  | .number n => n.text
  | .string s => "\"" ++ s ++ "\""
  | .array items => "[" ++ renderItems comma colon items ++ "]"
  | .object members => "\x7b" ++ renderMembers comma colon members ++ "\x7d"

def Value.renderItems (comma colon : String) : List Value → String
  | [] => ""
  | [v] => v.render comma colon
  | v :: rest => v.render comma colon ++ comma ++ renderItems comma colon rest

def Value.renderMembers (comma colon : String) : List (String × Value) → String
  | [] => ""
  | [m] => renderMember comma colon m
  | m :: rest => renderMember comma colon m ++ comma ++ renderMembers comma colon rest

def Value.renderMember (comma colon : String) : String × Value → String
  | (key, v) => "\"" ++ key ++ "\"" ++ colon ++ v.render comma colon

end

/-- `serde_json` on the texts of the given values. -/
def SerdeJson.onValues (values : List Value) : SerdeJson where
  fromStr text :=
    match values.find? fun v => v.render "," ":" = text with
    | some v => .ok v
    | none => .error "expected value at line 1 column 1"
  toString := Value.render "," ":"

theorem SerdeJson.onValues_fromStr (v : Value) (rest : List Value) :
    (onValues (v :: rest)).fromStr ((onValues (v :: rest)).toString v) = .ok v := by
  simp [onValues]

/-! ## Members -/

theorem Value.get_set_self {v : Value} {key : String} (x : Value) (h : (v.get key).isSome = true) :
    (v.set key x).get key = some x := by
  cases v with
  | object members =>
      simp only [Value.get] at h
      simp only [Value.set, if_pos h, Value.get]
      induction members with
      | nil => cases h
      | cons m rest ih =>
          obtain ⟨k, y⟩ := m
          by_cases hkey : k = key
          · subst hkey
            simp
          · have hne : (key == k) = false := by simpa using Ne.symm hkey
            rw [List.lookup_cons, hne] at h
            simpa [List.lookup_cons, hkey, hne] using ih h
  | null => cases h
  | bool b => cases h
  | number n => cases h
  | string s => cases h
  | array items => cases h

theorem Value.get_set_ne {v : Value} {key other : String} (x : Value)
    (h : (v.get key).isSome = true) (hne : other ≠ key) :
    (v.set key x).get other = v.get other := by
  cases v with
  | object members =>
      simp only [Value.get] at h
      simp only [Value.set, if_pos h, Value.get]
      clear h
      induction members with
      | nil => rfl
      | cons m rest ih =>
          obtain ⟨k, y⟩ := m
          by_cases hk : other = k
          · have hkey : ¬ k = key := hk ▸ hne
            simp [hk, hkey]
          · have hk' : (other == k) = false := by simpa using hk
            simp only [List.map_cons]
            split
            · simpa [List.lookup_cons, hk'] using ih
            · simpa [List.lookup_cons, hk'] using ih
  | null => rfl
  | bool b => rfl
  | number n => rfl
  | string s => rfl
  | array items => rfl

/-! ## The readers -/

theorem Value.asStr_eq_some {v : Value} {s : String} : v.asStr = some s ↔ v = .string s := by
  cases v <;> simp [Value.asStr]

theorem Value.asArray_eq_some {v : Value} {xs : List Value} :
    v.asArray = some xs ↔ v = .array xs := by
  cases v <;> simp [Value.asArray]

theorem Value.asU64_eq_some {v : Value} {n : UInt64} :
    v.asU64 = some n ↔ v = .number (.posInt n) := by
  cases v with
  | number m => cases m <;> simp [Value.asU64]
  | null => simp [Value.asU64]
  | bool b => simp [Value.asU64]
  | string s => simp [Value.asU64]
  | array xs => simp [Value.asU64]
  | object ms => simp [Value.asU64]

end Ainur
