import Mathlib.Algebra.GroupWithZero.Nat
import Mathlib.Tactic.Common

set_option autoImplicit false

/-! # The text of JSON

Strings, arrays and objects as a compact writer puts them on paper, and how long they get. An
escape takes two characters for a quotation mark, a backslash and five of the control characters,
six for every other control character, and no other character is escaped.
-/

namespace JsonText

/-! ## Strings -/

def quote : Char := Char.ofNat 34

def backslash : Char := Char.ofNat 92

/-- The characters with an escape of two characters: `\"`, `\\`, `\b`, `\t`, `\n`, `\f`, `\r`. -/
def isShort (c : Char) : Bool :=
  c = quote || c = backslash || c.toNat = 8 || c.toNat = 9 || c.toNat = 10 || c.toNat = 12 ||
    c.toNat = 13

/-- The characters that are written as `\u00xx`. -/
def isControl (c : Char) : Bool := !isShort c && c.toNat < 32

/-- The second character of a short escape. -/
def shortName (c : Char) : Char :=
  match c.toNat with
  | 8 => 'b'
  | 9 => 't'
  | 10 => 'n'
  | 12 => 'f'
  | 13 => 'r'
  | _ => c

/-- A digit below 16. -/
def hexDigit (n : Nat) : Char := if n < 10 then Char.ofNat (48 + n) else Char.ofNat (87 + n)

def escapeChar (c : Char) : List Char :=
  if isShort c then [backslash, shortName c]
  else if isControl c then
    [backslash, 'u', '0', '0', hexDigit (c.toNat / 16), hexDigit (c.toNat % 16)]
  else [c]

/-- The text of a string. -/
def string (s : String) : String :=
  String.ofList (quote :: s.toList.flatMap escapeChar ++ [quote])

/-- How long a string is once its characters are escaped. -/
def escapedLength (s : String) : Nat :=
  s.length + s.toList.countP isShort + 5 * s.toList.countP isControl

theorem length_escapeChar (c : Char) :
    (escapeChar c).length =
      1 + (if isShort c then 1 else 0) + 5 * (if isControl c then 1 else 0) := by
  unfold escapeChar
  by_cases hshort : isShort c = true
  · have hcontrol : ¬ isControl c = true := by simp [isControl, hshort]
    rw [if_pos hshort, if_pos hshort, if_neg hcontrol]
    rfl
  · rw [if_neg hshort, if_neg hshort]
    split <;> rfl

theorem length_flatMap_escapeChar (cs : List Char) :
    (cs.flatMap escapeChar).length = cs.length + cs.countP isShort + 5 * cs.countP isControl := by
  induction cs with
  | nil => rfl
  | cons c cs ih =>
      rw [List.flatMap_cons, List.length_append, ih, length_escapeChar, List.length_cons,
        List.countP_cons, List.countP_cons]
      omega

theorem length_string (s : String) : (string s).length = escapedLength s + 2 := by
  calc (string s).length
    _ = (quote :: s.toList.flatMap escapeChar ++ [quote]).length := String.length_ofList
    _ = (s.toList.flatMap escapeChar).length + 2 := by simp
    _ = escapedLength s + 2 := by
      rw [length_flatMap_escapeChar, escapedLength, String.length_toList]

/-! ## Arrays and objects -/

/-- Texts with commas between them. -/
def joined : List String → String
  | [] => ""
  | [s] => s
  | s :: rest => s ++ "," ++ joined rest

theorem length_joined (ss : List String) :
    (joined ss).length = (ss.map String.length).sum + (ss.length - 1) := by
  induction ss with
  | nil => rfl
  | cons s rest ih =>
      cases rest with
      | nil => simp [joined]
      | cons t rest =>
          have hcomma : ",".length = 1 := rfl
          have hpos : 0 < (t :: rest).length := Nat.succ_pos _
          calc (joined (s :: t :: rest)).length
            _ = (s ++ "," ++ joined (t :: rest)).length := rfl
            _ = s.length + 1 + (joined (t :: rest)).length := by
              rw [String.length_append, String.length_append, hcomma]
            _ = s.length + ((t :: rest).map String.length).sum + (t :: rest).length := by
              rw [ih]
              omega
            _ = ((s :: t :: rest).map String.length).sum + ((s :: t :: rest).length - 1) := rfl

def array (items : List String) : String := "[" ++ joined items ++ "]"

/-- A member of an object, from its name and the text of its value. -/
def member (m : String × String) : String := string m.1 ++ ":" ++ m.2

def object (members : List (String × String)) : String :=
  "\x7b" ++ joined (members.map member) ++ "\x7d"

theorem length_member (m : String × String) :
    (member m).length = escapedLength m.1 + m.2.length + 3 := by
  have hcolon : ":".length = 1 := rfl
  rw [member, String.length_append, String.length_append, length_string, hcolon]
  omega

theorem length_braces (s : String) : ("\x7b" ++ s ++ "\x7d").length = s.length + 2 := by
  have hopen : "\x7b".length = 1 := rfl
  have hclose : "\x7d".length = 1 := rfl
  simp only [String.length_append, hopen, hclose]
  omega

theorem length_object (members : List (String × String)) :
    (object members).length =
      (members.map fun m => escapedLength m.1 + m.2.length + 3).sum + (members.length - 1) + 2 := by
  have hmembers : (members.map member).map String.length =
      members.map fun m => escapedLength m.1 + m.2.length + 3 := by
    simp only [List.map_map, Function.comp_def, length_member]
  unfold object
  rw [length_braces, length_joined, hmembers, List.length_map]

/-- In whatever order its members are written, an object has the same length. -/
theorem length_object_of_perm {ms ns : List (String × String)} (h : ms.Perm ns) :
    (object ms).length = (object ns).length := by
  have hsum := (h.map fun m => escapedLength m.1 + m.2.length + 3).sum_nat
  rw [length_object ms, length_object ns, h.length_eq, hsum]

end JsonText
