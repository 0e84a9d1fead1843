import Ainur.Bridge.Backfill

set_option autoImplicit false

/-! # The text of an event's fields

`run_chain_replay` stores the fields of an event as the text that `Debug` makes of them, and the
backfill and the branch of `TaskMatched` read ids from that text as from a list in brackets. The
text begins with the name of a variant, not with a bracket, so neither reader finds an id in it,
whatever the fields are.
-/

namespace Ainur.Bridge

open Backfill (extractFirstU64 backfillUpdate backfillEvent backfillOnce eventsFor)
open Replay (ChainEventRow)

/-! ## The writer -/

/-- `scale_value::Composite`, over values of any type. -/
inductive Composite (V : Type) where
  | named (fields : List (String × V))
  | unnamed (values : List V)

namespace Composite

variable {V : Type}

/-- The values of the fields. -/
def values : Composite V → List V
  | .named fields => fields.map Prod.snd
  | .unnamed values => values

/-- Its derived `Debug`, from that of the values. Field names are identifiers and need no
escapes. -/
def debug (debugValue : V → String) : Composite V → String
  | .named fields =>
      "Named([" ++ ", ".intercalate (fields.map fun field =>
        "(\"" ++ field.1 ++ "\", " ++ debugValue field.2 ++ ")") ++ "])"
  | .unnamed values => "Unnamed([" ++ ", ".intercalate (values.map debugValue) ++ "])"

end Composite

/-- The payload that is stored for an event: the text of its fields, where they are decoded. -/
def eventPayload {V : Type} (debugValue : V → String) : Option (Composite V) → String
  | some fields => fields.debug debugValue
  | none => "<undecodable>"

/-! ## The readers -/

/-- A character at which every trim stops, no separator, and no part of a number. -/
def StartsWord (c : Char) : Prop :=
  isWhiteSpace c = false ∧ c ≠ '[' ∧ c ≠ ']' ∧ c ≠ ',' ∧ c ≠ '+' ∧ c.isDigit = false

/-- A trim from the end stops at the first character at the latest. -/
theorem reverse_dropWhile_cons {p : Char → Bool} {c : Char} (hc : p c = false)
    (cs : List Char) :
    ((c :: cs).reverse.dropWhile p).reverse = c :: (cs.reverse.dropWhile p).reverse := by
  rw [List.reverse_cons, List.dropWhile_append]
  split
  · next h =>
      rw [List.isEmpty_iff.mp h]
      simp [hc]
  · rw [List.reverse_append]
    rfl

theorem exists_trim_cons {c : Char} (hc : isWhiteSpace c = false) (cs : List Char) :
    ∃ ds, trim (c :: cs) = c :: ds := by
  rw [trim, List.dropWhile_cons_of_neg (by simp [hc]), reverse_dropWhile_cons hc]
  exact ⟨_, rfl⟩

/-- The part before the first separator begins as the text does. -/
theorem exists_splitOn_cons {c : Char} (hc : c ≠ ',') (cs : List Char) :
    ∃ ds rest, (c :: cs).splitOn ',' = (c :: ds) :: rest := by
  rw [List.splitOn_cons_eq_if_modifyHead, if_neg (by simpa using hc)]
  cases h : cs.splitOn ',' with
  | nil => exact absurd h (List.splitOn_ne_nil _ _)
  | cons ds rest => exact ⟨ds, rest, rfl⟩

theorem parseU64_cons {c : Char} (hplus : c ≠ '+') (hdigit : c.isDigit = false)
    (cs : List Char) : parseU64 (c :: cs) = none := by
  have hall : (c :: cs).all Char.isDigit = false := by
    rw [List.all_cons, hdigit, Bool.false_and]
  unfold parseU64
  split
  · next rest h => exact absurd (List.cons.inj h).1 hplus
  · simp only [hall, Bool.not_false, Bool.or_true, if_true]

/-- No id is read from a text that begins with a word. -/
theorem extractFirstU64_of_startsWord {s : String} {c : Char} {cs : List Char}
    (hs : s.toList = c :: cs) (hc : StartsWord c) : extractFirstU64 s = none := by
  obtain ⟨hspace, hopen, hclose, hcomma, hplus, hdigit⟩ := hc
  obtain ⟨ds, hds⟩ := exists_trim_cons hspace cs
  have hopened : (trim s.toList).dropWhile (· = '[') = c :: ds := by
    rw [hs, hds, List.dropWhile_cons_of_neg (by simpa using hopen)]
  obtain ⟨es, rest, hes⟩ :=
    exists_splitOn_cons hcomma (ds.reverse.dropWhile (· = ']')).reverse
  obtain ⟨fs, hfs⟩ := exists_trim_cons hspace es
  rw [extractFirstU64]
  simp only [hopened]
  rw [reverse_dropWhile_cons (by simpa using hclose), hes, List.head?_cons, Option.bind_some,
    hfs, parseU64_cons hplus hdigit]

/-! ## No id survives -/

theorem toList_append_cons {s : String} {c : Char} {cs : List Char} (h : s.toList = c :: cs)
    (t : String) : (s ++ t).toList = c :: (cs ++ t.toList) := by
  rw [String.toList_append, h, List.cons_append]

theorem startsWord_letter {c : Char} (h : c = 'N' ∨ c = 'U' ∨ c = '<') : StartsWord c := by
  rcases h with rfl | rfl | rfl <;> (unfold StartsWord; decide)

section Readers

variable {V : Type} (debugValue : V → String)

/-- The text begins with the name of a variant, or says that there is none. -/
theorem exists_eventPayload_cons (fields : Option (Composite V)) :
    ∃ c cs, (eventPayload debugValue fields).toList = c :: cs ∧ StartsWord c := by
  cases fields with
  | none =>
      refine ⟨'<', "undecodable>".toList, ?_, startsWord_letter (.inr (.inr rfl))⟩
      rw [eventPayload]
      rfl
  | some composite =>
      -- the name of the variant comes before the bracket that the readers strip
      cases composite with
      | named fields =>
          have hname : "Named([".toList = 'N' :: "amed([".toList := rfl
          exact ⟨'N', _, toList_append_cons (toList_append_cons hname _) _,
            startsWord_letter (.inl rfl)⟩
      | unnamed values =>
          have hname : "Unnamed([".toList = 'U' :: "nnamed([".toList := rfl
          exact ⟨'U', _, toList_append_cons (toList_append_cons hname _) _,
            startsWord_letter (.inr (.inl rfl))⟩

/-- Neither reader finds a first id in a stored payload. -/
theorem extract_eventPayload (fields : Option (Composite V)) :
    extractFirstU64 (eventPayload debugValue fields) = none ∧
      (extractTwoU64 (eventPayload debugValue fields)).1 = none := by
  obtain ⟨c, cs, hcs, hc⟩ := exists_eventPayload_cons debugValue fields
  have hfirst := extractFirstU64_of_startsWord hcs hc
  exact ⟨hfirst, by rw [Backfill.extractTwoU64_fst, hfirst]⟩

/-- The first id of an event is read back from the payload stored for it. -/
def FirstIdSurvives (idOf : V → Option UInt64) (fields : Composite V) : Prop :=
  ∃ a, fields.values[0]?.bind idOf = some a ∧
    extractFirstU64 (eventPayload debugValue (some fields)) = some a

/-- So are the first two. -/
def BothIdsSurvive (idOf : V → Option UInt64) (fields : Composite V) : Prop :=
  ∃ a b, fields.values[0]?.bind idOf = some a ∧ fields.values[1]?.bind idOf = some b ∧
    extractTwoU64 (eventPayload debugValue (some fields)) = (some a, some b)

/-- **No id survives the trip through the stored payload**, for no event, and however the values
are rendered and the ids among them are told. -/
theorem ids_never_survive (idOf : V → Option UInt64) (fields : Composite V) :
    ¬ FirstIdSurvives debugValue idOf fields ∧ ¬ BothIdsSurvive debugValue idOf fields := by
  obtain ⟨hfirst, htwo⟩ := extract_eventPayload debugValue (some fields)
  constructor
  · rintro ⟨a, -, ha⟩
    rw [hfirst] at ha
    cases ha
  · rintro ⟨a, b, -, -, hab⟩
    rw [hab] at htwo
    cases htwo

/-- The backfill of a key is a no-op on the events that the worker stores. -/
theorem backfillEvent_eventPayload {pg : Jsonb} {key : String} {rows : List OutboundExtrinsic}
    {ev : ChainEventRow} (h : ∃ fields, ev.payload = eventPayload debugValue fields) :
    backfillEvent pg key rows ev = rows := by
  obtain ⟨fields, hpayload⟩ := h
  have hfirst := (extract_eventPayload debugValue fields).1
  have hnone : backfillUpdate key ev = none := by
    simp only [backfillUpdate, hpayload, hfirst, Option.map_none, ite_self]
  rw [backfillEvent, hnone]

/-- `backfill_once` writes nothing, whatever rows and keys there are. -/
theorem backfillOnce_eventPayload {pg : Jsonb} {keys : List String} {events : List ChainEventRow}
    {rows : List OutboundExtrinsic}
    (h : ∀ ev ∈ events, ∃ fields, ev.payload = eventPayload debugValue fields) :
    backfillOnce pg keys events rows = rows := by
  have hevents : ∀ (key : String) (evs : List ChainEventRow), (∀ ev ∈ evs, ev ∈ events) →
      evs.foldl (backfillEvent pg key) rows = rows := by
    intro key evs hmem
    induction evs with
    | nil => rfl
    | cons ev evs ih =>
        rw [List.foldl_cons,
          backfillEvent_eventPayload debugValue (h ev (hmem ev List.mem_cons_self))]
        exact ih fun ev' hev' => hmem ev' (List.mem_cons_of_mem _ hev')
  rw [backfillOnce]
  induction keys with
  | nil => rfl
  | cons key keys ih =>
      have hkey := hevents key (eventsFor events key) fun ev hev =>
        List.mem_of_mem_filter (List.mem_mergeSort.mp hev)
      rw [List.foldl_cons, hkey, ih]

/-- The branch of `TaskMatched` sends no statement. -/
theorem ops_taskMatched_eventPayload {d : Delivery} {fields : Option (Composite V)}
    (h : d.event = .taskMatched (eventPayload debugValue fields)) : d.ops = some [] := by
  have htwo := (extract_eventPayload debugValue fields).2
  simp only [Delivery.ops, h]
  split
  · next hids =>
      rw [hids] at htwo
      cases htwo
  · rfl

end Readers

/-! ### The fields of a `TaskCreated` -/

/-- The rendering of an unsigned number. -/
def debugNumber (n : Nat) : String :=
  "Value \x7b value: Primitive(U128(" ++ toString n ++ ")), context: 4 \x7d"

/-- Task 7 with a budget of 100. -/
def createdFields : Composite Nat := .named [("task_id", 7), ("budget", 100)]

/-- **Their text is read as no id at all.** -/
theorem createdFields_unread :
    createdFields.values[0]?.bind (fun n => some (UInt64.ofNat n)) = some 7 ∧
      ¬ FirstIdSurvives debugNumber (fun n => some (UInt64.ofNat n)) createdFields := by
  refine ⟨rfl, ?_⟩
  rintro ⟨a, -, ha⟩
  rw [(extract_eventPayload debugNumber (some createdFields)).1] at ha
  cases ha

end Ainur.Bridge
