import Ainur.Lib.Utf8
import Ainur.Outbox.System

set_option autoImplicit false

/-! # The error of a failed attempt

`run_outbox` cuts the error of a submission to 512 bytes before it writes it to `last_error`, and
`String::truncate` panics where byte 512 is inside a character. The column is checked in
characters. An error is recorded exactly when it has at most 512 bytes or a character begins at
byte 512, and what is recorded is then a beginning of the error that the check admits.
-/

namespace Ainur.Outbox

/-! ## The cut -/

/-- The bytes of an error. -/
def errBytes (err : String) : List UInt8 := Utf8.encode err.toList

/-- What is left of a text after the cut: all of it where it is short enough, else the beginning
of `n` bytes. -/
theorem truncateChars_eq_some_iff {n : Nat} {cs l : List Char} :
    truncateChars n cs = some l ↔
      ∃ r, cs = l ++ r ∧
        ((Utf8.encode l).length = n ∨ r = [] ∧ (Utf8.encode l).length ≤ n) := by
  induction n, cs using truncateChars.induct generalizing l with
  | case1 cs =>
      simp only [truncateChars, Option.some.injEq]
      constructor
      · rintro rfl
        exact ⟨cs, rfl, .inl rfl⟩
      · rintro ⟨r, -, h⟩
        have hl := Utf8.length_le_length_encode l
        exact (List.length_eq_zero_iff.1 (by omega)).symm
  | case2 n =>
      simp only [truncateChars, Option.some.injEq]
      constructor
      · rintro rfl
        exact ⟨[], rfl, .inr ⟨rfl, Nat.zero_le _⟩⟩
      · rintro ⟨r, h, -⟩
        exact (List.append_eq_nil_iff.1 h.symm).1.symm
  | case3 n c cs hc ih =>
      simp only [truncateChars, if_pos hc, Option.map_eq_some_iff, ih]
      constructor
      · rintro ⟨l', ⟨r, rfl, h⟩, rfl⟩
        refine ⟨r, rfl, ?_⟩
        rw [Utf8.length_encode_cons]
        exact h.imp (fun h => by omega) fun h => ⟨h.1, by omega⟩
      · rintro ⟨r, hcs, h⟩
        cases l with
        | nil =>
            rcases h with h | ⟨rfl, -⟩
            · simp at h
            · cases hcs
        | cons d l =>
            obtain ⟨rfl, hcs'⟩ := List.cons.inj hcs
            rw [Utf8.length_encode_cons] at h
            exact ⟨l, ⟨r, hcs', h.imp (fun h => by omega) fun h => ⟨h.1, by omega⟩⟩, rfl⟩
  | case4 n c cs hc =>
      simp only [truncateChars, if_neg hc, reduceCtorEq, false_iff]
      rintro ⟨r, hcs, h⟩
      -- the first character alone is longer than what may stay
      cases l with
      | nil =>
          rcases h with h | ⟨rfl, -⟩
          · simp at h
          · cases hcs
      | cons d l =>
          obtain ⟨rfl, -⟩ := List.cons.inj hcs
          rw [Utf8.length_encode_cons] at h
          omega

/-- The cut does not panic exactly where it is at a boundary, or past the end. -/
theorem truncateChars_isSome_iff {n : Nat} {cs : List Char} :
    (∃ l, truncateChars n cs = some l) ↔
      (Utf8.encode cs).length ≤ n ∨ Utf8.IsCharBoundary (Utf8.encode cs) n := by
  simp only [truncateChars_eq_some_iff, Utf8.isCharBoundary_encode_iff]
  constructor
  · rintro ⟨l, r, rfl, h | ⟨rfl, h⟩⟩
    · exact .inr ⟨l, r, rfl, h⟩
    · exact .inl (by rwa [List.append_nil])
  · rintro (h | ⟨l, r, hcs, h⟩)
    · exact ⟨cs, [], (List.append_nil cs).symm, .inr ⟨rfl, h⟩⟩
    · exact ⟨l, r, hcs, .inl h⟩

/-- `truncateErr` returns where the error is short or a character begins at byte 512. -/
theorem truncateErr_isSome_iff {err : String} :
    (∃ t, truncateErr err = some t) ↔
      (errBytes err).length ≤ 512 ∨ Utf8.IsCharBoundary (errBytes err) 512 := by
  rw [errBytes, ← truncateChars_isSome_iff]
  simp only [truncateErr, Option.map_eq_some_iff]
  constructor
  · rintro ⟨_, l, hl, -⟩
    exact ⟨l, hl⟩
  · rintro ⟨l, hl⟩
    exact ⟨_, l, hl, rfl⟩

/-- What it returns is a beginning of the error, of at most 512 bytes. -/
theorem truncateErr_spec {err t : String} (h : truncateErr err = some t) :
    t.toList <+: err.toList ∧ (errBytes t).length ≤ 512 := by
  obtain ⟨l, hl, rfl⟩ := Option.map_eq_some_iff.1 h
  obtain ⟨r, hr, hlen⟩ := truncateChars_eq_some_iff.1 hl
  rw [errBytes, String.toList_ofList]
  refine ⟨⟨r, hr.symm⟩, ?_⟩
  rcases hlen with hlen | ⟨-, hlen⟩
  · exact Nat.le_of_eq hlen
  · exact hlen

/-! ## The update -/

/-- An error is recorded: the cut returns, what it returns is a beginning of the error of at most
512 characters, and the update passes the checks of the table. -/
def Recorded (err : String) : Prop :=
  ∃ t, truncateErr err = some t ∧ t.toList <+: err.toList ∧ t.length ≤ 512 ∧
    ∀ (row : OutboundExtrinsic) (status : OutboxStatus) (now : Nat),
      row.checks = true → (row.fail status t now).checks = true

theorem Recorded.ne_none {err : String} (h : Recorded err) : truncateErr err ≠ none := by
  obtain ⟨t, ht, -⟩ := h
  rw [ht]
  exact Option.some_ne_none t

theorem checks_fail {row : OutboundExtrinsic} {status : OutboxStatus} {t : String} {now : Nat}
    (hrow : row.checks = true) (ht : t.length ≤ 512) : (row.fail status t now).checks = true := by
  simp only [OutboundExtrinsic.checks, OutboundExtrinsic.fail, Bool.and_eq_true] at hrow ⊢
  exact ⟨hrow.1, by simpa using ht⟩

theorem recorded_of_truncateErr {err t : String} (h : truncateErr err = some t) :
    Recorded err := by
  obtain ⟨hpre, hbytes⟩ := truncateErr_spec h
  have hlen : t.length ≤ 512 := by
    calc t.length
      _ = t.toList.length := String.length_toList.symm
      _ ≤ (errBytes t).length := Utf8.length_le_length_encode t.toList
      _ ≤ 512 := hbytes
  exact ⟨t, h, hpre, hlen, fun row status now hrow => checks_fail hrow hlen⟩

/-- **When an error is recorded.** An error that is no connection error is cut without a panic,
and the update passes, exactly when it has at most 512 bytes or a character begins at byte 512. -/
theorem recorded_iff (err : String) (_hconn : isConnectionErr err = false) :
    Recorded err ↔
      (errBytes err).length ≤ 512 ∨ Utf8.IsCharBoundary (errBytes err) 512 := by
  rw [← truncateErr_isSome_iff]
  constructor
  · rintro ⟨t, ht, -⟩
    exact ⟨t, ht⟩
  · rintro ⟨t, ht⟩
    exact recorded_of_truncateErr ht

theorem recorded_iff_invalidTransaction :
    isConnectionErr "submit: Invalid Transaction" = false ∧
      (Recorded "submit: Invalid Transaction" ↔
        (errBytes "submit: Invalid Transaction").length ≤ 512 ∨
          Utf8.IsCharBoundary (errBytes "submit: Invalid Transaction") 512) :=
  ⟨by decide, recorded_iff _ (by decide)⟩

/-- A message of 511 bytes and one character of two more. -/
def cutInside : List Char := "submit: ".toList ++ List.replicate 503 '-' ++ ['é']

/-- The worker panics on it. -/
theorem cutInside_panics :
    isConnectionErr (String.ofList cutInside) = false ∧
      truncateErr (String.ofList cutInside) = none := by
  simp only [isConnectionErr, containsStr, truncateErr, String.toList_ofList]
  decide +kernel

theorem cutInside_not_recorded :
    isConnectionErr (String.ofList cutInside) = false ∧ ¬ Recorded (String.ofList cutInside) := by
  obtain ⟨hconn, hnone⟩ := cutInside_panics
  exact ⟨hconn, fun h => h.ne_none hnone⟩

end Ainur.Outbox
