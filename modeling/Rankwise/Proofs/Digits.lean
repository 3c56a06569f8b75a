import Mathlib.Data.Nat.Digits.Defs
import Rankwise.CallId

/-!
# Digits

A number is written as the digits that stand for it (`exists_digits`). So the identifier of a call
is read back out of its text (`CallId.ofText?_text`).
-/

namespace Rankwise

/-- The number that digits in a base stand for, the first one worth most. -/
def ofDigits (base : Nat) (digits : List Nat) : Nat :=
  digits.foldl (fun n digit => base * n + digit) 0

/-- A further digit counts once, and those before it count times the base. -/
theorem ofDigits_concat (base : Nat) (digits : List Nat) (digit : Nat) :
    ofDigits base (digits ++ [digit]) = base * ofDigits base digits + digit := by
  rw [ofDigits, List.foldl_append]
  rfl

/-- The digits of a number. The first one is not zero unless it is the only one. -/
theorem exists_digits (base number : Nat) (proper : 1 < base) :
    ∃ first rest, Nat.toDigits base number = (first :: rest).map Nat.digitChar ∧
      (∀ digit ∈ first :: rest, digit < base) ∧ ofDigits base (first :: rest) = number ∧
      (first = 0 → rest = []) := by
  induction number using Nat.strong_induction_on with
  | _ number inductionHypothesis =>
    rw [Nat.toDigits_eq_if proper]
    by_cases small : number < base
    · rw [if_pos small]
      exact ⟨number, [], rfl, by simpa using small, by simp [ofDigits], fun _ => rfl⟩
    · rw [if_neg small]
      have positive : 0 < number / base := Nat.div_pos (by omega) (by omega)
      obtain ⟨first, rest, spelled, below, worth, single⟩ :=
        inductionHypothesis (number / base) (Nat.div_lt_self (by omega) proper)
      refine ⟨first, rest ++ [number % base], ?_, ?_, ?_, ?_⟩
      · rw [spelled, ← List.cons_append, List.map_append]
        rfl
      · intro digit member
        rw [← List.cons_append] at member
        rcases List.mem_append.mp member with earlier | last
        · exact below digit earlier
        · exact List.mem_singleton.mp last ▸ Nat.mod_lt _ (by omega)
      · rw [← List.cons_append, ofDigits_concat, worth]
        exact Nat.div_add_mod number base
      · rintro rfl
        obtain rfl := single rfl
        rw [← worth] at positive
        exact absurd positive (Nat.lt_irrefl 0)

namespace CallId

/-- A digit is found again from its character. -/
theorem hexadecimal?_digitChar (digit : Nat) (small : digit < 16) :
    Json.Lexer.hexadecimal? digit.digitChar = some digit := by
  have all : ∀ digit < 16, Json.Lexer.hexadecimal? digit.digitChar = some digit := by decide
  exact all digit small

/-- Digits are found again from their characters. -/
theorem mapM_hexadecimal? (digits : List Nat) (small : ∀ digit ∈ digits, digit < 16) :
    (digits.map Nat.digitChar).mapM Json.Lexer.hexadecimal? = some digits := by
  induction digits with
  | nil => rfl
  | cons digit rest inductionHypothesis =>
    rw [List.forall_mem_cons] at small
    rw [List.map_cons, List.mapM_cons, hexadecimal?_digitChar digit small.1,
      inductionHypothesis small.2]
    rfl

/-- An identifier of at most 128 bits is read back out of its digits. -/
theorem ofDigits?_digits (id : CallId) (fits : id.number < 2 ^ 128) :
    id.digits.length = 32 ∧ ofDigits? id.digits = some id := by
  obtain ⟨first, rest, spelled, below, worth, -⟩ := exists_digits 16 id.number (by decide)
  have short : (first :: rest).length ≤ 32 := by
    have length := Nat.toDigits_length 16 id.number 32 (by decide) fits
    rwa [spelled, List.length_map] at length
  let padded := List.replicate (32 - (first :: rest).length) 0 ++ first :: rest
  have digits : id.digits = padded.map Nat.digitChar := by
    rw [CallId.digits, spelled, List.map_append, List.map_replicate, List.length_map]
    rfl
  have length : padded.length = 32 := by
    rw [List.length_append, List.length_replicate]
    omega
  have worthToo : ofDigits 16 padded = id.number := by
    have zeros (count : Nat) : ofDigits 16 (List.replicate count 0) = 0 := by
      induction count with
      | zero => rfl
      | succ count inductionHypothesis =>
        rw [List.replicate_succ', ofDigits_concat, inductionHypothesis]
    rw [← worth, ofDigits, List.foldl_append]
    exact congrArg (List.foldl (fun n digit => 16 * n + digit) · (first :: rest)) (zeros _)
  refine ⟨by rw [digits, List.length_map, length], ?_⟩
  rw [digits, ofDigits?, mapM_hexadecimal? padded]
  · show (if padded.length = 32 then some (⟨ofDigits 16 padded⟩ : CallId) else none) = some id
    rw [if_pos length, worthToo]
  · intro digit member
    rcases List.mem_append.mp member with zero | written
    · exact (List.eq_of_mem_replicate zero) ▸ by decide
    · exact below digit written

/-- Digits that are written in five groups are found in their groups. -/
theorem ofGroups?_groups (a b c d e : List Char) (lengthA : a.length = 8) (lengthB : b.length = 4)
    (lengthC : c.length = 4) (lengthD : d.length = 4) (lengthE : e.length = 12) :
    (a ++ '-' :: b ++ '-' :: c ++ '-' :: d ++ '-' :: e).length = 36 ∧
      ofGroups? (a ++ '-' :: b ++ '-' :: c ++ '-' :: d ++ '-' :: e) =
        ofDigits? (a ++ b ++ c ++ d ++ e) := by
  have length : (a ++ '-' :: b ++ '-' :: c ++ '-' :: d ++ '-' :: e).length = 36 := by
    simp [lengthA, lengthB, lengthC, lengthD, lengthE]
  have hyphens : [8, 13, 18, 23].all (fun place =>
      (a ++ '-' :: b ++ '-' :: c ++ '-' :: d ++ '-' :: e)[place]? = some '-') = true := by
    simp [List.getElem?_append, lengthA, lengthB, lengthC, lengthD]
  refine ⟨length, ?_⟩
  rw [ofGroups?, if_pos ⟨length, hyphens⟩]
  congr 1
  simp (disch := omega) [List.drop_append, List.drop_of_length_le, lengthA, lengthB, lengthC, lengthD]

/-- The identifier of a call is read back out of its text. -/
theorem ofText?_text (id : CallId) (fits : id.number < 2 ^ 128) : ofText? id.text = some id := by
  obtain ⟨length, read⟩ := ofDigits?_digits id fits
  obtain ⟨whole, groups⟩ := ofGroups?_groups (id.digits.take 8) ((id.digits.drop 8).take 4)
    ((id.digits.drop 12).take 4) ((id.digits.drop 16).take 4) (id.digits.drop 20)
    (by simp [length]) (by simp [length]) (by simp [length]) (by simp [length]) (by simp [length])
  have together : id.digits.take 8 ++ (id.digits.drop 8).take 4 ++ (id.digits.drop 12).take 4 ++
      (id.digits.drop 16).take 4 ++ id.digits.drop 20 = id.digits := by
    have step (place : Nat) : (id.digits.drop place).take 4 ++ id.digits.drop (place + 4) =
        id.digits.drop place := by
      rw [← List.drop_drop, List.take_append_drop]
    simp only [List.append_assoc, step, List.take_append_drop]
  rw [ofText?, text, String.toList_ofList, whole]
  exact groups.trans (together.symm ▸ read)

end CallId

end Rankwise
