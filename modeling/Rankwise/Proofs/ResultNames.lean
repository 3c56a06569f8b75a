import Mathlib.Data.Nat.Digits.Defs
import Rankwise.Group.Value

/-!
# The names of results

Every call has a number of its own and every partition that it hands out has a place, and the name
of a result is made of both. Main statement (`ResultId.ofOutput_inj`): results of different calls,
and results of one call at different places, bear different names.
-/

namespace Rankwise

/-! The digits of a number in base sixteen. -/

/-- Two hexadecimal digits that are written alike are the same. -/
theorem digitChar_inj (first second : Nat) (small : first < 16) (smallToo : second < 16)
    (same : first.digitChar = second.digitChar) : first = second := by
  have all : ∀ first < 16, ∀ second < 16,
      first.digitChar = second.digitChar → first = second := by decide
  exact all first small second smallToo same

/-- A number is known by its digits. The last digit and the digits before it belong to the remainder
and to the quotient. -/
theorem toDigits_inj (first second : Nat) (same : Nat.toDigits 16 first = Nat.toDigits 16 second) :
    first = second := by
  induction first using Nat.strong_induction_on generalizing second with
  | _ first inductionHypothesis =>
    rw [Nat.toDigits_eq_if (by decide), Nat.toDigits_eq_if (n := second) (by decide)] at same
    by_cases small : first < 16 <;> by_cases smallToo : second < 16
    · rw [if_pos small, if_pos smallToo] at same
      exact digitChar_inj first second small smallToo (List.singleton_inj.mp same)
    · rw [if_pos small, if_neg smallToo] at same
      have lengths := congrArg List.length same
      have some := Nat.length_toDigits_pos (b := 16) (n := second / 16)
      rw [List.length_append, List.length_singleton, List.length_singleton] at lengths
      omega
    · rw [if_neg small, if_pos smallToo] at same
      have lengths := congrArg List.length same
      have some := Nat.length_toDigits_pos (b := 16) (n := first / 16)
      rw [List.length_append, List.length_singleton, List.length_singleton] at lengths
      omega
    · rw [if_neg small, if_neg smallToo] at same
      obtain ⟨before, last⟩ := List.append_inj' same rfl
      have quotients := inductionHypothesis (first / 16) (by omega) (second / 16) before
      have remainders := digitChar_inj (first % 16) (second % 16) (Nat.mod_lt _ (by decide))
        (Nat.mod_lt _ (by decide)) (List.singleton_inj.mp last)
      omega

/-- A number with few digits is small. -/
theorem lt_of_toDigits (number : Nat) : number < 16 ^ (Nat.toDigits 16 number).length := by
  induction number using Nat.strong_induction_on with
  | _ number inductionHypothesis =>
    rw [Nat.toDigits_eq_if (by decide)]
    by_cases small : number < 16
    · rw [if_pos small]
      exact small
    · rw [if_neg small, List.length_append, List.length_singleton, Nat.pow_succ]
      have quotient := inductionHypothesis (number / 16) (by omega)
      omega

namespace CallId

/-- The identifiers of calls have at least thirty-two digits. -/
theorem digits_ofCounter (calls : Nat) :
    (ofCounter calls).digits = Nat.toDigits 16 (ofCounter calls).number ∧
      32 ≤ (ofCounter calls).digits.length := by
  have large : 32 ≤ (Nat.toDigits 16 (ofCounter calls).number).length := by
    by_contra short
    have bound := Nat.lt_of_lt_of_le (lt_of_toDigits (ofCounter calls).number)
      (Nat.pow_le_pow_right (by decide) (by omega : _ ≤ 31))
    have least : 0xf0000000000040008000000000000000 ≤ (ofCounter calls).number := Nat.le_add_right _ _
    exact absurd (Nat.lt_of_le_of_lt least bound) (by decide)
  have same : (ofCounter calls).digits = Nat.toDigits 16 (ofCounter calls).number := by
    unfold digits
    dsimp only
    rw [Nat.sub_eq_zero_of_le large]
    rfl
  exact ⟨same, same ▸ large⟩

/-- The digits of an identifier can be read off its text. -/
theorem digits_of_text {first second : CallId} (long : 32 ≤ first.digits.length)
    (longToo : 32 ≤ second.digits.length) (same : first.text = second.text) :
    first.digits = second.digits := by
  have chars := congrArg String.toList same
  simp only [text, String.toList_ofList, List.append_assoc, List.cons_append] at chars
  have group (place : Nat) (inside : place + 4 ≤ 32) :
      ((first.digits.drop place).take 4).length = ((second.digits.drop place).take 4).length := by
    simp only [List.length_take, List.length_drop]
    omega
  obtain ⟨one, chars⟩ := List.append_inj chars (by rw [List.length_take, List.length_take]; omega)
  obtain ⟨two, chars⟩ := List.append_inj (List.cons.inj chars).2 (group 8 (by decide))
  obtain ⟨three, chars⟩ := List.append_inj (List.cons.inj chars).2 (group 12 (by decide))
  obtain ⟨four, chars⟩ := List.append_inj (List.cons.inj chars).2 (group 16 (by decide))
  have five := (List.cons.inj chars).2
  have parts (digits : List Char) : digits = digits.take 8 ++ ((digits.drop 8).take 4 ++
      ((digits.drop 12).take 4 ++ ((digits.drop 16).take 4 ++ digits.drop 20))) := by
    have step (place : Nat) : (digits.drop place).take 4 ++ digits.drop (place + 4) =
        digits.drop place := by
      rw [← List.drop_drop, List.take_append_drop]
    rw [step 16, step 12, step 8, List.take_append_drop]
  rw [parts first.digits, parts second.digits, one, two, three, four, five]

/-- Calls are told apart by the texts of their identifiers. -/
theorem text_ofCounter_inj {first second : Nat}
    (same : (ofCounter first).text = (ofCounter second).text) : first = second := by
  obtain ⟨digits, long⟩ := digits_ofCounter first
  obtain ⟨digitsToo, longToo⟩ := digits_ofCounter second
  have numbers := toDigits_inj _ _ (digits.symm.trans ((digits_of_text long longToo same).trans
    digitsToo))
  exact Nat.add_left_cancel numbers

end CallId

/-- What follows the last mark is told apart from what precedes it. -/
theorem append_mark_inj {mark : Char} {first second rest other : List Char}
    (unmarked : mark ∉ rest) (unmarkedToo : mark ∉ other)
    (same : first ++ mark :: rest = second ++ mark :: other) : first = second ∧ rest = other := by
  rcases List.append_eq_append_iff.mp same with ⟨between, rfl, further⟩ | ⟨between, rfl, further⟩
  · cases between with
    | nil => exact ⟨(List.append_nil first).symm, (List.cons.inj further).2⟩
    | cons _ behind =>
      obtain ⟨-, rfl⟩ := List.cons.inj further
      exact absurd (List.mem_append_right behind List.mem_cons_self) unmarked
  · cases between with
    | nil => exact ⟨List.append_nil second, (List.cons.inj further).2.symm⟩
    | cons _ behind =>
      obtain ⟨-, rfl⟩ := List.cons.inj further
      exact absurd (List.mem_append_right behind List.mem_cons_self) unmarkedToo

/-- A number is written without a dash. -/
theorem mark_not_mem_toString (leaf : Nat) : '-' ∉ (toString leaf).toList := by
  intro member
  rw [Nat.toString_eq_ofList_toDigits, String.toList_ofList] at member
  exact absurd (Nat.isDigit_of_mem_toDigits (by decide) (by decide) member) (by decide)

/-- Two numbers that are written alike are the same. -/
theorem toString_inj {first second : Nat} (same : (toString first).toList = (toString second).toList) :
    first = second := by
  rw [Nat.toString_eq_ofList_toDigits, Nat.toString_eq_ofList_toDigits, String.toList_ofList,
    String.toList_ofList] at same
  rw [← Nat.ofDigitChars_ten_toDigits (n := first), same, Nat.ofDigitChars_ten_toDigits]

namespace ResultId

/-- Results of different calls, and results of one call at different places, bear different names.
-/
theorem ofOutput_inj {first second leaf other : Nat}
    (same : ofOutput (.ofCounter first) leaf = ofOutput (.ofCounter second) other) :
    first = second ∧ leaf = other := by
  have chars := congrArg String.toList (ResultId.mk.inj same)
  simp only [String.toList_append] at chars
  have marked : ("-" : String).toList = ['-'] := rfl
  rw [marked, List.append_assoc, List.append_assoc, List.singleton_append,
    List.singleton_append] at chars
  obtain ⟨texts, places⟩ := append_mark_inj (mark_not_mem_toString leaf) (mark_not_mem_toString other)
    chars
  exact ⟨CallId.text_ofCounter_inj (String.toList_inj.mp texts), toString_inj places⟩

end ResultId

end Rankwise
