import Mathlib.Data.List.Basic
import Rankwise.Json.Written
import Rankwise.Json.Writer
import Rankwise.Proofs.Digits

/-!
# Tokens of written values

The machine that finds tokens goes through a text once, so what it comes to is told piece by piece:
the characters of a piece spell some tokens (`Json.Spells`) if the machine, having gone through
them, has found these tokens in addition, whatever it had found before and whatever follows. A
number ends only where something follows that cannot belong to it, so what follows has to be a mark
or the end. Strings are spelled with their escapes, integers of a word by their digits, and arrays
and objects by their parts.
-/

namespace Rankwise.Json

namespace Lexer

/-- The tokens that the machine comes to when it goes on with a text. -/
def rest? (lexer : Lexer) (text : Text) : Option (List Token) :=
  (text.foldlM step lexer).bind finish

/-- The machine goes on with the first character and then with the others. -/
theorem rest?_cons (lexer : Lexer) (c : Option Char) (text : Text) :
    lexer.rest? (c :: text) = (lexer.step c).bind (rest? · text) := by
  rw [rest?, List.foldlM_cons]
  show Option.bind (Option.bind _ _) _ = _
  rw [Option.bind_assoc]
  rfl

end Lexer

/-- The text is at its end or goes on with a mark that ends a number. -/
def Ends : Text → Prop
  | [] => True
  | some c :: _ => c ∈ [',', ':', ']', '\x7d']
  | none :: _ => False

/-- The characters spell these tokens, whatever was found before and whatever follows. -/
def Spells (chars : List Char) (tokens : List Token) : Prop :=
  ∀ found rest, Ends rest →
    Lexer.rest? { found } (chars.map some ++ rest) =
      Lexer.rest? { found := tokens.reverse ++ found } rest

/-- The word for nothing spells nothing. -/
theorem spells_null : Spells "null".toList [.null] := fun _ _ _ => rfl

/-- The words for truth values spell them. -/
theorem spells_boolean (value : Bool) :
    Spells (if value then "true" else "false").toList [.boolean value] := by
  cases value <;> exact fun _ _ _ => rfl

/-! Strings. -/

/-- The piece stands for the character, whatever follows. -/
def Piece.Means (piece : Piece) (c : Char) : Prop :=
  ∀ rest content, Piece.content? rest = some content →
    Piece.content? (piece :: rest) = some (c :: content)

/-- A character that stands for itself does so. -/
theorem Piece.means_character (c : Char) : Means (.character c) c := by
  intro rest content known
  rw [content?, known]
  rfl

/-- A unit that is no half of a surrogate pair stands for a character of its own. -/
theorem Piece.means_unit (c : Char) (small : c < ' ') : Means (.unit c.toNat) c := by
  intro rest content known
  have code : c.toNat < 0x20 := small
  have alone : isLeading c.toNat = false ∧ isTrailing c.toNat = false := by
    constructor <;> simp [isLeading, isTrailing] <;> omega
  have apart : content? (.unit c.toNat :: rest) = (content? rest).map (Char.ofNat c.toNat :: ·) := by
    cases rest with
    | nil => simp [content?, alone]
    | cons next others => cases next <;> simp [content?, alone]
  rw [apart, known, Char.ofNat_toNat]
  rfl

namespace Lexer

/-- A short escape within a string is read as the character that it stands for. -/
theorem rest?_shortEscape (mark meant : Char) (short : shortEscape? mark = some meant)
    (known : mark ≠ 'u') (found : List Token) (pieces : List Piece) (rest : Text) :
    rest? { reading := .string .outside pieces, found } (['\\', mark].map some ++ rest) =
      rest? { reading := .string .outside (.character meant :: pieces), found } rest := by
  show rest? _ (some '\\' :: some mark :: rest) = _
  rw [rest?_cons, show step { reading := .string .outside pieces, found } (some '\\') =
    some { reading := .string .backslash pieces, found } from rfl, Option.bind_some, rest?_cons]
  have step : inString found .backslash pieces (some mark) =
      some { reading := .string .outside (.character meant :: pieces), found } := by
    unfold inString
    split <;> simp_all
  show Option.bind (inString found .backslash pieces (some mark)) _ = _
  rw [step, Option.bind_some]

/-- A hexadecimal digit of an escape within a string. -/
theorem rest?_hexadecimal (mark : Char) (digit missing value : Nat)
    (known : hexadecimal? mark = some digit) (found : List Token) (pieces : List Piece)
    (rest : Text) :
    rest? { reading := .string (.hexadecimal missing value) pieces, found } (some mark :: rest) =
      if missing ≤ 1 then
        rest? { reading := .string .outside (.unit (16 * value + digit) :: pieces), found } rest
      else
        rest? { reading := .string (.hexadecimal (missing - 1) (16 * value + digit)) pieces, found }
          rest := by
  have step : inString found (.hexadecimal missing value) pieces (some mark) =
      some (if missing ≤ 1 then
        { reading := .string .outside (.unit (16 * value + digit) :: pieces), found }
      else { reading := .string (.hexadecimal (missing - 1) (16 * value + digit)) pieces
             found }) := by
    rw [inString, known, Option.map_some]
  rw [rest?_cons]
  refine (congrArg (Option.bind · _) step).trans ?_
  rw [Option.bind_some]
  split <;> rfl

/-- A hexadecimal digit is found again from its character. -/
theorem hexadecimal?_hexadecimalDigit (digit : Nat) (small : digit < 16) :
    hexadecimal? (hexadecimalDigit digit) = some digit := by
  have all : ∀ digit < 16, hexadecimal? (hexadecimalDigit digit) = some digit := by decide
  exact all digit small

/-- Within a string, what is written for a character is read as a piece that stands for it. -/
theorem rest?_escaped (c : Char) : ∃ piece : Piece, piece.Means c ∧
    ∀ found pieces rest,
      rest? { reading := .string .outside pieces, found } ((escaped c).map some ++ rest) =
        rest? { reading := .string .outside (piece :: pieces), found } rest := by
  unfold escaped
  split_ifs with quote backslash back feed line carriage tab small
  · exact ⟨_, Piece.means_character c, rest?_shortEscape _ _ (by rw [quote]; rfl) (by decide)⟩
  · exact ⟨_, Piece.means_character c, rest?_shortEscape _ _ (by rw [backslash]; rfl) (by decide)⟩
  · exact ⟨_, Piece.means_character c, rest?_shortEscape _ _ (by rw [back]; rfl) (by decide)⟩
  · exact ⟨_, Piece.means_character c, rest?_shortEscape _ _ (by rw [feed]; rfl) (by decide)⟩
  · exact ⟨_, Piece.means_character c, rest?_shortEscape _ _ (by rw [line]; rfl) (by decide)⟩
  · exact ⟨_, Piece.means_character c, rest?_shortEscape _ _ (by rw [carriage]; rfl) (by decide)⟩
  · exact ⟨_, Piece.means_character c, rest?_shortEscape _ _ (by rw [tab]; rfl) (by decide)⟩
  · refine ⟨.unit c.toNat, Piece.means_unit c small, fun found pieces rest => ?_⟩
    have code : c.toNat < 0x20 := small
    have worth : 16 * (c.toNat / 16) + c.toNat % 16 = c.toNat := Nat.div_add_mod c.toNat 16
    have high := hexadecimal?_hexadecimalDigit (c.toNat / 16) (by omega)
    have low := hexadecimal?_hexadecimalDigit (c.toNat % 16) (Nat.mod_lt _ (by decide))
    show rest? { reading := .string (.hexadecimal 4 0) pieces, found } (some '0' :: some '0' ::
      some (hexadecimalDigit (c.toNat / 16)) :: some (hexadecimalDigit (c.toNat % 16)) :: rest) = _
    rw [rest?_hexadecimal '0' 0 4 0 rfl, if_neg (by decide), rest?_hexadecimal '0' 0 _ _ rfl,
      if_neg (by decide), rest?_hexadecimal _ _ _ _ high, if_neg (by decide),
      rest?_hexadecimal _ _ _ _ low, if_pos (by decide)]
    simp only [Nat.mul_zero, Nat.zero_add, worth]
  · refine ⟨.character c, Piece.means_character c, fun found pieces rest => ?_⟩
    have step : inString found .outside pieces (some c) =
        some { reading := .string .outside (.character c :: pieces), found } := by
      unfold inString
      split <;> simp_all
    show rest? _ (some c :: rest) = _
    rw [rest?_cons]
    exact congrArg (Option.bind · _) step

/-- What is written for characters is read as pieces that stand for them. -/
theorem rest?_flatMap_escaped (chars : List Char) : ∃ written, Piece.content? written = some chars ∧
    ∀ found pieces rest,
      rest? { reading := .string .outside pieces, found }
          ((chars.flatMap escaped).map some ++ rest) =
        rest? { reading := .string .outside (written.reverse ++ pieces), found } rest := by
  induction chars with
  | nil => exact ⟨[], rfl, fun _ _ _ => rfl⟩
  | cons c chars inductionHypothesis =>
    obtain ⟨piece, means, first⟩ := rest?_escaped c
    obtain ⟨written, content, others⟩ := inductionHypothesis
    refine ⟨piece :: written, means written chars content, fun found pieces rest => ?_⟩
    rw [List.flatMap_cons, List.map_append, List.append_assoc, first, others, List.reverse_cons,
      List.append_assoc]
    rfl

end Lexer

/-- A text between quotes spells the text. -/
theorem spells_quoted (text : String) : Spells (quoted text).toList [.string (some text)] := by
  intro found rest _
  obtain ⟨written, content, read⟩ := Lexer.rest?_flatMap_escaped text.toList
  rw [quoted, String.toList_ofList, List.map_cons, List.map_append, List.cons_append,
    List.append_assoc]
  refine (read found [] ([some '"'] ++ rest)).trans ?_
  rw [List.append_nil]
  show Lexer.rest? { found := .string ((Piece.content? written.reverse.reverse).map String.ofList) ::
    found } rest = _
  rw [List.reverse_reverse, content, Option.map_some, String.ofList_toList]
  rfl

/-! Numbers. -/

namespace Lexer

/-- A decimal digit is found again from its character. -/
theorem digit?_digitChar (digit : Nat) (small : digit < 10) :
    digit? digit.digitChar = some digit := by
  have all : ∀ digit < 10, digit? digit.digitChar = some digit := by decide
  exact all digit small

/-- The first digit of a number, behind the minus sign or without one. -/
theorem rest?_firstDigit (negative : Bool) (digit : Nat) (small : digit < 10) (found : List Token)
    (rest : Text) :
    rest? (if negative then { reading := .number .start { negative, whole := [] }, found }
      else { found }) (some digit.digitChar :: rest) =
      rest? { reading := .number (if digit = 0 then .zero else .whole) { negative, whole := [digit] },
              found } rest := by
  cases negative with
  | false => match digit with | 0 | 1 | 2 | 3 | 4 | 5 | 6 | 7 | 8 | 9 => rfl
  | true => match digit with | 0 | 1 | 2 | 3 | 4 | 5 | 6 | 7 | 8 | 9 => rfl

/-- The digits of a number behind the first one. -/
theorem rest?_digits (digits : List Nat) (small : ∀ digit ∈ digits, digit < 10) (negative : Bool)
    (whole : List Nat) (found : List Token) (rest : Text) :
    rest? { reading := .number .whole { negative, whole }, found }
        ((digits.map Nat.digitChar).map some ++ rest) =
      rest? { reading := .number .whole { negative, whole := whole ++ digits }, found } rest := by
  induction digits generalizing whole with
  | nil => rw [List.append_nil]; rfl
  | cons digit digits inductionHypothesis =>
    rw [List.forall_mem_cons] at small
    have step : inNumber found .whole { negative, whole } digit.digitChar =
        some { reading := .number .whole { negative, whole := whole ++ [digit] }, found } := by
      unfold inNumber
      rw [digit?_digitChar digit small.1]
      rfl
    show rest? _ (some digit.digitChar :: ((digits.map Nat.digitChar).map some ++ rest)) = _
    rw [rest?_cons]
    refine (congrArg (Option.bind · _) step).trans ?_
    rw [Option.bind_some, inductionHypothesis small.2, List.append_assoc]
    rfl

/-- A number ends where the text does, or at a mark. -/
theorem rest?_ends (place : Digits) (ended : mayEnd place = true) (numeral : Numeral)
    (found : List Token) (rest : Text) (ends : Ends rest) :
    rest? { reading := .number place numeral, found } rest =
      rest? { found := .number numeral :: found } rest := by
  match rest with
  | [] =>
    show finish { reading := .number place numeral, found } =
      finish { found := .number numeral :: found }
    simp only [finish, ended, if_true]
  | none :: _ => cases ends
  | some c :: rest =>
    have step : inNumber found place numeral c = begin (.number numeral :: found) c := by
      simp only [Ends, List.mem_cons, List.not_mem_nil, or_false] at ends
      rcases ends with rfl | rfl | rfl | rfl <;> cases place <;> first | rfl | cases ended
    rw [rest?_cons, rest?_cons]
    exact congrArg (Option.bind · _) step

/-- The digits of a number, behind the minus sign or without one, up to where the number ends. -/
theorem rest?_number (negative : Bool) (number : Nat) :
    ∃ whole, ofDigits 10 whole = number ∧ ∀ found rest, Ends rest →
      rest? (if negative then { reading := .number .start { negative, whole := [] }, found }
        else { found }) ((Nat.toDigits 10 number).map some ++ rest) =
        rest? { found := .number { negative, whole } :: found } rest := by
  obtain ⟨first, others, spelled, small, worth, single⟩ := exists_digits 10 number (by decide)
  rw [List.forall_mem_cons] at small
  refine ⟨first :: others, worth, fun found rest ends => ?_⟩
  rw [spelled, List.map_cons, List.map_cons, List.cons_append,
    rest?_firstDigit negative first small.1]
  by_cases zero : first = 0
  · rw [if_pos zero, single zero]
    exact rest?_ends .zero rfl _ found rest ends
  · rw [if_neg zero, rest?_digits others small.2]
    exact rest?_ends .whole rfl _ found rest ends

end Lexer

/-- Digits without a sign are worth their number if it is a machine word. -/
theorem Numeral.value?_natural {whole : List Nat} {number : Nat}
    (worth : ofDigits 10 whole = number) (small : number < 0x10000000000000000) :
    ({ negative := false, whole } : Numeral).value? = some (.integer number) := by
  have read : ({ negative := false, whole } : Numeral).integer? = some (number : Int) := by
    show (if ofDigits 10 whole < _ then some ((ofDigits 10 whole : Nat) : Int) else none) = _
    rw [worth, if_pos small]
  rw [Numeral.value?, read]

/-- Digits behind a minus sign are worth their number if it is a machine word with a sign. -/
theorem Numeral.value?_negative {whole : List Nat} {number : Nat}
    (worth : ofDigits 10 whole = number + 1) (small : number + 1 ≤ 0x8000000000000000) :
    ({ negative := true, whole } : Numeral).value? = some (.integer (.negSucc number)) := by
  have read : ({ negative := true, whole } : Numeral).integer? = some (.negSucc number) := by
    show (if 0 < ofDigits 10 whole ∧ ofDigits 10 whole ≤ _ then
      some (-((ofDigits 10 whole : Nat) : Int)) else none) = _
    rw [worth, if_pos ⟨Nat.succ_pos number, small⟩, Int.negSucc_eq, Int.natCast_add]
    rfl
  rw [Numeral.value?, read]

/-- An integer that fits a word is spelled by a numeral that stands for it. -/
theorem spells_integer (value : Int)
    (fits : -0x8000000000000000 ≤ value ∧ value < 0x10000000000000000) :
    ∃ numeral : Numeral, numeral.value? = some (.integer value) ∧
      Spells (toString value).toList [.number numeral] := by
  cases value with
  | ofNat number =>
    obtain ⟨whole, worth, spelled⟩ := Lexer.rest?_number false number
    have text : (toString (Int.ofNat number)).toList = Nat.toDigits 10 number := by
      rw [show toString (Int.ofNat number) = toString number from rfl,
        Nat.toString_eq_ofList_toDigits, String.toList_ofList]
    refine ⟨_, Numeral.value?_natural worth (Int.ofNat_lt.mp fits.2), fun found rest ends => ?_⟩
    rw [text]
    exact spelled found rest ends
  | negSucc number =>
    obtain ⟨whole, worth, spelled⟩ := Lexer.rest?_number true (number + 1)
    have text : (toString (Int.negSucc number)).toList = '-' :: Nat.toDigits 10 (number + 1) := by
      rw [show toString (Int.negSucc number) = "-" ++ toString (number + 1) from rfl,
        String.toList_append, Nat.toString_eq_ofList_toDigits]
      exact congrArg ('-' :: ·) String.toList_ofList
    refine ⟨_, Numeral.value?_negative worth (by omega), fun found rest ends => ?_⟩
    rw [text]
    exact spelled found rest ends

/-! Arrays and objects. -/

/-- What is spelled on both sides of a mark that ends numbers is spelled together with the mark. -/
theorem Spells.join {chars others : List Char} {tokens otherTokens : List Token} {mark : Char}
    {token : Token} (first : Spells chars tokens) (second : Spells others otherTokens)
    (ends : mark ∈ [',', ':', ']', '\x7d'])
    (marks : ∀ found, Lexer.begin found mark = some { found := token :: found }) :
    Spells (chars ++ [mark] ++ others) (tokens ++ [token] ++ otherTokens) := by
  intro found rest ended
  have step : Lexer.rest? { found := tokens.reverse ++ found }
      (some mark :: (others.map some ++ rest)) =
      Lexer.rest? { found := token :: (tokens.reverse ++ found) } (others.map some ++ rest) := by
    rw [Lexer.rest?_cons]
    exact congrArg (Option.bind · _) (marks _)
  have read := first found (some mark :: (others.map some ++ rest)) ends
  simp only [List.map_append, List.map_cons, List.append_assoc, List.cons_append, List.nil_append,
    List.reverse_append, List.reverse_cons]
  rw [read, step, second _ rest ended]

/-- Texts with commas between them spell their tokens with commas between them. -/
theorem spells_intercalate {texts : List (List Char)} {tokens : List (List Token)}
    (each : List.Forall₂ Spells texts tokens) :
    Spells ([','].intercalate texts) ([.comma].intercalate tokens) := by
  induction each with
  | nil => exact fun _ _ _ => rfl
  | cons first others inductionHypothesis =>
    cases others with
    | nil =>
      rw [List.intercalate_singleton, List.intercalate_singleton]
      exact first
    | cons second others =>
      rw [List.intercalate_cons_cons, List.intercalate_cons_cons]
      exact first.join inductionHypothesis (by decide) fun _ => rfl

/-- What is spelled within brackets or braces is spelled together with them. -/
theorem Spells.enclosed {chars : List Char} {tokens : List Token} {opening closing : Char}
    {openToken closeToken : Token} (inner : Spells chars tokens)
    (ends : closing ∈ [',', ':', ']', '\x7d'])
    (opens : ∀ found, Lexer.begin found opening = some { found := openToken :: found })
    (closes : ∀ found, Lexer.begin found closing = some { found := closeToken :: found }) :
    Spells (opening :: (chars ++ [closing])) (openToken :: (tokens ++ [closeToken])) := by
  have closed : Spells (chars ++ [closing] ++ []) (tokens ++ [closeToken] ++ []) :=
    inner.join (fun _ _ _ => rfl) ends closes
  rw [List.append_nil, List.append_nil] at closed
  intro found rest ended
  rw [List.map_cons, List.cons_append, Lexer.rest?_cons]
  refine (congrArg (Option.bind · _) (opens found)).trans ?_
  rw [Option.bind_some, closed _ rest ended, List.reverse_cons, List.append_assoc]
  rfl

end Rankwise.Json
