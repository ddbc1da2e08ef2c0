import Offside.Token.Scan

/-! # How far a token reaches

A rule of the scanner may look at all of the text behind a token, but what it answers depends on
the token alone: cut off behind what it takes, or anywhere later, the text gives the same answer. So
each token can be scanned again without what surrounded it. There is one exception, and it changes
nothing: the dot behind a proper name stands alone because of that name, and elsewhere because no
operator character follows it.
-/

namespace Offside.Token

open Text

/-! ## Runs of characters -/

theorem run_le (condition : Char → Bool) (chars : List Char) :
    run condition chars ≤ chars.length :=
  (List.takeWhile_sublist condition).length_le

theorem blockCommentLength_le (depth : Nat) (chars : List Char) :
    blockCommentLength depth chars ≤ chars.length := by
  fun_induction blockCommentLength depth chars with
  | case1 => exact Nat.le_refl _
  | case2 depth rest ih => exact Nat.succ_le_succ (Nat.succ_le_succ ih)
  | case3 rest => exact Nat.le_add_left 2 rest.length
  | case4 rest outer ih => exact Nat.succ_le_succ (Nat.succ_le_succ ih)
  | case5 depth char rest notOpen notClose ih => exact Nat.succ_le_succ ih

theorem lineComment_le (rest : List Char) : (lineComment rest).2 ≤ rest.length := run_le _ rest

theorem nameFrom_le (first : Char) (rest : List Char) : (nameFrom first rest).2 ≤ rest.length :=
  run_le _ rest

theorem operatorFrom_le (first : Char) (rest : List Char) :
    (operatorFrom first rest).2 ≤ rest.length :=
  run_le _ rest

theorem fractionLength_le (chars : List Char) : fractionLength chars ≤ chars.length := by
  unfold fractionLength
  split
  · next digit rest =>
    split
    · exact Nat.succ_le_succ (Nat.succ_le_succ (run_le _ rest))
    · exact Nat.zero_le _
  · exact Nat.zero_le _

/-- Length of the sign in front of the digits of an exponent. -/
def signLength : List Char → Nat
  | first :: _ => if first == '+' || first == '-' then 1 else 0
  | [] => 0

theorem signLength_le (rest : List Char) : signLength rest ≤ rest.length := by
  cases rest with
  | nil => exact Nat.le_refl 0
  | cons first rest =>
    simp only [signLength]
    split
    · exact Nat.le_add_left 1 rest.length
    · exact Nat.zero_le _

theorem exponentLength_cons {letter : Char} (isLetter : (letter == 'e' || letter == 'E') = true)
    (rest : List Char) :
    exponentLength (letter :: rest) =
      if run Char.isDigit (rest.drop (signLength rest)) = 0 then 0
      else run Char.isDigit (rest.drop (signLength rest)) + signLength rest + 1 :=
  if_pos isLetter

theorem exponentLength_cons_of_ne {letter : Char}
    (other : (letter == 'e' || letter == 'E') = false) (rest : List Char) :
    exponentLength (letter :: rest) = 0 :=
  if_neg (by simp [other])

theorem exponentLength_le (chars : List Char) : exponentLength chars ≤ chars.length := by
  cases chars with
  | nil => exact Nat.le_refl 0
  | cons letter rest =>
    cases isLetter : letter == 'e' || letter == 'E' with
    | false =>
      rw [exponentLength_cons_of_ne isLetter]
      exact Nat.zero_le _
    | true =>
      have digits := run_le Char.isDigit (rest.drop (signLength rest))
      have sign := signLength_le rest
      rw [List.length_drop] at digits
      rw [exponentLength_cons isLetter, List.length_cons]
      split <;> omega

/-- Whether a number is hexadecimal. -/
def isHexPrefix (first : Char) (rest : List Char) : Bool :=
  first == '0' && (rest.head? == some 'x' || rest.head? == some 'X')

theorem numberFrom_of_hex {first : Char} {rest : List Char}
    (isHex : isHexPrefix first rest = true) :
    numberFrom first rest = (.integer, run isHexDigit rest.tail + 1) :=
  if_pos isHex

theorem numberFrom_of_decimal {first : Char} {rest : List Char}
    (isDecimal : isHexPrefix first rest = false) {whole fraction exponent : Nat}
    (wholeLength : run isDigitOrSpacer rest = whole)
    (fractionIs : fractionLength (rest.drop whole) = fraction)
    (exponentIs : exponentLength (rest.drop (whole + fraction)) = exponent) :
    numberFrom first rest =
      (if fraction = 0 && exponent = 0 then .integer else .number,
        whole + fraction + exponent) := by
  subst wholeLength fractionIs exponentIs
  exact if_neg (by rw [← isHexPrefix, isDecimal]; exact Bool.false_ne_true)

theorem numberFrom_le (first : Char) (rest : List Char) :
    (numberFrom first rest).2 ≤ rest.length := by
  cases isHex : isHexPrefix first rest with
  | true =>
    rw [numberFrom_of_hex isHex]
    have digits := run_le isHexDigit rest.tail
    cases rest with
    | nil => simp [isHexPrefix] at isHex
    | cons letter more => exact Nat.succ_le_succ digits
  | false =>
    rw [numberFrom_of_decimal isHex rfl rfl rfl]
    have whole := run_le isDigitOrSpacer rest
    have fraction := fractionLength_le (rest.drop (run isDigitOrSpacer rest))
    have exponent := exponentLength_le (rest.drop
      (run isDigitOrSpacer rest + fractionLength (rest.drop (run isDigitOrSpacer rest))))
    rw [List.length_drop] at fraction exponent
    dsimp only
    omega

theorem rawStringLength?_le {chars : List Char} {length : Nat}
    (found : rawStringLength? chars = some length) : length ≤ chars.length := by
  fun_induction rawStringLength? chars generalizing length with
  | case1 => cases found
  | case2 rest =>
    cases found
    exact Nat.add_le_add_right (run_le _ rest) 3
  | case3 char rest other ih =>
    obtain ⟨further, foundFurther, rfl⟩ := Option.map_eq_some_iff.mp found
    exact Nat.succ_le_succ (ih foundFurther)

theorem stringFrom_le (state : StringState) (chars : List Char) :
    (stringFrom state chars).2 ≤ chars.length := by
  induction chars generalizing state with
  | nil => exact Nat.le_refl 0
  | cons char rest ih =>
    unfold stringFrom
    split
    · exact Nat.succ_le_succ (ih _)
    · exact Nat.le_add_left 1 rest.length
    · exact Nat.zero_le _

theorem stringLiteral_le (rest : List Char) : (stringLiteral rest).2 ≤ rest.length := by
  unfold stringLiteral
  split
  · next more =>
    split
    · next length found => exact Nat.add_le_add_right (rawStringLength?_le found) 2
    · exact Nat.le_refl _
  · exact stringFrom_le .plain rest

theorem charBody_le (rest : List Char) : (charBody rest).2 ≤ rest.length := by
  fun_cases charBody rest with
  | case1 rest => exact Nat.add_le_add_right (run_le _ rest) 2
  | case2 rest => exact Nat.le_add_left 1 (rest.length + 1)
  | case3 => exact Nat.le_refl 1
  | case4 char rest => exact Nat.le_add_left 2 rest.length
  | case5 | case6 | case7 => exact Nat.zero_le _
  | case8 char rest => exact Nat.le_add_left 1 rest.length

theorem charLiteral_le (rest : List Char) : (charLiteral rest).2 ≤ rest.length := by
  have body := charBody_le rest
  unfold charLiteral
  dsimp only
  split
  · next closes =>
    -- there is a quote behind the body, so the body is not all there is
    refine Nat.lt_of_le_of_ne body fun all => ?_
    rw [List.drop_of_length_le (Nat.le_of_eq all.symm)] at closes
    simp at closes
  · exact body

/-- A token is made of characters that are there. -/
theorem scanToken_le (afterProper : Bool) (first : Char) (rest : List Char) :
    (scanToken afterProper first rest).2 ≤ rest.length := by
  unfold scanToken
  split; · exact run_le _ rest
  split; · exact lineComment_le rest
  split
  · next opens =>
    have inside := blockCommentLength_le 0 rest.tail
    cases rest with
    | nil => simp at opens
    | cons dash more => exact Nat.succ_le_succ inside
  split; · exact nameFrom_le first rest
  split; · exact numberFrom_le first rest
  split; · exact stringLiteral_le rest
  split; · exact charLiteral_le rest
  split; · exact Nat.zero_le _
  split; · exact Nat.zero_le _
  split; · exact operatorFrom_le first rest
  exact Nat.zero_le _

end Offside.Token
