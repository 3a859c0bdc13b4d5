import Darkroom.Json.Reader
import Darkroom.Proofs.Json.RealTexts
import Darkroom.Proofs.Numeric.ShortestDecimal
import Mathlib.Data.List.TakeWhile

/-!
# Numbers are Read Back

A number that is written as JSON is read as itself, whatever follows it that is no part of a number.

Where a number ends depends on what comes next, so every lemma is about a text with some rest after
it. A decimal has four layouts: with zeros after its point, with zeros before it, with the point
between two digits, and with an exponent. In each of them the digits around the point make up the
significand again, up to zeros, so that what is read has the value of what was written. That is all
a real number needs to come back as it was.

## Main definitions

* `Json.EndsDigits`, `Json.EndsNumber`: What follows is no digit, or no part of a number.
* `Json.IsWhole`: Digits that may stand before a point.
* `Json.ReadsAs`: A text is read as a real number of a certain value.

## Theorems

* `Json.readNumber_real`, `Json.readNumber_whole`: Numbers are read part by part.
* `Json.readsAs_render`: Decimals are read with their value.
* `Json.readScalar_real`, `Json.readScalar_whole`: Numbers are read back.
-/

namespace Darkroom

/-- Only the number zero begins with the digit zero. -/
theorem head_decimalDigits_ne_zero {n : ℕ} (h : n ≠ 0) : (decimalDigits n).head? ≠ some '0' := by
  have hdigit : ∀ d < 10, d ≠ 0 → [Nat.digitChar d].head? ≠ some '0' := by decide
  induction n using Nat.strong_induction_on with
  | _ n ih =>
    unfold decimalDigits at ih ⊢
    rcases lt_or_ge n 10 with hlt | hle
    · rw [Nat.toDigits_of_lt_base hlt]
      exact hdigit n hlt h
    · rw [Nat.toDigits_of_base_le (by decide) hle,
        List.head?_append_of_ne_nil _ Nat.toDigits_ne_nil]
      exact ih (n / 10) (by omega) (by omega)

theorem isDigit_of_mem_decimalDigits {n : ℕ} {c : Char} (h : c ∈ decimalDigits n) :
    c.isDigit = true := Nat.isDigit_of_mem_toDigits (by decide) (by decide) h

theorem length_decimalDigits_le_iff {n count : ℕ} (hcount : 0 < count) :
    (decimalDigits n).length ≤ count ↔ n < tenTo count :=
  Nat.length_toDigits_le_iff (by decide) hcount

namespace Json

theorem plainValue_eq (digits : List Char) : plainValue digits = Nat.ofDigitChars 10 digits 0 := by
  rw [plainValue, ofDigits, List.foldl_map, Nat.ofDigitChars_eq_foldl]
  rfl

theorem plainValue_decimalDigits (n : ℕ) : plainValue (decimalDigits n) = n := by
  rw [plainValue_eq]
  exact Nat.ofDigitChars_ten_toDigits

/-- Zeros before a run of digits do not count. -/
theorem plainValue_zeros_append (count : ℕ) (digits : List Char) :
    plainValue (List.replicate count '0' ++ digits) = plainValue digits := by
  rw [plainValue_eq, plainValue_eq, Nat.ofDigitChars_append, Nat.ofDigitChars_replicate_zero,
    Nat.mul_zero]

/-- Zeros after a run of digits are powers of ten. -/
theorem plainValue_append_zeros (digits : List Char) (count : ℕ) :
    plainValue (digits ++ List.replicate count '0') = plainValue digits * 10 ^ count := by
  rw [plainValue_eq, plainValue_eq, Nat.ofDigitChars_append, Nat.ofDigitChars_replicate_zero,
    Nat.mul_comm]

/-- What follows a run of digits. -/
def EndsDigits (rest : List Char) : Prop := ∀ c ∈ rest.head?, c.isDigit = false

/-- What follows a number: nothing that could belong to it. -/
def EndsNumber (rest : List Char) : Prop :=
  ∀ c ∈ rest.head?, c.isDigit = false ∧ c ≠ '.' ∧ c ≠ 'e' ∧ c ≠ 'E'

theorem EndsNumber.endsDigits {rest : List Char} (h : EndsNumber rest) : EndsDigits rest :=
  fun c hc => (h c hc).1

/-- A run of digits is taken up to its end. -/
theorem takeDigits_append {digits rest : List Char} (h : ∀ c ∈ digits, c.isDigit = true)
    (hrest : EndsDigits rest) : takeDigits (digits ++ rest) = (digits, rest) := by
  have hdigit (c : Char) : (decide ('0' ≤ c) && decide (c ≤ '9')) = c.isDigit := by
    rfl
  have hnone : rest.takeWhile Char.isDigit = [] ∧ rest.dropWhile Char.isDigit = rest := by
    cases rest with
    | nil => exact ⟨rfl, rfl⟩
    | cons c tail =>
      have hc := hrest c rfl
      exact ⟨List.takeWhile_cons_of_neg (by simp [hc]), List.dropWhile_cons_of_neg (by simp [hc])⟩
  unfold takeDigits
  simp only [hdigit]
  rw [List.span_eq_takeWhile_dropWhile, List.takeWhile_append_of_pos h,
    List.dropWhile_append_of_pos h, hnone.1, hnone.2, List.append_nil]

/-- The sign of a number that is written out. -/
def signText (negative : Bool) : List Char := if negative then ['-'] else []

/-- The digits of a number before its point: zero alone, or a run that does not begin with zero. -/
def IsWhole (digits : List Char) : Prop :=
  digits = ['0'] ∨ ∃ c rest, digits = c :: rest ∧ c ≠ '0' ∧ ∀ d ∈ digits, d.isDigit = true

theorem isWhole_of_head {digits : List Char} (h : ∀ c ∈ digits, c.isDigit = true)
    (hnil : digits ≠ []) (hhead : digits.head? ≠ some '0') : IsWhole digits := by
  cases digits with
  | nil => exact absurd rfl hnil
  | cons c rest => exact Or.inr ⟨c, rest, rfl, fun heq => hhead (congrArg some heq), h⟩

theorem isWhole_decimalDigits (n : ℕ) : IsWhole (decimalDigits n) := by
  rcases eq_or_ne n 0 with rfl | hn
  · exact Or.inl rfl
  · exact isWhole_of_head (fun _ => isDigit_of_mem_decimalDigits) Nat.toDigits_ne_nil
      (head_decimalDigits_ne_zero hn)

/-- They begin with a digit. -/
theorem IsWhole.exists_cons {digits : List Char} (h : IsWhole digits) :
    ∃ c rest, digits = c :: rest ∧ c.isDigit = true := by
  rcases h with rfl | ⟨c, rest, rfl, -, h⟩
  · exact ⟨'0', [], rfl, rfl⟩
  · exact ⟨c, rest, rfl, h c List.mem_cons_self⟩

theorem takeMinus_append (negative : Bool) {whole : List Char} (hwhole : IsWhole whole)
    (rest : List Char) :
    takeMinus (signText negative ++ (whole ++ rest)) = (negative, whole ++ rest) := by
  cases negative with
  | true => rfl
  | false =>
    rcases hwhole.exists_cons with ⟨c, more, rfl, hc⟩
    have hminus : c ≠ '-' := by
      rintro rfl
      cases hc
    show takeMinus (c :: (more ++ rest)) = _
    unfold takeMinus
    split
    · rename_i heq
      cases heq
      exact absurd rfl hminus
    · rfl

theorem takeWhole_append {whole rest : List Char} (hwhole : IsWhole whole)
    (hrest : EndsDigits rest) : takeWhole (whole ++ rest) = (whole, rest) := by
  rcases hwhole with rfl | ⟨c, more, rfl, hc, hdigits⟩
  · rfl
  · rw [← takeDigits_append hdigits hrest, List.cons_append]
    unfold takeWhole
    split
    · rename_i heq
      cases heq
      exact absurd rfl hc
    · rfl

/-- A number with a point or an exponent is read as a real number. -/
theorem readNumber_real (negative : Bool) {whole tail mid rest : List Char}
    {places : Option (List Char)} {power : Option ℤ} (hwhole : IsWhole whole)
    (htail : EndsDigits tail) (hplaces : takePlaces tail = (places, mid))
    (hpower : takePower mid = (power, rest)) (hreal : places.isSome || power.isSome) :
    readNumber? (signText negative ++ (whole ++ tail)) = some (.real (Binary.ofDecimal negative
      ⟨plainValue (whole ++ places.getD []), power.getD 0 - (places.getD []).length⟩), rest) := by
  have hnil : whole.isEmpty = false := by
    rcases hwhole.exists_cons with ⟨c, more, rfl, -⟩
    rfl
  unfold readNumber?
  simp only [takeMinus_append negative hwhole, takeWhole_append hwhole htail, hplaces, hpower, hnil]
  cases places with
  | some digits => rfl
  | none =>
    cases power with
    | some exponent => rfl
    | none => cases hreal

theorem takePlaces_of_endsNumber {rest : List Char} (h : EndsNumber rest) :
    takePlaces rest = (none, rest) := by
  unfold takePlaces
  split
  · exact absurd rfl (h '.' rfl).2.1
  · rfl

theorem takePower_of_endsNumber {rest : List Char} (h : EndsNumber rest) :
    takePower rest = (none, rest) := by
  cases rest with
  | nil => rfl
  | cons c tail =>
    have hc := (h c rfl).2.2
    exact if_neg (by simp [hc])

/-- A number that is nothing but digits is read as a whole number, if it does not have too many. -/
theorem readNumber_whole (negative : Bool) {whole rest : List Char} (hwhole : IsWhole whole)
    (hrest : EndsNumber rest) (hlimit : whole.length ≤ digitLimit) :
    readNumber? (signText negative ++ (whole ++ rest)) =
      some (.whole (signed negative (plainValue whole)), rest) := by
  have hnil : whole.isEmpty = false := by
    rcases hwhole.exists_cons with ⟨c, more, rfl, -⟩
    rfl
  unfold readNumber?
  simp only [takeMinus_append negative hwhole, takeWhole_append hwhole hrest.endsDigits,
    takePlaces_of_endsNumber hrest, takePower_of_endsNumber hrest, hnil]
  exact if_neg (not_lt.mpr hlimit)

/-- Digits after a point. -/
theorem takePlaces_append {digits rest : List Char} (h : ∀ c ∈ digits, c.isDigit = true)
    (hnil : digits ≠ []) (hrest : EndsDigits rest) :
    takePlaces ('.' :: (digits ++ rest)) = (some digits, rest) := by
  cases digits with
  | nil => exact absurd rfl hnil
  | cons c more => simp only [takePlaces, takeDigits_append h hrest]

/-- Digits of an exponent with their sign. -/
theorem takePower_append (negative : Bool) {digits rest : List Char}
    (h : ∀ c ∈ digits, c.isDigit = true) (hnil : digits ≠ []) (hrest : EndsDigits rest) :
    takePower ('e' :: ((if negative then '-' else '+') :: (digits ++ rest))) =
      (some (signed negative (plainValue digits)), rest) := by
  have hsign : takeSign ((if negative then '-' else '+') :: (digits ++ rest)) =
      (negative, digits ++ rest) := by cases negative <;> rfl
  cases digits with
  | nil => exact absurd rfl hnil
  | cons c more =>
    simp only [takePower, hsign, takeDigits_append h hrest, decide_true, Bool.true_or, if_true]

/-- A text that is read as a real number of a certain value, with any sign before it and whatever
    follows that cannot belong to it. -/
def ReadsAs (text : List Char) (value : ℚ) : Prop :=
  ∀ negative rest, EndsNumber rest → ∃ d : Decimal, d.value = value ∧
    readNumber? (signText negative ++ (text ++ rest)) =
      some (.real (Binary.ofDecimal negative d), rest)

/-- Digits around a point. -/
theorem readsAs_places {whole places : List Char} (hwhole : IsWhole whole)
    (hplaces : ∀ c ∈ places, c.isDigit = true) (hnil : places ≠ []) :
    ReadsAs (whole ++ '.' :: places)
      (Decimal.value ⟨plainValue (whole ++ places), -places.length⟩) := by
  intro negative rest hrest
  have hpoint : EndsDigits ('.' :: (places ++ rest)) := by
    intro c hc
    cases hc
    rfl
  have hread := readNumber_real negative hwhole hpoint
    (takePlaces_append hplaces hnil hrest.endsDigits) (takePower_of_endsNumber hrest) rfl
  rw [Option.getD_some, Option.getD_none, zero_sub] at hread
  rw [List.append_assoc, List.cons_append]
  exact ⟨_, rfl, hread⟩

/-- Digits with an exponent, with a point between them or not. -/
theorem readsAs_power (below : Bool) {whole places digits : List Char}
    (hwhole : IsWhole whole) (hplaces : ∀ c ∈ places, c.isDigit = true)
    (hdigits : ∀ c ∈ digits, c.isDigit = true) (hnil : digits ≠ []) :
    ReadsAs (whole ++ ((if places.isEmpty then [] else '.' :: places) ++
      'e' :: ((if below then '-' else '+') :: digits)))
      (Decimal.value ⟨plainValue (whole ++ places),
        signed below (plainValue digits) - places.length⟩) := by
  intro negative rest hrest
  have hpower := takePower_append below hdigits hnil hrest.endsDigits
  have hexponent : EndsDigits ('e' :: ((if below then '-' else '+') :: (digits ++ rest))) := by
    intro c hc
    cases hc
    rfl
  refine ⟨_, rfl, ?_⟩
  cases places with
  | nil =>
    have hread := readNumber_real negative hwhole hexponent rfl hpower rfl
    simpa using hread
  | cons c more =>
    have hpoint : EndsDigits ('.' :: (c :: more ++
        'e' :: ((if below then '-' else '+') :: (digits ++ rest)))) := by
      intro c hc
      cases hc
      rfl
    have hread := readNumber_real negative hwhole hpoint
      (takePlaces_append hplaces (List.cons_ne_nil c more) hexponent) hpower rfl
    simpa using hread

/-- The digits of a number above zero make a number before a point, also some of them or with zeros
    after them. -/
theorem isWhole_take_append {n : ℕ} (hn : n ≠ 0) {count : ℕ} (hcount : 0 < count) (zeros : ℕ) :
    IsWhole ((decimalDigits n).take count ++ List.replicate zeros '0') := by
  have hhead := head_decimalDigits_ne_zero hn
  refine isWhole_of_head ?_ ?_ ?_
  · intro c hc
    rcases List.mem_append.mp hc with hc | hc
    · exact isDigit_of_mem_decimalDigits (List.mem_of_mem_take hc)
    · rw [List.eq_of_mem_replicate hc]
      rfl
  all_goals
    cases hdigits : decimalDigits n with
    | nil => exact absurd hdigits Nat.toDigits_ne_nil
    | cons c rest =>
      rw [hdigits] at hhead
      cases count with
      | zero => exact absurd hcount (Nat.lt_irrefl 0)
      | succ k => simp at hhead ⊢ <;> exact hhead

/-- The value of some digits, with zeros after them and places after a point. -/
theorem value_eq_of_digits (d : Decimal) (zeros : ℕ) {digits : List Char} {exponent : ℤ}
    (hdigits : digits = decimalDigits d.significand ++ List.replicate zeros '0')
    (hexponent : d.exponent = exponent + zeros) :
    Decimal.value ⟨plainValue digits, exponent⟩ = d.value := by
  rw [hdigits, plainValue_append_zeros, plainValue_decimalDigits, Decimal.value_mul_tenTo,
    ← hexponent]

variable {d : Decimal}

/-- A decimal below one, with zeros after its point. -/
theorem readsAs_small {zeros : ℕ}
    (h : (zeros : ℤ) + (decimalDigits d.significand).length = -d.exponent) :
    ReadsAs ('0' :: '.' :: (List.replicate zeros '0' ++ decimalDigits d.significand)) d.value := by
  have hread := @readsAs_places ['0'] (List.replicate zeros '0' ++ decimalDigits d.significand)
    (Or.inl rfl) ?_ ?_
  · have hzeros : ['0'] ++ (List.replicate zeros '0' ++ decimalDigits d.significand) =
        List.replicate (zeros + 1) '0' ++ decimalDigits d.significand := rfl
    rw [hzeros, plainValue_zeros_append, List.length_append, List.length_replicate, Nat.cast_add, h,
      plainValue_decimalDigits, neg_neg] at hread
    exact hread
  · intro c hc
    rcases List.mem_append.mp hc with hc | hc
    · rw [List.eq_of_mem_replicate hc]
      rfl
    · exact isDigit_of_mem_decimalDigits hc
  · exact List.append_ne_nil_of_right_ne_nil _ Nat.toDigits_ne_nil

/-- A decimal that is a whole number, with zeros up to its point and one after it. -/
theorem readsAs_whole {zeros : ℕ} (hd : d.significand ≠ 0) (h : d.exponent = zeros) :
    ReadsAs (decimalDigits d.significand ++ List.replicate zeros '0' ++ ['.', '0']) d.value := by
  have hwhole := isWhole_take_append hd (@Nat.length_toDigits_pos 10 d.significand) zeros
  change IsWhole ((decimalDigits d.significand).take (decimalDigits d.significand).length ++ _)
    at hwhole
  rw [List.take_length] at hwhole
  have hread := @readsAs_places _ ['0'] hwhole (by simp) (by simp)
  rwa [value_eq_of_digits d (zeros + 1) (by rw [List.append_assoc, List.replicate_succ'])
    (by simp [h])] at hread

/-- A decimal with its point between two digits. -/
theorem readsAs_between {count : ℕ} (hd : d.significand ≠ 0) (hcount : 0 < count)
    (h : (count : ℤ) = (decimalDigits d.significand).length + d.exponent) (hexp : d.exponent < 0) :
    ReadsAs ((decimalDigits d.significand).take count ++
      '.' :: (decimalDigits d.significand).drop count) d.value := by
  have hwhole := isWhole_take_append hd hcount 0
  rw [List.replicate_zero, List.append_nil] at hwhole
  have hread := @readsAs_places _ ((decimalDigits d.significand).drop count) hwhole
    (fun c hc => isDigit_of_mem_decimalDigits (List.mem_of_mem_drop hc)) ?_
  · rwa [value_eq_of_digits d 0 (by simp) (by simp; omega)] at hread
  · intro hnil
    have := List.drop_eq_nil_iff.mp hnil
    omega

/-- A decimal with an exponent. -/
theorem readsAs_scientific (hd : d.significand ≠ 0) {below : Bool} {digits : List Char}
    (hdigits : ∀ c ∈ digits, c.isDigit = true) (hnil : digits ≠ [])
    (h : signed below (plainValue digits) =
      (decimalDigits d.significand).length + d.exponent - 1) :
    ReadsAs ((decimalDigits d.significand).take 1 ++
      ((if ((decimalDigits d.significand).drop 1).isEmpty then []
        else '.' :: (decimalDigits d.significand).drop 1) ++
          'e' :: ((if below then '-' else '+') :: digits))) d.value := by
  have hwhole := isWhole_take_append hd Nat.one_pos 0
  rw [List.replicate_zero, List.append_nil] at hwhole
  have hplaces : ∀ c ∈ (decimalDigits d.significand).drop 1, c.isDigit = true :=
    fun c hc => isDigit_of_mem_decimalDigits (List.mem_of_mem_drop hc)
  have hread := readsAs_power below hwhole hplaces hdigits hnil
  have hpos : 0 < (decimalDigits d.significand).length := Nat.length_toDigits_pos
  rwa [value_eq_of_digits d 0
    (by rw [List.take_append_drop, List.replicate_zero, List.append_nil]) (by simp; omega)] at hread

/-- The digits of an exponent, of which there are two at least. -/
theorem padded_digits (n : ℕ) :
    (∀ c ∈ (if (decimalDigits n).length < 2 then '0' :: decimalDigits n else decimalDigits n),
      c.isDigit = true) ∧
    (if (decimalDigits n).length < 2 then '0' :: decimalDigits n else decimalDigits n) ≠ [] ∧
    plainValue (if (decimalDigits n).length < 2 then '0' :: decimalDigits n
      else decimalDigits n) = n := by
  have hdigits : ∀ c ∈ decimalDigits n, c.isDigit = true := fun _ => isDigit_of_mem_decimalDigits
  split_ifs
  · refine ⟨List.forall_mem_cons.mpr ⟨rfl, hdigits⟩, List.cons_ne_nil _ _, ?_⟩
    exact (plainValue_zeros_append 1 _).trans (plainValue_decimalDigits n)
  · exact ⟨hdigits, Nat.toDigits_ne_nil, plainValue_decimalDigits n⟩

/-- A decimal that is written out is read as a real number of its value. -/
theorem readsAs_render (d : Decimal) : ReadsAs (d.render .exact).toList d.value := by
  have hpos : 0 < (decimalDigits d.significand).length := Nat.length_toDigits_pos
  have hkeeps : DecimalStyle.exact.keepsPoint = true := rfl
  unfold Decimal.render
  simp only [hkeeps, if_true]
  by_cases hzero : d.significand = 0
  · -- Zero has no digit to begin with but zero itself.
    rw [if_pos hzero, Decimal.value, hzero, Nat.cast_zero, zero_mul]
    have hread := @readsAs_places ['0'] ['0'] (Or.inl rfl) (by simp) (by simp)
    rwa [Decimal.value, show plainValue (['0'] ++ ['0']) = 0 from rfl, Nat.cast_zero, zero_mul]
      at hread
  rw [if_neg hzero]
  generalize hpower : ((decimalDigits d.significand).length : ℤ) + d.exponent - 1 = power
  by_cases hpositional :
      (DecimalStyle.exact.leastPower ≤ power && power < DecimalStyle.exact.firstPower) = true
  · rw [if_pos hpositional]
    by_cases hsmall : power < 0
    · -- The point stands before all of the digits, then after them, then between them.
      rw [if_pos hsmall, String.toList_append, String.toList_ofList, String.toList_ofList]
      exact readsAs_small (by omega)
    rw [if_neg hsmall]
    by_cases hafter : ((decimalDigits d.significand).drop (power.toNat + 1)).isEmpty = true
    · rw [if_pos hafter, String.toList_append, String.toList_ofList,
        String.toList_ofList]
      have hle := List.drop_eq_nil_iff.mp (List.isEmpty_iff.mp hafter)
      rw [List.take_of_length_le hle]
      exact readsAs_whole hzero (by omega)
    · rw [if_neg hafter, String.toList_append, String.toList_append, String.toList_ofList,
        String.toList_ofList, String.toList_ofList]
      have hlt := mt List.drop_eq_nil_iff.mpr (mt List.isEmpty_iff.mpr hafter)
      rw [Nat.sub_eq_zero_of_le (by omega), List.replicate_zero, List.append_nil, List.append_assoc]
      exact readsAs_between hzero (by omega) (by omega) (by omega)
  · rw [if_neg hpositional]
    rcases padded_digits power.natAbs with ⟨hdigits, hnil, hvalue⟩
    generalize (if (decimalDigits power.natAbs).length < 2 then '0' :: decimalDigits power.natAbs
      else decimalDigits power.natAbs) = padded at hdigits hnil hvalue ⊢
    have hread := @readsAs_scientific d hzero (power < 0) padded hdigits hnil
      (by rw [hvalue, signed_natAbs, hpower])
    have hsign : (if power < 0 then "-" else "+").toList =
        [if decide (power < 0) = true then '-' else '+'] := by
      by_cases hneg : power < 0 <;> simp [hneg]
    have hpoint : (if ((decimalDigits d.significand).drop 1).isEmpty = true then ""
        else "." ++ String.ofList ((decimalDigits d.significand).drop 1)).toList =
        if ((decimalDigits d.significand).drop 1).isEmpty = true then []
          else '.' :: (decimalDigits d.significand).drop 1 := by
      split_ifs
      · rfl
      · rw [String.toList_append, String.toList_ofList, String.toList_ofList]
        rfl
    rw [String.toList_append, String.toList_append, String.toList_append, String.toList_append,
      String.toList_ofList, String.toList_ofList, String.toList_ofList, hsign, hpoint]
    simpa only [List.append_assoc, List.cons_append, List.nil_append] using hread

/-- What begins with a digit after its sign is no word. -/
theorem readScalar_of_digit (negative : Bool) {text : List Char} {c : Char}
    (hhead : text.head? = some c) (hc : c.isDigit = true) (rest : List Char) :
    readScalar? (signText negative ++ (text ++ rest)) =
      readNumber? (signText negative ++ (text ++ rest)) := by
  have hletter : ∀ letter : Char, letter.isDigit = false → letter ≠ c := by
    rintro letter hletter rfl
    rw [hc] at hletter
    cases hletter
  have hwords : (words.findSome? fun entry =>
      (after? entry.1 (signText negative ++ (text ++ rest))).map (entry.2, ·)) = none := by
    cases text with
    | nil => cases hhead
    | cons d more =>
      cases hhead
      have hn := hletter 'n' rfl
      have ht := hletter 't' rfl
      have hf := hletter 'f' rfl
      have hN := hletter 'N' rfl
      have hI := hletter 'I' rfl
      have hminus := hletter '-' rfl
      cases negative <;>
        simp [words, after?, signText, hn, ht, hf, hN, hI, hminus]
  unfold readScalar?
  rw [hwords]

/-- A finite number is written as its sign and the fewest digits of its size. -/
theorem toList_realText (negative : Bool) (m : ℕ) (e : ℤ) (h : binary64.Canonical m e) :
    (realText (.finite negative m e h)).toList = signText negative ++
      ((Binary.shortest (.finite negative m e h)).render .exact).toList := by
  cases negative with
  | false => rfl
  | true => exact String.toList_append

/-- A whole number is written as its sign and its digits. -/
theorem toList_toString (n : ℤ) :
    (toString n).toList = signText (n < 0) ++ decimalDigits n.natAbs := by
  rw [Int.toString_eq_repr, Int.repr_eq_if]
  by_cases hn : 0 ≤ n
  · rw [if_pos hn, Nat.repr_eq_ofList_toDigits, String.toList_ofList,
      decide_eq_false (not_lt.mpr hn), show n.toNat = n.natAbs by omega]
    rfl
  · rw [if_neg hn, Nat.repr_eq_ofList_toDigits, String.toList_append, String.toList_ofList,
      String.toList_ofList, decide_eq_true (not_le.mp hn), show (-n).toNat = n.natAbs by omega]
    rfl

/-- A real number is read back. -/
theorem readScalar_real (x : Double) {rest : List Char} (hrest : EndsNumber rest) :
    readScalar? ((realText x).toList ++ rest) = some (.real x, rest) := by
  cases x with
  | nan => rfl
  | infinite negative => cases negative <;> rfl
  | finite negative m e h =>
    rcases readsAs_render (Binary.shortest (.finite negative m e h)) negative rest hrest with
      ⟨d, hd, hread⟩
    rcases Decimal.startsWithDigit_render .exact (Binary.shortest (.finite negative m e h)) with
      ⟨c, hc, hdigit⟩
    rw [toList_realText, List.append_assoc, readScalar_of_digit negative hc hdigit, hread,
      Binary.ofDecimal_of_value_eq hd]

/-- A whole number that can be written is read back. -/
theorem readScalar_whole {n : ℤ} {text : String} (h : Value.wholeText n = .ok text)
    {rest : List Char} (hrest : EndsNumber rest) :
    readScalar? (text.toList ++ rest) = some (.whole n, rest) := by
  unfold Value.wholeText at h
  split_ifs at h with hlimit
  cases h
  have hwhole := isWhole_decimalDigits n.natAbs
  have hlength : (decimalDigits n.natAbs).length ≤ digitLimit :=
    (length_decimalDigits_le_iff (by decide)).mpr hlimit
  rcases hwhole.exists_cons with ⟨c, more, hdigits, hc⟩
  rw [toList_toString, List.append_assoc, readScalar_of_digit _ (by rw [hdigits]; rfl) hc,
    readNumber_whole _ hwhole hrest hlength, plainValue_decimalDigits, signed_natAbs]

end Json

end Darkroom
