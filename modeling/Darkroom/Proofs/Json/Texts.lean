import Darkroom.Json.Printer
import Darkroom.Json.Reader
import Mathlib.Data.Nat.Notation
import Mathlib.Tactic.SplitIfs

/-!
# Texts are Read Back

A text that is written as JSON is read up to its closing quote, and as itself, unless it holds two
halves that make up a pair.

A character is written in one of four ways, and each of them is read in one step. Only a first half
needs more care: it is written as an escape of its own, and when the escape of a second half follows
it, both are read as one character. So the induction goes along the pairs of a text.

## Main definitions

* `Json.joined`, `Json.joinedText`: A text as it is read back.
* `Json.Escapes`: How a character is written.

## Theorems

* `Json.escapes_escaped`: There are no other ways.
* `Json.readText_single`: A character is read in one step.
* `Json.readText_escaped`: A text is read back.
* `Json.joinedText_eq_self`: A text without first halves is read as itself.
-/

namespace Darkroom

/-- The code of a character that is no half. -/
theorem codeOf_eq_toNat {c : Char} (h : isHalf c = false) : codeOf c = c.toNat := by
  rw [codeOf, h]
  rfl

/-- Characters of few bits are no halves. -/
theorem isHalf_of_lt {c : Char} (h : c.toNat < halfShift) : isHalf c = false := by
  rw [isHalf, Nat.sub_eq_zero_of_le (Nat.le_of_lt h)]
  rfl

/-- A half has the code of a half. -/
theorem isHalfCode_codeOf {c : Char} (h : isHalf c = true) : isHalfCode (codeOf c) = true := by
  rw [codeOf, if_pos h]
  exact h

/-- The code of a character stands for that character alone. -/
theorem charOfCode_codeOf (c : Char) : charOfCode (codeOf c) = c := by
  by_cases h : isHalf c = true
  · have hcode := isHalfCode_codeOf h
    unfold charOfCode
    rw [if_pos hcode, codeOf, if_pos h]
    unfold isHalf isHalfCode at h
    simp only [Bool.and_eq_true, decide_eq_true_eq] at h
    rw [Nat.sub_add_cancel (by omega), Char.ofNat_toNat]
  · have hhalf := Bool.eq_false_iff.mpr h
    have hvalid : isHalfCode c.toNat = false := by
      have hscalar := c.valid
      unfold UInt32.isValidChar Nat.isValidChar at hscalar
      unfold isHalfCode
      rw [Bool.and_eq_false_iff, decide_eq_false_iff_not, decide_eq_false_iff_not]
      change ¬_ ≤ c.val.toNat ∨ ¬c.val.toNat < _
      omega
    rw [codeOf_eq_toNat hhalf, charOfCode, hvalid]
    exact Char.ofNat_toNat c

/-- Every code is that of a character or of a half. -/
theorem codeOf_lt (c : Char) : codeOf c < 0x110000 := by
  have hscalar := c.valid
  unfold UInt32.isValidChar Nat.isValidChar at hscalar
  have hle : codeOf c ≤ c.val.toNat := by
    unfold codeOf
    split_ifs
    · exact Nat.sub_le _ _
    · exact Nat.le_refl _
  omega

theorem hexDigits_succ {width : ℕ} (hwidth : 0 < width) (n : ℕ) :
    hexDigits (width + 1) n = hexDigits width (n / 16) ++ [Nat.digitChar (n % 16)] := by
  unfold hexDigits
  dsimp only
  rcases Nat.lt_or_ge n 16 with hlt | hle
  · rw [Nat.toDigits_of_lt_base hlt, Nat.div_eq_of_lt hlt, Nat.toDigits_zero, Nat.mod_eq_of_lt hlt,
      List.length_singleton, List.length_singleton, Nat.add_sub_cancel, ← List.replicate_succ',
      Nat.sub_add_cancel hwidth]
  · rw [Nat.toDigits_of_base_le (by decide) hle, List.length_append, List.length_singleton,
      Nat.add_sub_add_right, List.append_assoc]

/-- The four digits of a number to base sixteen. -/
theorem hexDigits_four {n : ℕ} (hn : n < 0x10000) :
    hexDigits 4 n = [Nat.digitChar (n / 4096), Nat.digitChar (n / 256 % 16),
      Nat.digitChar (n / 16 % 16), Nat.digitChar (n % 16)] := by
  have hone : hexDigits 1 (n / 16 / 16 / 16) = [Nat.digitChar (n / 16 / 16 / 16)] := by
    unfold hexDigits
    dsimp only
    rw [Nat.toDigits_of_lt_base (by omega)]
    rfl
  rw [hexDigits_succ (by decide), hexDigits_succ (by decide), hexDigits_succ (by decide), hone,
    show n / 16 / 16 / 16 = n / 4096 by omega, show n / 16 / 16 = n / 256 by omega]
  rfl

namespace Json

theorem digitOf_digitChar : ∀ d < 16, (digitOf? (Nat.digitChar d)).filter (· < 16) = some d := by
  decide

/-- Four digits to base sixteen are read back. -/
theorem readUnit_hexDigits {n : ℕ} (hn : n < 0x10000) (rest : List Char) :
    readUnit? (hexDigits 4 n ++ rest) = some (n, rest) := by
  have hvalue : digitsValue 16 [n / 4096, n / 256 % 16, n / 16 % 16, n % 16] = n := by
    simp only [digitsValue, List.foldl_cons, List.foldl_nil]
    omega
  rw [hexDigits_four hn]
  simp only [List.cons_append, List.nil_append, readUnit?, List.mapM_cons, List.mapM_nil,
    digitOf_digitChar _ (show n / 4096 < 16 by omega),
    digitOf_digitChar _ (show n / 256 % 16 < 16 by omega),
    digitOf_digitChar _ (show n / 16 % 16 < 16 by omega),
    digitOf_digitChar _ (show n % 16 < 16 by omega)]
  show some (digitsValue 16 _, rest) = _
  rw [hvalue]

/-- The first and the second half of a pair. -/
def isHigh (c : Char) : Bool := 0xD800 ≤ codeOf c && codeOf c < 0xDC00

def isLow (c : Char) : Bool := 0xDC00 ≤ codeOf c && codeOf c < 0xE000

/-- The character that two halves make up. -/
def pairOf (high low : Char) : Char :=
  Char.ofNat (0x10000 + (codeOf high - 0xD800) * 0x400 + (codeOf low - 0xDC00))

/-- Characters as they are read back. Two halves that make up a pair become one character. -/
def joined : List Char → List Char
  | high :: low :: rest =>
    if isHigh high && isLow low then pairOf high low :: joined rest
    else high :: joined (low :: rest)
  | cs => cs

/-- The escape of a number of sixteen bits. -/
def unitText (n : ℕ) : List Char := '\\' :: 'u' :: hexDigits 4 n

theorem unitText_append (n : ℕ) (rest : List Char) :
    unitText n ++ rest = '\\' :: 'u' :: (hexDigits 4 n ++ rest) := rfl

theorem readLow_unitText {n : ℕ} (hn : n < 0x10000) (rest : List Char) :
    readLow? (unitText n ++ rest) =
      if 0xDC00 ≤ n && n < 0xE000 then some (n, rest) else none := by
  show (readUnit? (hexDigits 4 n ++ rest)).filter _ = _
  rw [readUnit_hexDigits hn, Option.filter_some]

/-- A character is written in one of four ways. -/
inductive Escapes (c : Char) : List Char → Prop
  | letter (e : Char) (he : e ≠ 'u') (h : simpleEscape? e = some c) (hc : codeOf c < 128) :
    Escapes c ['\\', e]
  | plain (hquote : c ≠ '"') (hslash : c ≠ '\\') (hc : 32 ≤ c.toNat) (hcode : codeOf c < 128) :
    Escapes c [c]
  | unit (h : codeOf c < 0x10000) : Escapes c (unitText (codeOf c))
  | pair (h : 0x10000 ≤ codeOf c) : Escapes c
    (unitText (0xD800 + (codeOf c - 0x10000) / 0x400) ++
      unitText (0xDC00 + (codeOf c - 0x10000) % 0x400))

theorem escapes_escaped (c : Char) : Escapes c (escaped c) := by
  have hcode {n : ℕ} (h : codeOf c = n) : c = charOfCode n := h ▸ (charOfCode_codeOf c).symm
  unfold escaped
  dsimp only
  split_ifs with hquote hplain hn hr ht hb hf hunit
  · simp only [Bool.or_eq_true, decide_eq_true_eq] at hquote
    rcases hquote with rfl | rfl
    · exact .letter '"' (by decide) rfl (by decide)
    · exact .letter '\\' (by decide) rfl (by decide)
  · simp only [Bool.or_eq_true, decide_eq_true_eq, not_or] at hquote
    simp only [Bool.and_eq_true, decide_eq_true_eq] at hplain
    have hlow : 32 ≤ c.toNat := UInt32.le_iff_toNat_le.mp hplain.1
    have hhigh : c.toNat ≤ 126 := UInt32.le_iff_toNat_le.mp hplain.2
    refine .plain hquote.1 hquote.2 hlow ?_
    rw [codeOf_eq_toNat (isHalf_of_lt (Nat.lt_of_le_of_lt hhigh (by decide)))]
    omega
  · subst hn
    exact .letter 'n' (by decide) rfl (by decide)
  · subst hr
    exact .letter 'r' (by decide) rfl (by decide)
  · subst ht
    exact .letter 't' (by decide) rfl (by decide)
  · rw [hcode hb]
    exact .letter 'b' (by decide) rfl (by decide)
  · rw [hcode hf]
    exact .letter 'f' (by decide) rfl (by decide)
  · exact .unit hunit
  · exact .pair (Nat.not_lt.mp hunit)

/-- After a first half, only the escape of a second half is looked at. -/
theorem readLow_escaped (c : Char) (rest : List Char) :
    readLow? (escaped c ++ rest) = if isLow c then some (codeOf c, rest) else none := by
  have hescapes := escapes_escaped c
  generalize escaped c = text at hescapes ⊢
  unfold isLow
  cases hescapes with
  | letter e he h hc =>
    rw [if_neg (by simp only [Bool.and_eq_true, decide_eq_true_eq]; omega)]
    unfold readLow?
    split
    · rename_i heq
      cases heq
      exact absurd rfl he
    · rfl
  | plain hquote hslash hc hcode =>
    rw [if_neg (by simp only [Bool.and_eq_true, decide_eq_true_eq]; omega)]
    unfold readLow?
    split
    · rename_i heq
      cases heq
      exact absurd rfl hslash
    · rfl
  | unit h => exact readLow_unitText h rest
  | pair h =>
    have hcode := codeOf_lt c
    rw [List.append_assoc, readLow_unitText (by omega),
      if_neg (by simp only [Bool.and_eq_true, decide_eq_true_eq]; omega),
      if_neg (by simp only [Bool.and_eq_true, decide_eq_true_eq]; omega)]

/-- An escape of sixteen bits that is no first half of a pair. -/
theorem readEscapedUnit_single {n : ℕ} (hn : n < 0x10000) {rest : List Char}
    (h : 0xD800 ≤ n → n < 0xDC00 → readLow? rest = none) :
    readEscapedUnit? (hexDigits 4 n ++ rest) = some (charOfCode n, rest) := by
  unfold readEscapedUnit?
  rw [readUnit_hexDigits hn]
  dsimp only
  split_ifs with hhigh
  · simp only [Bool.and_eq_true, decide_eq_true_eq] at hhigh
    rw [h hhigh.1 hhigh.2]
  · rfl

/-- The escapes of two halves that make up a pair. -/
theorem readEscapedUnit_pair {high low : ℕ} (hhigh : 0xD800 ≤ high) (hhigh' : high < 0xDC00)
    (hlow : 0xDC00 ≤ low) (hlow' : low < 0xE000) (rest : List Char) :
    readEscapedUnit? (hexDigits 4 high ++ (unitText low ++ rest)) =
      some (Char.ofNat (0x10000 + (high - 0xD800) * 0x400 + (low - 0xDC00)), rest) := by
  unfold readEscapedUnit?
  rw [readUnit_hexDigits (by omega)]
  dsimp only
  rw [if_pos (by simp only [Bool.and_eq_true, decide_eq_true_eq]; omega),
    readLow_unitText (by omega),
    if_pos (by simp only [Bool.and_eq_true, decide_eq_true_eq]; omega)]

section Steps

variable (fuel : ℕ) (taken : List Char)

theorem readText_quote (rest : List Char) :
    readText? (fuel + 1) taken ('"' :: rest) = some (String.ofList taken.reverse, rest) := rfl

theorem readText_plain {c : Char} (hquote : c ≠ '"') (hslash : c ≠ '\\') (hc : 32 ≤ c.toNat)
    (rest : List Char) :
    readText? (fuel + 1) taken (c :: rest) = readText? fuel (c :: taken) rest := by
  conv => lhs; unfold readText?
  rw [if_neg hquote, if_neg hslash, if_neg (by omega)]

theorem readText_letter {e c : Char} (he : e ≠ 'u') (h : simpleEscape? e = some c)
    (rest : List Char) :
    readText? (fuel + 1) taken ('\\' :: e :: rest) = readText? fuel (c :: taken) rest := by
  conv => lhs; unfold readText?
  rw [if_neg (by decide), if_pos rfl]
  split
  · rename_i heq
    cases heq
    exact absurd rfl he
  · rename_i heq
    cases heq
    rw [h]
  · rename_i heq
    cases heq

theorem readText_unit {c : Char} {n : ℕ} {more rest : List Char}
    (h : readEscapedUnit? (hexDigits 4 n ++ more) = some (c, rest)) :
    readText? (fuel + 1) taken (unitText n ++ more) = readText? fuel (c :: taken) rest := by
  rw [unitText_append]
  conv => lhs; unfold readText?
  rw [if_neg (by decide), if_pos rfl]
  simp only [h]

/-- A character that is written is read, unless it is the first half of a pair. -/
theorem readText_single {c : Char} {rest : List Char}
    (h : isHigh c = true → readLow? rest = none) :
    readText? (fuel + 1) taken (escaped c ++ rest) = readText? fuel (c :: taken) rest := by
  have hescapes := escapes_escaped c
  generalize escaped c = text at hescapes ⊢
  cases hescapes with
  | letter e he hletter => exact readText_letter fuel taken he hletter rest
  | plain hquote hslash hc => exact readText_plain fuel taken hquote hslash hc rest
  | unit hunit =>
    have hread := @readEscapedUnit_single (codeOf c) hunit rest
      (fun hlow hhigh => h (by simp [isHigh, hlow, hhigh]))
    rw [charOfCode_codeOf] at hread
    exact readText_unit fuel taken hread
  | pair hpair =>
    have hcode := codeOf_lt c
    have hread := @readEscapedUnit_pair (0xD800 + (codeOf c - 0x10000) / 0x400)
      (0xDC00 + (codeOf c - 0x10000) % 0x400) (by omega) (by omega) (by omega) (by omega) rest
    rw [Nat.add_sub_cancel_left, Nat.add_sub_cancel_left, Nat.add_assoc,
      Nat.div_add_mod', Nat.add_sub_cancel' hpair] at hread
    have hhalf : isHalfCode (codeOf c) = false := by
      rw [isHalfCode, Bool.and_eq_false_iff, decide_eq_false_iff_not, decide_eq_false_iff_not]
      omega
    have hchar := charOfCode_codeOf c
    rw [charOfCode, hhalf, if_neg Bool.false_ne_true] at hchar
    rw [hchar] at hread
    rw [List.append_assoc]
    exact readText_unit fuel taken hread

end Steps

theorem isHigh_iff {c : Char} : isHigh c = true ↔ 0xD800 ≤ codeOf c ∧ codeOf c < 0xDC00 := by
  rw [isHigh, Bool.and_eq_true, decide_eq_true_eq, decide_eq_true_eq]

theorem isLow_iff {c : Char} : isLow c = true ↔ 0xDC00 ≤ codeOf c ∧ codeOf c < 0xE000 := by
  rw [isLow, Bool.and_eq_true, decide_eq_true_eq, decide_eq_true_eq]

/-- Halves are written as escapes of sixteen bits. -/
theorem escaped_of_half {c : Char} (hlow : 0xD800 ≤ codeOf c) (hhigh : codeOf c < 0xE000) :
    escaped c = unitText (codeOf c) := by
  have hescapes := escapes_escaped c
  generalize escaped c = text at hescapes ⊢
  cases hescapes with
  | letter e he h hc => omega
  | plain hquote hslash hc hcode => omega
  | unit hunit => rfl
  | pair hpair => omega

/-- A text that is written is read up to its end, with its pairs joined. -/
theorem readText_escaped (cs rest : List Char) {fuel : ℕ} (hfuel : cs.length < fuel)
    (taken : List Char) : readText? fuel taken (cs.flatMap escaped ++ '"' :: rest) =
      some (String.ofList (taken.reverse ++ joined cs), rest) := by
  induction cs using joined.induct generalizing fuel taken with
  | case1 high low tail hpair ih =>
    obtain ⟨fuel, rfl⟩ : ∃ less, fuel = less + 1 := ⟨fuel - 1, by omega⟩
    rw [List.length_cons, List.length_cons] at hfuel
    -- Both escapes are read in one step.
    have hhalves := (Bool.and_eq_true ..).mp hpair
    have hhigh := isHigh_iff.mp hhalves.1
    have hlow := isLow_iff.mp hhalves.2
    rw [List.flatMap_cons, List.flatMap_cons, List.append_assoc, List.append_assoc,
      escaped_of_half hhigh.1 (by omega), escaped_of_half (by omega) hlow.2,
      readText_unit fuel taken (readEscapedUnit_pair hhigh.1 hhigh.2 hlow.1 hlow.2 _),
      ih (by omega), joined, if_pos hpair, List.reverse_cons, List.append_assoc]
    rfl
  | case2 high low tail hpair ih =>
    obtain ⟨fuel, rfl⟩ : ∃ less, fuel = less + 1 := ⟨fuel - 1, by omega⟩
    rw [List.length_cons] at hfuel
    -- What comes after a first half is no second half, or the two would be a pair.
    have hnext : isHigh high = true →
        readLow? ((low :: tail).flatMap escaped ++ '"' :: rest) = none := by
      intro hhigh
      rw [List.flatMap_cons, List.append_assoc, readLow_escaped, if_neg]
      intro hlow
      exact hpair (by rw [hhigh, hlow]; rfl)
    rw [List.flatMap_cons, List.append_assoc, readText_single fuel taken hnext, ih (by omega),
      joined, if_neg hpair, List.reverse_cons, List.append_assoc]
    rfl
  | case3 cs hcs =>
    obtain ⟨fuel, rfl⟩ : ∃ less, fuel = less + 1 := ⟨fuel - 1, by omega⟩
    -- The text is over, or its last character has only the quote after it.
    rcases cs with _ | ⟨c, _ | ⟨d, tail⟩⟩
    · rw [joined, List.append_nil]
      · exact readText_quote fuel taken rest
      · exact hcs
    · obtain ⟨fuel, rfl⟩ : ∃ less, fuel = less + 1 := ⟨fuel - 1, by simp at hfuel; omega⟩
      rw [List.flatMap_cons, List.append_assoc, readText_single _ taken fun _ => rfl, joined]
      · rw [List.flatMap_nil, List.nil_append, readText_quote, List.reverse_cons]
      · exact hcs
    · exact absurd rfl (hcs c d tail)

/-- A text as it is read back. -/
def joinedText (s : String) : String := String.ofList (joined s.toList)

theorem joined_eq_self {cs : List Char} (h : ∀ c ∈ cs, isHigh c = false) : joined cs = cs := by
  induction cs using joined.induct with
  | case1 high low tail hpair ih =>
    rw [h high List.mem_cons_self] at hpair
    cases hpair
  | case2 high low tail hpair ih =>
    rw [joined, if_neg hpair, ih fun c hc => h c (List.mem_cons_of_mem high hc)]
  | case3 cs hcs => rw [joined]; exact hcs

/-- A text without first halves is read as itself. -/
theorem joinedText_eq_self {s : String} (h : ∀ c ∈ s.toList, isHigh c = false) :
    joinedText s = s := by
  rw [joinedText, joined_eq_self h, String.ofList_toList]

/-- So are names without first halves. -/
theorem joinedText_of_mem {names : List String}
    (h : (names.all fun name => name.toList.all fun c => !isHigh c) = true) :
    ∀ name ∈ names, joinedText name = name := by
  simp only [List.all_eq_true, Bool.not_eq_true'] at h
  exact fun name hname => joinedText_eq_self (h name hname)

theorem length_le_flatMap_escaped (cs : List Char) :
    cs.length ≤ (cs.flatMap escaped).length := by
  have hpos (c : Char) : 0 < (escaped c).length := by
    have hescapes := escapes_escaped c
    generalize escaped c = text at hescapes ⊢
    cases hescapes <;> exact Nat.succ_pos _
  induction cs with
  | nil => exact Nat.le_refl _
  | cons c rest ih =>
    have := hpos c
    rw [List.flatMap_cons, List.length_append, List.length_cons]
    omega

/-- A text is shorter than what is written for it. -/
theorem length_lt_quotedText (s : String) : s.toList.length < (quotedText s).toList.length := by
  have := length_le_flatMap_escaped s.toList
  rw [quotedText, String.toList_ofList, List.cons_append, List.length_cons, List.length_append]
  omega

/-- What is written for a text is read back after its opening quote. -/
theorem readText_quotedText (s : String) (rest : List Char) {fuel : ℕ}
    (hfuel : s.toList.length < fuel) :
    ∃ body, (quotedText s).toList ++ rest = '"' :: body ∧
      readText? fuel [] body = some (joinedText s, rest) := by
  refine ⟨s.toList.flatMap escaped ++ '"' :: rest, ?_, readText_escaped s.toList rest hfuel []⟩
  rw [quotedText, String.toList_ofList]
  simp only [List.cons_append, List.append_assoc, List.nil_append]

end Json

end Darkroom
