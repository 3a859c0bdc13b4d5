import Darkroom.Camera.Exif
import Darkroom.Proofs.Text.Layers

/-!
# Ends of Labels

What is left of the texts in which a camera names itself and the time.

Such texts are filled up with blanks and with zeros, and a label is what stands between. They are
trimmed three times, of blanks, of zeros and of blanks again, so that zeros go that stand outside of
blanks and blanks that stand outside of zeros. Zeros within blanks within zeros stay, and so does
what they stand around. The label is then no label in the proper sense: it begins or ends with a
zero, and reading it once more gives another one. A text that is nothing but padding gives no label
unless that padding has zeros, blanks and zeros again on either side of nothing.

## Main definitions

* `isPadding`: Blanks and zeros.
* `PaddedInTurn`: A text with no more around it than blanks, zeros and blanks.

## Theorems

* `isTrimmed_trimLabel_iff`: When no padding is left at the ends of a label.
* `trimLabel_eq_nil_iff`: When nothing is left.
* `trimLabel_eq_self_iff`: When nothing goes.
* `TagValue.label_trimmed_iff`: The label of a text.
-/

namespace Darkroom

open TagValue

variable {cs : List Char}

/-- Whether a character is a zero, with which texts are filled up. -/
def isZero (c : Char) : Bool := c = Char.ofNat 0

/-- Whether a character is padding. -/
def isPadding (c : Char) : Bool := isBlank c || isZero c

/-- The kinds of padding in the order in which a label is trimmed of them. -/
def labelTurns : List (Char → Bool) := [isBlank, isZero, isBlank]

/-- A text with no more around it than blanks, zeros and blanks. -/
def PaddedInTurn (cs : List Char) : Prop :=
  ∃ front core back, cs = front ++ core ++ back ∧ Layered labelTurns front ∧
    IsTrimmed isPadding core ∧ Layered labelTurns back

theorem trimLabel_eq (cs : List Char) : trimLabel cs = trimInTurn labelTurns cs := rfl

theorem isPadding_eq_false {c : Char} :
    isPadding c = false ↔ isBlank c = false ∧ isZero c = false :=
  Bool.or_eq_false_iff

/-- No padding at the ends is no blank and no zero there. -/
theorem isTrimmed_isPadding :
    IsTrimmed isPadding cs ↔ IsTrimmed isBlank cs ∧ IsTrimmed isZero cs := by
  unfold IsTrimmed
  simp only [isPadding_eq_false]
  constructor
  · rintro ⟨hhead, hlast⟩
    exact ⟨⟨fun c hc => (hhead c hc).1, fun c hc => (hlast c hc).1⟩,
      fun c hc => (hhead c hc).2, fun c hc => (hlast c hc).2⟩
  · rintro ⟨hblank, hzero⟩
    exact ⟨fun c hc => ⟨hblank.1 c hc, hzero.1 c hc⟩, fun c hc => ⟨hblank.2 c hc, hzero.2 c hc⟩⟩

theorem isTrimmed_isPadding_iff :
    IsTrimmed isPadding cs ↔ ∀ kind ∈ labelTurns, IsTrimmed kind cs := by
  rw [isTrimmed_isPadding]
  constructor
  · rintro ⟨hblank, hzero⟩
    exact List.forall_mem_cons.mpr ⟨hblank, List.forall_mem_cons.mpr ⟨hzero,
      List.forall_mem_singleton.mpr hblank⟩⟩
  · intro h
    exact ⟨h isBlank (by simp [labelTurns]), h isZero (by simp [labelTurns])⟩

theorem isPadding_of_layered (h : Layered labelTurns cs) : ∀ c ∈ cs, isPadding c = true := by
  intro c hc
  rcases h.exists_kind c hc with ⟨kind, hkind, hc⟩
  unfold isPadding
  simp only [labelTurns, List.mem_cons, List.not_mem_nil, or_false] at hkind
  rcases hkind with rfl | rfl | rfl
  · rw [hc, Bool.true_or]
  · rw [hc, Bool.or_true]
  · rw [hc, Bool.true_or]

/-- What goes from the ends of a label is padding. -/
theorem exists_padding_trimLabel (cs : List Char) :
    ∃ front back, cs = front ++ trimLabel cs ++ back ∧ Layered labelTurns front ∧
      Layered labelTurns back :=
  exists_layers labelTurns cs

/-- What is padded in turn is found again. -/
theorem trimLabel_of_paddedInTurn {front core back : List Char} (hfront : Layered labelTurns front)
    (hcore : IsTrimmed isPadding core) (hback : Layered labelTurns back) :
    trimLabel (front ++ core ++ back) = core :=
  trimInTurn_of_layers hfront hback (isTrimmed_isPadding_iff.mp hcore)

/-- No padding is left at the ends exactly when there were no more than three layers of it. -/
theorem isTrimmed_trimLabel_iff : IsTrimmed isPadding (trimLabel cs) ↔ PaddedInTurn cs := by
  constructor
  · intro h
    rcases exists_padding_trimLabel cs with ⟨front, back, hcs, hfront, hback⟩
    exact ⟨front, trimLabel cs, back, hcs, hfront, h, hback⟩
  · rintro ⟨front, core, back, rfl, hfront, hcore, hback⟩
    rw [trimLabel_of_paddedInTurn hfront hcore hback]
    exact hcore

/-- Nothing is left of padding in turn around nothing. -/
theorem trimLabel_eq_nil_iff :
    trimLabel cs = [] ↔ PaddedInTurn cs ∧ ∀ c ∈ cs, isPadding c = true := by
  constructor
  · intro h
    rcases exists_padding_trimLabel cs with ⟨front, back, hcs, hfront, hback⟩
    refine ⟨isTrimmed_trimLabel_iff.mp (h ▸ isTrimmed_nil _), ?_⟩
    rw [h, List.append_nil] at hcs
    intro c hc
    rw [hcs] at hc
    rcases List.mem_append.mp hc with hc | hc
    · exact isPadding_of_layered hfront c hc
    · exact isPadding_of_layered hback c hc
  · rintro ⟨⟨front, core, back, rfl, hfront, hcore, hback⟩, hpadding⟩
    rw [trimLabel_of_paddedInTurn hfront hcore hback]
    -- What begins with no padding, but is nothing else, is nothing at all.
    cases core with
    | nil => rfl
    | cons c rest =>
      have hc : isPadding c = true := hpadding c (by simp)
      cases hc.symm.trans (hcore.1 c rfl)

/-- A label is a label of itself exactly when no padding is left at its ends. -/
theorem trimLabel_eq_self_iff : trimLabel cs = cs ↔ IsTrimmed isPadding cs := by
  rw [isTrimmed_isPadding_iff, trimLabel_eq]
  exact trimInTurn_eq_self_iff

namespace TagValue

theorem label?_text (s : String) :
    (plain (.text s)).label? = .ok (if trimLabel s.toList = [] then none
      else some (String.ofList (trimLabel s.toList))) := by
  show Except.ok _ = _
  simp only [List.isEmpty_iff]

/-- A label is read as itself when no padding is left at its ends. -/
theorem label?_eq_self_iff {s : String} (hs : s ≠ "") :
    (plain (.text s)).label? = .ok (some s) ↔ IsTrimmed isPadding s.toList := by
  rw [label?_text, Except.ok.injEq, ← trimLabel_eq_self_iff]
  constructor
  · intro h
    split at h
    · cases h
    · have hleft : String.ofList (trimLabel s.toList) = s := Option.some.inj h
      rw [← String.toList_inj, String.toList_ofList] at hleft
      exact hleft
  · intro h
    rw [h, if_neg (by simpa using hs), String.ofList_toList]

/-- The label of a text is what is left of it without padding at its ends. It is never empty, and
    blanks are never left at its ends. Zeros are not left either, and the label is its own label,
    exactly when the text is padded in turn; and of such texts those without a label are the ones
    that are nothing but padding. -/
theorem label_trimmed_iff (s : String) :
    ∃ label, (plain (.text s)).label? = .ok label ∧
      (label = none ↔ PaddedInTurn s.toList ∧ ∀ c ∈ s.toList, isPadding c = true) ∧
      ∀ text, label = some text →
        text ≠ "" ∧ IsTrimmed isBlank text.toList ∧
        (∃ front back, s.toList = front ++ text.toList ++ back ∧
          (∀ c ∈ front, isPadding c = true) ∧ ∀ c ∈ back, isPadding c = true) ∧
        (IsTrimmed isPadding text.toList ↔ PaddedInTurn s.toList) ∧
        ((plain (.text text)).label? = .ok (some text) ↔ PaddedInTurn s.toList) := by
  refine ⟨_, label?_text s, ?_, ?_⟩
  · rw [← trimLabel_eq_nil_iff]
    split
    · next h => exact iff_of_true rfl h
    · next h => exact iff_of_false nofun h
  · intro text htext
    split at htext
    · cases htext
    · next hleft =>
      obtain rfl : String.ofList (trimLabel s.toList) = text := Option.some.inj htext
      have hne : String.ofList (trimLabel s.toList) ≠ "" :=
        fun h => hleft (String.ofList_eq_empty_iff.mp h)
      rcases exists_padding_trimLabel s.toList with ⟨front, back, hs, hfront, hback⟩
      rw [label?_eq_self_iff hne, String.toList_ofList, isTrimmed_trimLabel_iff]
      exact ⟨hne, isTrimmed_trimEnds isBlank _, ⟨front, back, hs, isPadding_of_layered hfront,
        isPadding_of_layered hback⟩, Iff.rfl, Iff.rfl⟩

/-- Zeros outside of blanks, and blanks outside of zeros, are no part of a label. -/
theorem label_trimmed_of_padded :
    (plain (.text " \x00 Google\x00 ")).label? = .ok (some "Google") ∧
      PaddedInTurn " \x00 Google\x00 ".toList := by
  have hlabel : (plain (.text " \x00 Google\x00 ")).label? = .ok (some "Google") := by decide
  rcases label_trimmed_iff " \x00 Google\x00 " with ⟨label, hread, -, hleft⟩
  have hgoogle : label = some "Google" := Except.ok.inj (hread.symm.trans hlabel)
  refine ⟨hlabel, (hleft "Google" hgoogle).2.2.2.1.mp ⟨?_, ?_⟩⟩
  · intro c hc
    obtain rfl : 'G' = c := Option.some.inj hc
    decide
  · intro c hc
    obtain rfl : 'e' = c := Option.some.inj hc
    decide

/-- Of zeros with blanks between them one is left, though there is nothing but padding. It stands at
    both ends of the label, and the label of the label is none. -/
theorem label_of_alternating_zeros :
    (plain (.text "\x00 \x00 \x00")).label? = .ok (some "\x00") ∧
      (∀ c ∈ "\x00 \x00 \x00".toList, isPadding c = true) ∧
      ¬IsTrimmed isPadding "\x00".toList ∧
      (plain (.text "\x00")).label? = .ok none := by
  have hzero : isPadding '\x00' = true := by decide
  have hblank : isPadding ' ' = true := by decide
  refine ⟨by decide, ?_, ?_, by decide⟩
  · show ∀ c ∈ ['\x00', ' ', '\x00', ' ', '\x00'], isPadding c = true
    simp only [List.mem_cons, List.not_mem_nil, or_false]
    rintro c (rfl | rfl | rfl | rfl | rfl) <;> assumption
  · intro h
    exact absurd hzero (Bool.not_eq_true _ ▸ h.1 '\x00' rfl)

end TagValue

end Darkroom
