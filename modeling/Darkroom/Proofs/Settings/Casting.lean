import Darkroom.Proofs.Camera.TagNumbers
import Darkroom.Proofs.Settings.Usable

/-!
# How Casts Fail

With what failures a value of a setting is refused.

A cast refuses a value for one of two reasons. The value may be bad: a text that is no number, or a
list of the wrong length. Or the cast is no operation on such a value at all, as a list is no number
and an infinite number has no integer part. The second reason depends on the shape of the value
alone, so for every cast there is a condition on shapes under which only the first one is left.

## Main definitions

* `FailsOnly`: Whatever fails, fails with one of some failures.
* `Failure.IsBadValue`, `Failure.IsMisfit`: The two reasons.
* `Failure.BadUnless`: The first reason, or the second where a condition does not hold.
* `Value.MayBeReal`, `Value.MayBeWhole`, `Value.MayBeReals`: The shapes that casts are made for.

## Theorems

* `FailsOnly.bind`: The failures of a sequence.
* `Value.toReal_fails`, `Value.toWhole_fails`, `Value.asText_fails`, `Section.reals_fails`: The
  failures of the casts.
-/

namespace Darkroom

section

variable {α β : Type} {P Q : Failure → Prop}

/-- Whatever fails, fails with one of some failures. -/
def FailsOnly (P : Failure → Prop) (result : Except Failure α) : Prop :=
  ∀ failure, result = .error failure → P failure

theorem failsOnly_ok (a : α) : FailsOnly P (.ok a) := nofun

theorem failsOnly_error {failure : Failure} (h : P failure) :
    FailsOnly P (.error failure : Except Failure α) := by
  intro _ heq
  cases heq
  exact h

theorem FailsOnly.mono {result : Except Failure α} (h : FailsOnly P result)
    (hPQ : ∀ failure, P failure → Q failure) : FailsOnly Q result :=
  fun failure heq => hPQ failure (h failure heq)

/-- What follows is only reached with a result. -/
theorem FailsOnly.bind {first : Except Failure α} {next : α → Except Failure β}
    (hfirst : FailsOnly P first) (hnext : ∀ a, first = .ok a → FailsOnly P (next a)) :
    FailsOnly P (first >>= next) := by
  intro failure heq
  rcases error_bind_iff.mp heq with h | ⟨a, ha, h⟩
  · exact hfirst failure h
  · exact hnext a ha failure h

theorem FailsOnly.map {result : Except Failure α} {f : α → β} (h : FailsOnly P result) :
    FailsOnly P (f <$> result) := by
  cases result with
  | error failure => exact failsOnly_error (h failure rfl)
  | ok a => exact failsOnly_ok (f a)

theorem FailsOnly.mapM {f : α → Except Failure β} {values : List α}
    (h : ∀ value ∈ values, FailsOnly P (f value)) : FailsOnly P (values.mapM f) := by
  induction values with
  | nil => exact failsOnly_ok []
  | cons value rest ih =>
    rw [List.mapM_cons]
    refine (h value List.mem_cons_self).bind fun _ _ => ?_
    exact (ih fun v hv => h v (List.mem_cons_of_mem value hv)).bind fun _ _ => failsOnly_ok _

/-- What is followed by something that never fails. -/
theorem exists_bind_iff {first : Except Failure α} {next : α → Except Failure β}
    (h : ∀ a, ∃ b, next a = .ok b) : (∃ b, first >>= next = .ok b) ↔ ∃ a, first = .ok a := by
  simp only [ok_bind_iff]
  constructor
  · rintro ⟨_, a, ha, -⟩
    exact ⟨a, ha⟩
  · rintro ⟨a, ha⟩
    rcases h a with ⟨b, hb⟩
    exact ⟨b, a, ha, hb⟩

theorem exists_mapM_iff {f : α → Except Failure β} {values : List α} :
    (∃ results, values.mapM f = .ok results) ↔ ∀ value ∈ values, ∃ b, f value = .ok b := by
  induction values with
  | nil => exact iff_of_true ⟨[], rfl⟩ nofun
  | cons value rest ih =>
    rw [List.forall_mem_cons, ← ih]
    simp only [List.mapM_cons, ok_bind_iff]
    constructor
    · rintro ⟨_, b, hb, results, hresults, -⟩
      exact ⟨⟨b, hb⟩, results, hresults⟩
    · rintro ⟨⟨b, hb⟩, results, hresults⟩
      exact ⟨_, b, hb, results, hresults, rfl⟩

end

namespace Failure

/-- A value is bad. Half of a character in a name is a bad value of a sort of its own. -/
def IsBadValue (failure : Failure) : Prop := failure.kind = .badValue ∨ failure.kind = .halfText

/-- An operation does not fit a value. -/
def IsMisfit (failure : Failure) : Prop :=
  failure ∈ [wrongType, wrongAttribute, tooLargeForReal, infiniteToWhole]

/-- A value is bad, or an operation does not fit it because a condition does not hold. -/
def BadUnless (fits : Prop) (failure : Failure) : Prop :=
  failure.IsBadValue ∨ (failure.IsMisfit ∧ ¬fits)

theorem IsBadValue.badUnless {failure : Failure} (h : failure.IsBadValue) (fits : Prop) :
    BadUnless fits failure := Or.inl h

theorem BadUnless.mono {p q : Prop} (hpq : q → p) (failure : Failure) (h : BadUnless p failure) :
    BadUnless q failure := by
  rcases h with hbad | ⟨hmisfit, hp⟩
  · exact Or.inl hbad
  · exact Or.inr ⟨hmisfit, fun hq => hp (hpq hq)⟩

theorem badUnless_wrongType {fits : Prop} (h : ¬fits) : BadUnless fits wrongType :=
  Or.inr ⟨by simp [IsMisfit], h⟩

theorem badUnless_wrongAttribute {fits : Prop} (h : ¬fits) : BadUnless fits wrongAttribute :=
  Or.inr ⟨by simp [IsMisfit], h⟩

end Failure

open Failure

/-! Texts. -/

namespace Value

theorem wholeText_fails (n : Int) : FailsOnly (· = .tooLongToShow) (wholeText n) := by
  unfold wholeText
  split
  · exact failsOnly_ok _
  · exact failsOnly_error rfl

mutual

/-- Only a whole number inside a value can keep it from being shown. -/
theorem shownWithin_fails (around : List (Nat × String)) :
    (value : Value) → FailsOnly (· = .tooLongToShow) (value.shownWithin around)
  | null | flag _ | real _ | text _ | bytes _ | day _ | moment _ | again _ => failsOnly_ok _
  | whole n => wholeText_fails n
  | items values => (shownAll_fails around values).bind fun _ _ => failsOnly_ok _
  | tuple [] => failsOnly_ok _
  | tuple [value] => (shownWithin_fails around value).bind fun _ _ => failsOnly_ok _
  | tuple (first :: second :: rest) =>
    (shownAll_fails around (first :: second :: rest)).bind fun _ _ => failsOnly_ok _
  | table entries => (shownEntries_fails around entries).bind fun _ _ => failsOnly_ok _
  | collection [] => failsOnly_ok _
  | collection (value :: rest) =>
    (shownAll_fails around (value :: rest)).bind fun _ _ => failsOnly_ok _
  | tied mark value => by
    rw [shownWithin]
    split
    · exact failsOnly_ok _
    · exact shownWithin_fails _ value

theorem shownAll_fails (around : List (Nat × String)) :
    (values : List Value) → FailsOnly (· = .tooLongToShow) (shownAll around values)
  | [] => failsOnly_ok _
  | value :: rest =>
    (shownWithin_fails around value).bind fun _ _ =>
      (shownAll_fails around rest).bind fun _ _ => failsOnly_ok _

theorem shownEntries_fails (around : List (Nat × String)) :
    (entries : List (Value × Value)) → FailsOnly (· = .tooLongToShow) (shownEntries around entries)
  | [] => failsOnly_ok _
  | (key, value) :: rest =>
    (shownWithin_fails around key).bind fun _ _ =>
      (shownWithin_fails around value).bind fun _ _ =>
        (shownEntries_fails around rest).bind fun _ _ => failsOnly_ok _

end

/-- Everything is a text, unless it holds a number that is too long. -/
theorem asText_fails (value : Value) : FailsOnly IsBadValue value.asText := by
  have hshown : FailsOnly IsBadValue value.shown := by
    refine (shownWithin_fails [] value).mono ?_
    rintro _ rfl
    exact Or.inl rfl
  cases value with
  | text s => exact failsOnly_ok s
  | day d => exact failsOnly_ok _
  | moment m => exact failsOnly_ok _
  | _ => exact hshown

/-! Numbers. -/

/-- What may be worth a real number: numbers that are not too large, and what is written. -/
def MayBeReal : Value → Prop
  | flag _ | real _ | text _ | bytes _ => True
  | whole n => Darkroom.FitsReal n
  | _ => False

/-- What may be worth a whole number: numbers that are not infinite, and what is written. -/
def MayBeWhole : Value → Prop
  | flag _ | whole _ | text _ | bytes _ => True
  | real x => ∀ negative, x ≠ .infinite negative
  | _ => False

theorem toReal_fails (value : Value) : FailsOnly (BadUnless value.MayBeReal) value.toReal := by
  cases value with
  | flag b => exact failsOnly_ok _
  | real x => exact failsOnly_ok x
  | whole n =>
    intro failure h
    by_cases hfits : Darkroom.FitsReal n
    · rcases (exists_realOfWhole_iff n).mpr hfits with ⟨x, hx⟩
      cases hx.symm.trans h
    · cases (realOfWhole_eq_error hfits).symm.trans h
      exact Or.inr ⟨by simp [IsMisfit], hfits⟩
  | text s =>
    rw [toReal]
    split
    · exact failsOnly_ok _
    · exact failsOnly_error (Or.inl (Or.inl rfl))
  | bytes data =>
    rw [toReal]
    split
    · exact failsOnly_ok _
    · exact failsOnly_error (Or.inl (Or.inl rfl))
  | _ => exact failsOnly_error (badUnless_wrongType id)

theorem MayBeReal.of_toReal {value : Value} {x : Double} (h : value.toReal = .ok x) :
    value.MayBeReal := by
  cases value with
  | whole n => exact (exists_realOfWhole_iff n).mp ⟨x, h⟩
  | flag _ | real _ | text _ | bytes _ => exact trivial
  | _ => cases h

theorem readWhole_fails (base : Nat) (shown : String) (cs : List Char) :
    FailsOnly IsBadValue (readWhole base shown cs) := by
  unfold readWhole
  simp only
  split
  · exact failsOnly_error (Or.inl rfl)
  · split
    · exact failsOnly_error (Or.inl rfl)
    · exact failsOnly_ok _

theorem toWhole_fails (value : Value) : FailsOnly (BadUnless value.MayBeWhole) value.toWhole := by
  cases value with
  | flag b => exact failsOnly_ok _
  | whole n => exact failsOnly_ok n
  | real x =>
    cases x with
    | nan => exact failsOnly_error (Or.inl (Or.inl rfl))
    | infinite negative =>
      show FailsOnly _ (.error .infiniteToWhole)
      exact failsOnly_error (Or.inr ⟨by simp [IsMisfit], fun h => h negative rfl⟩)
    | finite => exact failsOnly_ok _
  | text s => exact (readWhole_fails 10 _ _).mono fun _ h => h.badUnless _
  | bytes data => exact (readWhole_fails 10 _ _).mono fun _ h => h.badUnless _
  | _ => exact failsOnly_error (badUnless_wrongType id)

theorem MayBeWhole.of_toWhole {value : Value} {n : Int} (h : value.toWhole = .ok n) :
    value.MayBeWhole := by
  cases value with
  | real x =>
    rintro negative rfl
    cases h
  | flag _ | whole _ | text _ | bytes _ => exact trivial
  | _ => cases h

/-- What may be worth some real numbers: nothing, and parts that may be, if they are as many. -/
def MayBeReals (count : Nat) (value : Value) : Prop :=
  value = .null ∨ ∃ parts, value.elements? = some parts ∧
    (parts.length = count → ∀ part ∈ parts, part.MayBeReal)

theorem toElements_eq_ok {value : Value} {parts : List Value} :
    value.toElements = .ok parts ↔ value.elements? = some parts := by
  unfold toElements
  cases value.elements? <;> simp

theorem toElements_fails (value : Value) :
    FailsOnly (BadUnless (∃ parts, value.elements? = some parts)) value.toElements := by
  unfold toElements
  cases value.elements? with
  | none => exact failsOnly_error (badUnless_wrongType (by simp))
  | some parts => exact failsOnly_ok parts

end Value

/-! Entries of sections. -/

namespace Section

variable {entries : Section} {key label : String} {default : Value} {count : Nat}

/-- What is said under a name, if anything is, has a property. -/
def Says (entries : Section) (key : String) (P : Value → Prop) : Prop :=
  ∀ value, Value.lookup key entries = some value → P value

theorem Says.get {P : Value → Prop} (h : entries.Says key P) (hdefault : P default) :
    P (get entries key default) := by
  unfold Section.get
  cases hfound : Value.lookup key entries with
  | none => exact hdefault
  | some value => exact h value hfound

theorem says_of_get {P : Value → Prop} (default : Value) (h : P (get entries key default)) :
    entries.Says key P := by
  intro value hfound
  rwa [get, hfound] at h

theorem Says.mono {P Q : Value → Prop} (h : entries.Says key P) (hPQ : ∀ value, P value → Q value) :
    entries.Says key Q := fun value hfound => hPQ value (h value hfound)

/-- What may be missing is cast only when it is there. -/
theorem option_fails {α : Type} {cast : Value → Except Failure α} {P : Failure → Prop}
    (h : ∀ value, Value.lookup key entries = some value → value ≠ .null →
      FailsOnly P (cast value)) : FailsOnly P (Section.option entries cast key) := by
  unfold Section.option Section.get
  cases hfound : Value.lookup key entries with
  | none => exact failsOnly_ok none
  | some value =>
    dsimp only [Option.getD]
    split
    · exact failsOnly_ok none
    · next hnull => exact (h value hfound hnull).map

theorem reals_fails (count : Nat) (label : String) (value : Value) :
    FailsOnly (BadUnless (value.MayBeReals count)) (reals count label value) := by
  unfold reals
  split
  · exact failsOnly_ok none
  · next hnull =>
    refine (value.toElements_fails.mono (BadUnless.mono ?_)).bind fun parts hparts => ?_
    · rintro (h | ⟨parts, hparts, -⟩)
      · exact absurd h hnull
      · exact ⟨parts, hparts⟩
    · have hparts := Value.toElements_eq_ok.mp hparts
      split
      · exact failsOnly_error (Or.inl (Or.inl rfl))
      · next hcount =>
        rw [not_not] at hcount
        refine (FailsOnly.mapM fun part hpart => ?_).map
        refine part.toReal_fails.mono (BadUnless.mono ?_)
        rintro (h | ⟨_, hparts', hreal⟩)
        · exact absurd h hnull
        · cases hparts.symm.trans hparts'
          exact hreal hcount part hpart

theorem pair_fails : FailsOnly (BadUnless ((get entries key default).MayBeReals 2))
    (pair entries label key default) := by
  refine (reals_fails 2 label _).bind fun found _ => ?_
  split <;> exact failsOnly_ok _

theorem quad_fails : FailsOnly (BadUnless ((get entries key default).MayBeReals 4))
    (quad entries label key default) := by
  refine (reals_fails 4 label _).bind fun found _ => ?_
  split <;> exact failsOnly_ok _

end Section

end Darkroom
