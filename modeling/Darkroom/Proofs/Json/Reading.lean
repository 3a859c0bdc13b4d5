import Darkroom.Json.Reader
import Darkroom.Proofs.Files.Steps
import Mathlib.Data.Int.Notation
import Darkroom.Proofs.Numeric.Value
import Mathlib.Data.List.Basic
import Mathlib.Data.List.TakeWhile

/-!
# What is Read can be Shown

Every value that is read from a JSON text can be shown.

Showing a value fails only at a whole number of too many digits, wherever in the value it stands.
The reader has the same limit: a text with a longer run of digits is no value at all. So the
property to carry through the reader is that a value can be shown whatever stands around it. It
passes from the items of a list to the list and from the entries of a table to the table, and the
items and entries that the reader holds on to while it goes on have it all the time.

## Main definitions

* `Value.Showable`: A value that can be shown, whatever stands around it.

## Theorems

* `Value.showable_items`, `Value.showable_table`: Values that consist of others.
* `Json.showable_of_readNumber`: Numbers that are read.
* `Json.showable_of_read`: Values that are read.
-/

namespace Darkroom

namespace Value

/-- A value that can be shown, whatever stands around it. -/
def Showable (value : Value) : Prop := ∀ around, ∃ text, value.shownWithin around = .ok text

theorem showable_null : null.Showable := fun _ => ⟨_, rfl⟩

theorem showable_text (s : String) : (text s).Showable := fun _ => ⟨_, rfl⟩

theorem showable_whole {n : ℤ} (h : n.natAbs < tenTo digitLimit) : (whole n).Showable := by
  intro around
  refine ⟨toString n, ?_⟩
  rw [shownWithin, wholeText, if_pos h]

theorem exists_shownAll {values : List Value} (h : ∀ value ∈ values, value.Showable)
    (around : List (Nat × String)) : ∃ texts, shownAll around values = .ok texts := by
  induction values with
  | nil => exact ⟨[], rfl⟩
  | cons value rest ih =>
    rcases h value List.mem_cons_self around with ⟨text, htext⟩
    rcases ih fun v hv => h v (List.mem_cons_of_mem value hv) with ⟨texts, htexts⟩
    exact ⟨text :: texts, ok_bind_iff.mpr ⟨text, htext, ok_bind_iff.mpr ⟨texts, htexts, rfl⟩⟩⟩

/-- A list can be shown when its items can be. -/
theorem showable_items {values : List Value} (h : ∀ value ∈ values, value.Showable) :
    (items values).Showable := by
  intro around
  rcases exists_shownAll h around with ⟨texts, htexts⟩
  exact ⟨_, ok_bind_iff.mpr ⟨texts, htexts, rfl⟩⟩

theorem exists_shownEntries {entries : List (Value × Value)}
    (h : ∀ entry ∈ entries, entry.1.Showable ∧ entry.2.Showable) (around : List (Nat × String)) :
    ∃ texts, shownEntries around entries = .ok texts := by
  induction entries with
  | nil => exact ⟨[], rfl⟩
  | cons entry rest ih =>
    rcases entry with ⟨key, value⟩
    rcases h (key, value) List.mem_cons_self with ⟨hkey, hvalue⟩
    rcases hkey around with ⟨keyText, hkeyText⟩
    rcases hvalue around with ⟨valueText, hvalueText⟩
    rcases ih fun e he => h e (List.mem_cons_of_mem _ he) with ⟨texts, htexts⟩
    exact ⟨_, ok_bind_iff.mpr ⟨keyText, hkeyText, ok_bind_iff.mpr ⟨valueText, hvalueText,
      ok_bind_iff.mpr ⟨texts, htexts, rfl⟩⟩⟩⟩

/-- A table can be shown when its keys and values can be. -/
theorem showable_table {entries : List (Value × Value)}
    (h : ∀ entry ∈ entries, entry.1.Showable ∧ entry.2.Showable) : (table entries).Showable := by
  intro around
  rcases exists_shownEntries h around with ⟨texts, htexts⟩
  exact ⟨_, ok_bind_iff.mpr ⟨texts, htexts, rfl⟩⟩

/-- Entries of which each can be shown still are when one is added or takes a new value. -/
theorem showable_insert {key value : Value} {entries : List (Value × Value)}
    (hkey : key.Showable) (hvalue : value.Showable)
    (h : ∀ entry ∈ entries, entry.1.Showable ∧ entry.2.Showable) :
    ∀ entry ∈ insert key value entries, entry.1.Showable ∧ entry.2.Showable := by
  induction entries with
  | nil =>
    intro entry hentry
    rcases List.mem_singleton.mp hentry with rfl
    exact ⟨hkey, hvalue⟩
  | cons first rest ih =>
    have hfirst := h first List.mem_cons_self
    have hrest := fun e he => h e (List.mem_cons_of_mem first he)
    intro entry hentry
    unfold insert at hentry
    by_cases hsame : first.1.same key = true
    · rw [if_pos hsame] at hentry
      rcases List.mem_cons.mp hentry with rfl | hmem
      · exact ⟨hfirst.1, hvalue⟩
      · exact hrest entry hmem
    · rw [if_neg hsame] at hentry
      rcases List.mem_cons.mp hentry with rfl | hmem
      · exact hfirst
      · exact ih hrest entry hmem

end Value

/-- Digits that follow a number make it less than the next number with as many digits after it. -/
theorem foldl_digits_lt {digits : List Nat} (h : ∀ d ∈ digits, d < 10) (n : Nat) :
    digits.foldl (fun value digit => 10 * value + digit) n < (n + 1) * 10 ^ digits.length := by
  induction digits generalizing n with
  | nil => simp
  | cons d rest ih =>
    have hd := h d List.mem_cons_self
    have hrest := ih (fun x hx => h x (List.mem_cons_of_mem d hx)) (10 * n + d)
    rw [List.foldl_cons, List.length_cons, pow_succ']
    calc rest.foldl (fun value digit => 10 * value + digit) (10 * n + d)
        < (10 * n + d + 1) * 10 ^ rest.length := hrest
      _ ≤ (10 * (n + 1)) * 10 ^ rest.length := Nat.mul_le_mul_right _ (by omega)
      _ = (n + 1) * (10 * 10 ^ rest.length) := by ring

theorem tenTo_mono {m n : Nat} (h : m ≤ n) : tenTo m ≤ tenTo n :=
  Nat.pow_le_pow_right (by decide) h

/-- A run of digits is worth less than the power of ten with as many zeros. -/
theorem ofDigits_lt {digits : List Nat} (h : ∀ d ∈ digits, d < 10) :
    ofDigits digits < tenTo digits.length := by
  simpa [ofDigits, tenTo] using foldl_digits_lt h 0

namespace Json

theorem mem_takeDigits {cs : List Char} {c : Char} (h : c ∈ (takeDigits cs).1) : c.toNat ≤ 57 := by
  unfold takeDigits at h
  rw [List.span_eq_takeWhile_dropWhile] at h
  have hdigit := List.mem_takeWhile_imp h
  simp only [Bool.and_eq_true, decide_eq_true_eq] at hdigit
  exact UInt32.le_iff_toNat_le.mp hdigit.2

theorem plainValue_lt {digits : List Char} (h : ∀ c ∈ digits, c.toNat ≤ 57) :
    plainValue digits < tenTo digits.length := by
  have hlt : ofDigits (digits.map fun c => c.toNat - 48) <
      tenTo (digits.map fun c => c.toNat - 48).length := by
    refine ofDigits_lt fun d hd => ?_
    rcases List.mem_map.mp hd with ⟨c, hc, rfl⟩
    have := h c hc
    omega
  rwa [List.length_map] at hlt

/-- A whole number of no more digits than can be shown. -/
theorem showable_of_digits {digits : List Char} (negative : Bool)
    (h : ∀ c ∈ digits, c.toNat ≤ 57) (hlimit : digits.length ≤ digitLimit) :
    (Value.whole (signed negative (plainValue digits))).Showable := by
  refine Value.showable_whole ?_
  rw [natAbs_signed]
  exact (plainValue_lt h).trans_le (tenTo_mono hlimit)

theorem showable_of_readNumber {cs rest : List Char} {value : Value}
    (h : readNumber? cs = some (value, rest)) : value.Showable := by
  unfold readNumber? at h
  split at h
  split at h
  rename_i negative body _ _ digits tail hdigits
  -- A number that begins with zero has no other digits before its point.
  have hplain : ∀ c ∈ digits, c.toNat ≤ 57 := by
    unfold takeWhole at hdigits
    split at hdigits
    · cases hdigits
      simp
    · intro c hc
      refine @mem_takeDigits body c ?_
      rw [hdigits]
      exact hc
  split at h
  · cases h
  · split at h
    split at h
    split at h
    · split at h
      · cases h
      · rename_i hlimit
        cases h
        exact showable_of_digits negative hplain (Nat.not_lt.mp hlimit)
    · cases h
      exact fun _ => ⟨_, rfl⟩

theorem showable_of_readScalar {cs rest : List Char} {value : Value}
    (h : readScalar? cs = some (value, rest)) : value.Showable := by
  have hwords : ∀ entry ∈ words, entry.2.Showable := by
    simp only [words, List.forall_mem_cons]
    exact ⟨fun _ => ⟨_, rfl⟩, fun _ => ⟨_, rfl⟩, fun _ => ⟨_, rfl⟩, fun _ => ⟨_, rfl⟩,
      fun _ => ⟨_, rfl⟩, fun _ => ⟨_, rfl⟩, List.forall_mem_nil _⟩
  unfold readScalar? at h
  split at h
  · rename_i found hfound
    cases h
    rcases List.exists_of_findSome?_eq_some hfound with ⟨entry, hentry, hword⟩
    rcases Option.map_eq_some_iff.mp hword with ⟨_, -, heq⟩
    cases heq
    exact hwords entry hentry
  · exact showable_of_readNumber h

theorem found_eq_ok {α : Type} {read : Option α} {a : α} :
    found read = .ok a ↔ read = some a := by
  cases read <;> simp [found]

/-! The three readers with some fuel: whatever they read can be shown, as long as what they hold on
to can be. -/

def ShowsValues (fuel : Nat) : Prop :=
  ∀ room cs value rest, readValue fuel room cs = .ok (value, rest) → value.Showable

def ShowsItems (fuel : Nat) : Prop :=
  ∀ room taken cs value rest, (∀ v ∈ taken, v.Showable) →
    readItems fuel room taken cs = .ok (value, rest) → value.Showable

def ShowsEntries (fuel : Nat) : Prop :=
  ∀ room taken cs value rest, (∀ entry ∈ taken, entry.1.Showable ∧ entry.2.Showable) →
    readEntries fuel room taken cs = .ok (value, rest) → value.Showable

theorem showsValues_succ {fuel : Nat} (hitems : ShowsItems fuel) (hentries : ShowsEntries fuel) :
    ShowsValues (fuel + 1) := by
  intro room cs value rest h
  unfold readValue at h
  split at h
  · cases h
  · -- A text.
    rcases Option.map_eq_some_iff.mp (found_eq_ok.mp h) with ⟨⟨s, tail⟩, -, heq⟩
    cases heq
    exact Value.showable_text s
  · -- A list.
    rename_i hfuel
    cases hfuel
    rcases ok_bind_iff.mp h with ⟨room, -, h⟩
    split at h
    · cases h
      exact Value.showable_items (List.forall_mem_nil _)
    · exact hitems _ _ _ _ _ (List.forall_mem_nil _) h
  · -- A table.
    rename_i hfuel
    cases hfuel
    rcases ok_bind_iff.mp h with ⟨room, -, h⟩
    split at h
    · cases h
      exact Value.showable_table (List.forall_mem_nil _)
    · exact hentries _ _ _ _ _ (List.forall_mem_nil _) h
  · exact showable_of_readScalar (found_eq_ok.mp h)

theorem showsItems_succ {fuel : Nat} (hvalues : ShowsValues fuel) (hitems : ShowsItems fuel) :
    ShowsItems (fuel + 1) := by
  intro room taken cs value rest htaken h
  unfold readItems at h
  rcases ok_bind_iff.mp h with ⟨⟨item, tail⟩, hitem, h⟩
  have hall : ∀ v ∈ item :: taken, v.Showable := by
    intro v hv
    rcases List.mem_cons.mp hv with rfl | hmem
    · exact hvalues _ _ _ _ hitem
    · exact htaken v hmem
  dsimp only at h
  split at h
  · exact hitems _ _ _ _ _ hall h
  · cases h
    exact Value.showable_items fun v hv => hall v (List.mem_reverse.mp hv)
  · cases h

theorem showsEntries_succ {fuel : Nat} (hvalues : ShowsValues fuel)
    (hentries : ShowsEntries fuel) : ShowsEntries (fuel + 1) := by
  intro room taken cs value rest htaken h
  unfold readEntries at h
  split at h
  · cases h
  · rename_i hfuel
    cases hfuel
    rcases ok_bind_iff.mp h with ⟨⟨key, tail⟩, -, h⟩
    dsimp only at h
    split at h
    · rcases ok_bind_iff.mp h with ⟨⟨entry, more⟩, hentry, h⟩
      have hall := Value.showable_insert (Value.showable_text key) (hvalues _ _ _ _ hentry) htaken
      dsimp only at h
      split at h
      · exact hentries _ _ _ _ _ hall h
      · cases h
        exact Value.showable_table hall
      · cases h
    · cases h
  · cases h

theorem shows_within (fuel : Nat) : ShowsValues fuel ∧ ShowsItems fuel ∧ ShowsEntries fuel := by
  induction fuel with
  | zero =>
    refine ⟨?_, ?_, ?_⟩
    · intro room cs value rest h
      cases h
    · intro room taken cs value rest _ h
      cases h
    · intro room taken cs value rest _ h
      cases h
  | succ fuel ih =>
    rcases ih with ⟨hvalues, hitems, hentries⟩
    exact ⟨showsValues_succ hitems hentries, showsItems_succ hvalues hitems,
      showsEntries_succ hvalues hentries⟩

/-- What is read can be shown, however much room there is. -/
theorem showable_of_read {room : Nat} {s : String} {value : Value} (h : read room s = .ok value) :
    value.Showable := by
  unfold read at h
  rcases ok_bind_iff.mp h with ⟨⟨found, rest⟩, hread, h⟩
  dsimp only at h
  split at h
  · cases h
    exact (shows_within _).1 _ _ _ _ hread
  · cases h

/-- A text of nothing but lists that begin. -/
def openings (count : ℕ) : String := String.ofList (List.replicate count '[')

theorem skipGap_replicate (count : ℕ) :
    skipGap (List.replicate count '[') = List.replicate count '[' := by
  cases count <;> rfl

theorem readValue_replicate (room : ℕ) {fuel : ℕ} (h : 2 * room < fuel) :
    readValue fuel room (List.replicate (room + 1) '[') = .error (.tooDeep "array") := by
  induction room generalizing fuel with
  | zero =>
    obtain ⟨fuel, rfl⟩ : ∃ less, fuel = less + 1 := ⟨fuel - 1, by omega⟩
    rfl
  | succ room ih =>
    obtain ⟨fuel, rfl⟩ : ∃ less, fuel = less + 2 := ⟨fuel - 2, by omega⟩
    have hlist : readValue (fuel + 2) (room + 1) (List.replicate (room + 1 + 1) '[') =
        readItems (fuel + 1) room [] (skipGap (List.replicate (room + 1) '[')) := rfl
    rw [hlist, skipGap_replicate]
    show (readValue fuel room (List.replicate (room + 1) '[') >>= _) = _
    rw [ih (by omega)]
    rfl

/-- However much room there is, some text is nested deeper, and it shows before the text is at its
    end. -/
theorem read_openings (room : ℕ) :
    read room (openings (room + 1)) = .error (.tooDeep "array") := by
  have hvalue := @readValue_replicate room (2 * (room + 1) + 2) (by omega)
  unfold read openings
  simp only [String.toList_ofList, skipGap_replicate, List.length_replicate, hvalue]
  rfl

end Json

end Darkroom
