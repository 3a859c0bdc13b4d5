import Darkroom.Json.Printer
import Darkroom.Proofs.Files.Steps
import Mathlib.Data.Int.Notation
import Mathlib.Data.Nat.Notation
import Mathlib.Logic.Basic

/-!
# Tables as JSON

A table with texts as keys can be written as soon as what stands under its keys can be.

Whether the entries are sorted makes no difference to that: sorting only moves entries, and keys
that are texts can always be compared. So a record fails to be written only where one of its values
does.

## Main definitions

* `Value.entry?`: What a table holds under a name.

## Theorems

* `Value.lookup_texts`: Entries are looked up by their texts.
* `Json.exists_mapM_ok`: Steps that succeed one by one succeed together.
* `Json.exists_orderedEntries`: Entries in the order in which they are written.
* `Json.exists_writeWithin_named`: A table with texts as keys can be written.
-/

namespace Darkroom

namespace Value

/-- What a table holds under a name. -/
def entry? (value : Value) (name : String) : Option Value :=
  match value with
  | table entries => lookup name entries
  | _ => none

/-- Keys that are texts are told apart by their characters. -/
theorem same_text (a b : String) : (text a).same (text b) = decide (a = b) := by
  show (a == b) = decide (a = b)
  exact beq_eq_decide a b

/-- In a table with texts as keys, an entry is looked up by its text. -/
theorem lookup_texts (key : String) (entries : List (String × Value)) :
    Value.lookup key (entries.map fun (name, value) => (text name, value)) =
      entries.lookup key := by
  induction entries with
  | nil => rfl
  | cons entry rest ih =>
    rcases entry with ⟨name, value⟩
    unfold Value.lookup at ih ⊢
    rw [List.map_cons, List.find?_cons, List.lookup_cons, same_text]
    -- Both searches stop at the first entry with the key.
    by_cases h : name = key
    · subst h
      simp
    · rw [decide_eq_false h, beq_eq_false_iff_ne.mpr (Ne.symm h)]
      exact ih

theorem entry_named (entries : List (String × Value)) (name : String) :
    Value.entry? (named entries) name = entries.lookup name := lookup_texts name entries

/-- A whole number of few digits can be written. -/
theorem wholeText_of_small {n : ℤ} (h : n.natAbs < 10000) : wholeText n = .ok (toString n) := by
  refine if_pos (Nat.lt_of_lt_of_le h ?_)
  decide +kernel

end Value

namespace Json

theorem exists_mapM_ok {α β : Type} {f : α → Except Failure β} {xs : List α}
    (h : ∀ x ∈ xs, ∃ y, f x = .ok y) : ∃ ys, xs.mapM f = .ok ys := by
  induction xs with
  | nil => exact ⟨[], rfl⟩
  | cons x rest ih =>
    rcases h x List.mem_cons_self with ⟨y, hy⟩
    rcases ih fun x' hx' => h x' (List.mem_cons_of_mem x hx') with ⟨ys, hys⟩
    refine ⟨y :: ys, ?_⟩
    rw [List.mapM_cons, hy, hys]
    rfl

/-- The texts of keys, when all keys are texts. -/
theorem mapM_texts {f : Value × Value → Option (String × Value × Value)}
    (hf : ∀ name value, f (.text name, value) = some (name, .text name, value))
    (entries : List (String × Value)) :
    (entries.map fun (name, value) => (Value.text name, value)).mapM f =
      some (entries.map fun (name, value) => (name, .text name, value)) := by
  induction entries with
  | nil => rfl
  | cons entry rest ih =>
    rw [List.map_cons, List.mapM_cons, hf, ih]
    rfl

/-- Entries with texts as keys have an order, in which each of them comes once. -/
theorem exists_orderedEntries (layout : Layout) (entries : List (String × Value)) :
    ∃ ordered : List (String × Value), ordered.Perm entries ∧
      orderedEntries layout (entries.map fun (name, value) => (.text name, value)) =
        .ok (ordered.map fun (name, value) => (.text name, value)) := by
  unfold orderedEntries
  by_cases hsorts : layout.sortsKeys = true
  · rw [hsorts, mapM_texts fun _ _ => rfl]
    -- The texts stand beside their entries only while these are sorted.
    refine ⟨entries.mergeSort fun a b => a.1 ≤ b.1, List.mergeSort_perm _ _, ?_⟩
    dsimp only
    rw [← List.map_mergeSort (r := fun a b => decide (a.1 ≤ b.1)) fun _ _ _ _ => rfl, List.map_map]
    rfl
  · rw [Bool.eq_false_iff.mpr hsorts]
    exact ⟨entries, List.Perm.refl _, rfl⟩

/-- A table with texts as keys can be written when all of its values can. -/
theorem exists_writeWithin_named {layout : Layout} {fuel depth : ℕ}
    {entries : List (String × Value)}
    (h : ∀ entry ∈ entries, ∃ text, writeWithin layout fuel (depth + 1) entry.2 = .ok text) :
    ∃ text, writeWithin layout (fuel + 1) depth (.named entries) = .ok text := by
  rcases exists_orderedEntries layout entries with ⟨ordered, hperm, hordered⟩
  have hparts : ∀ entry ∈ ordered.map fun (name, value) => (Value.text name, value), ∃ part, (do
      let text ← writeWithin layout fuel (depth + 1) entry.2
      return quotedText (← keyText entry.1) ++ ": " ++ text) = Except.ok part := by
    intro entry hentry
    rcases List.mem_map.mp hentry with ⟨⟨name, value⟩, hmem, rfl⟩
    rcases h _ (hperm.mem_iff.mp hmem) with ⟨text, htext⟩
    exact ⟨_, ok_bind_iff.mpr ⟨text, htext, rfl⟩⟩
  rcases exists_mapM_ok hparts with ⟨parts, hmapM⟩
  exact ⟨_, ok_bind_iff.mpr ⟨_, hordered, ok_bind_iff.mpr ⟨parts, hmapM, rfl⟩⟩⟩

end Json

end Darkroom
