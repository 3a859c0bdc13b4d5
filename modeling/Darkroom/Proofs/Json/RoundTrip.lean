import Darkroom.Proofs.Json.Parts
import Darkroom.Proofs.Json.Tables

/-!
# What is Written is Read Back

A value that is written as JSON is read back as the same value, as far as JSON can tell.

Three things are lost on the way: a tuple comes back as a list, a table with its keys as texts and
in the order in which they were written, and a text with its pairs of halves joined. `Json.asRead`
says so, and nothing else changes. In particular every number comes back as the very number that it
was.

## Main definitions

* `Json.asRead`: A value as it is read back.

## Theorems

* `Json.orderedEntries_map`: The order of entries depends on their keys.
* `Json.readsBack_of_writeWithin`: What is written is read back, by induction on the nesting.
* `Json.read_of_write`: The same for a whole text.
* `Json.entry_asRead_named`: What stands under a name is read back under that name.
-/

namespace Darkroom

namespace Json

/-- A key as it is read back. -/
def keyAsRead (key : Value) : String := joinedText ((keyText key).toOption.getD "")

mutual

/-- A value as it is read back from its text. A tuple is read as a list, a text with its pairs of
    halves joined, and a table with texts as keys, in the order in which they were written. -/
def asRead (layout : Layout) : Value → Value
  | .text s => .text (joinedText s)
  | .items values | .tuple values => .items (allAsRead layout values)
  | .table entries =>
    let ordered := (orderedEntries layout (entriesAsRead layout entries)).toOption.getD []
    .table (insertAll (ordered.map fun entry => (keyAsRead entry.1, entry.2)) [])
  | value => value

def allAsRead (layout : Layout) : List Value → List Value
  | [] => []
  | value :: rest => asRead layout value :: allAsRead layout rest

def entriesAsRead (layout : Layout) : List (Value × Value) → List (Value × Value)
  | [] => []
  | (key, value) :: rest => (key, asRead layout value) :: entriesAsRead layout rest

end

theorem allAsRead_eq (layout : Layout) (values : List Value) :
    allAsRead layout values = values.map (asRead layout) := by
  induction values with
  | nil => rfl
  | cons value rest ih => rw [allAsRead, ih, List.map_cons]

theorem entriesAsRead_eq (layout : Layout) (entries : List (Value × Value)) :
    entriesAsRead layout entries = entries.map fun entry => (entry.1, asRead layout entry.2) := by
  induction entries with
  | nil => rfl
  | cons entry rest ih => rw [entriesAsRead, ih, List.map_cons]

/-- Whatever is written without brackets is read back. -/
theorem readsBack_of_scalarText (layout : Layout) {value : Value} {text : String}
    (h : scalarText? value = some (.ok text)) :
    ReadsBack text.toList (asRead layout value) := by
  unfold scalarText? at h
  split at h
  · cases h
    exact readsBack_scalar ⟨'n', _, rfl, by decide⟩ fun _ _ => rfl
  · rename_i b
    cases h
    cases b with
    | false => exact readsBack_scalar ⟨'f', _, rfl, by decide⟩ fun _ _ => rfl
    | true => exact readsBack_scalar ⟨'t', _, rfl, by decide⟩ fun _ _ => rfl
  · exact readsBack_whole (Option.some.inj h)
  · cases h
    exact readsBack_real _
  · cases h
    exact readsBack_text _
  · cases h

theorem forall₂_of_mapM {α β : Type} {f : α → Except Failure β} {xs : List α} {ys : List β}
    (h : xs.mapM f = .ok ys) : List.Forall₂ (fun x y => f x = .ok y) xs ys := by
  induction xs generalizing ys with
  | nil =>
    cases h
    exact .nil
  | cons x rest ih =>
    rw [List.mapM_cons] at h
    rcases ok_bind_iff.mp h with ⟨y, hy, h⟩
    rcases ok_bind_iff.mp h with ⟨more, hmore, h⟩
    cases h
    exact .cons hy (ih hmore)

theorem mapM_map_of_comm {α β : Type} {g : α → Option β} {m : α → α} {k : β → β}
    (h : ∀ x, g (m x) = (g x).map k) (xs : List α) :
    (xs.map m).mapM g = (xs.mapM g).map (List.map k) := by
  induction xs with
  | nil => rfl
  | cons x rest ih =>
    rw [List.map_cons, List.mapM_cons, List.mapM_cons, ih, h]
    cases g x with
    | none => rfl
    | some y => cases rest.mapM g <;> rfl

/-- Putting entries in order looks at their keys alone. -/
theorem orderedEntries_map (layout : Layout) (f : Value → Value)
    (entries : List (Value × Value)) :
    orderedEntries layout (entries.map fun entry => (entry.1, f entry.2)) =
      (orderedEntries layout entries).map (List.map fun entry => (entry.1, f entry.2)) := by
  unfold orderedEntries
  by_cases hsorts : layout.sortsKeys = true
  · simp only [hsorts, Bool.not_true, Bool.false_eq_true, if_false]
    rw [mapM_map_of_comm (k := fun named => (named.1, named.2.1, f named.2.2)) (by
      rintro ⟨key, value⟩
      cases key <;> rfl)]
    generalize (entries.mapM _ : Option (List (String × Value × Value))) = keyed
    cases keyed with
    | none =>
      simp only [Option.map_none, List.length_map]
      split_ifs <;> rfl
    | some named =>
      simp only [Option.map_some, Except.map]
      rw [← List.map_mergeSort (r := fun a b => decide (a.1 ≤ b.1)) fun _ _ _ _ => rfl,
        List.map_map, List.map_map]
      rfl
  · rw [Bool.eq_false_iff.mpr hsorts]
    rfl

/-- A table as it is read back, when its entries have an order. -/
theorem asRead_table {layout : Layout} {entries ordered : List (Value × Value)}
    (h : orderedEntries layout entries = .ok ordered) :
    asRead layout (.table entries) = .table (insertAll
      (ordered.map fun entry => (keyAsRead entry.1, asRead layout entry.2)) []) := by
  rw [asRead, entriesAsRead_eq, orderedEntries_map, h]
  simp only [Except.map, Except.toOption, Option.getD_some, List.map_map]
  rfl

/-- Whatever is written is read back. -/
theorem readsBack_of_writeWithin (layout : Layout) {fuel depth : ℕ} {value : Value} {text : String}
    (h : writeWithin layout fuel depth value = .ok text) :
    ReadsBack text.toList (asRead layout value) := by
  induction fuel generalizing depth value text with
  | zero => cases h
  | succ fuel ih =>
    have hitems {values : List Value} {parts : List String}
        (hparts : values.mapM (writeWithin layout fuel (depth + 1)) = .ok parts) :
        ReadsBack (bracketed layout depth "[" "]" parts).toList
          (.items (allAsRead layout values)) := by
      refine readsBack_items layout depth ?_
      rw [allAsRead_eq, List.forall₂_map_left_iff, List.forall₂_map_right_iff]
      exact ((forall₂_of_mapM hparts).imp fun _ _ => ih).flip
    unfold writeWithin at h
    cases hscalar : scalarText? value with
    | some written =>
      rw [hscalar] at h
      exact readsBack_of_scalarText layout (hscalar.trans (congrArg some h))
    | none =>
      rw [hscalar] at h
      dsimp only at h
      split at h
      · rcases ok_bind_iff.mp h with ⟨parts, hparts, h⟩
        cases h
        exact hitems hparts
      · rcases ok_bind_iff.mp h with ⟨parts, hparts, h⟩
        cases h
        exact hitems hparts
      · rcases ok_bind_iff.mp h with ⟨ordered, hordered, h⟩
        rcases ok_bind_iff.mp h with ⟨parts, hparts, h⟩
        cases h
        -- The entries are read in the order in which they were written.
        rw [asRead_table hordered]
        refine readsBack_table layout depth ?_
        rw [List.forall₂_map_right_iff]
        refine ((forall₂_of_mapM hparts).imp fun entry part hpart => ?_).flip
        rcases ok_bind_iff.mp hpart with ⟨text, htext, hpart⟩
        rcases ok_bind_iff.mp hpart with ⟨key, hkey, hpart⟩
        cases hpart
        exact ⟨key, text, rfl, by rw [keyAsRead, hkey]; rfl, ih htext⟩
      · cases h

/-- What is written for a value is read back, also with blanks after it. -/
theorem read_of_write {layout : Layout} {value : Value} {text after : String}
    (h : write layout value = .ok text) (hafter : IsGap after.toList) :
    read? (text ++ after) = some (asRead layout value) :=
  (readsBack_of_writeWithin layout h).read_append hafter

/-! ### Tables with names -/

theorem insert_of_fresh {key : String} {taken : List (String × Value)}
    (h : key ∉ taken.map Prod.fst) (value : Value) :
    Value.insert (.text key) value (taken.map fun (name, value) => (.text name, value)) =
      (taken ++ [(key, value)]).map fun (name, value) => (.text name, value) := by
  induction taken with
  | nil => rfl
  | cons first rest ih =>
    rw [List.map_cons, List.mem_cons, not_or] at h
    rw [List.map_cons, Value.insert, Value.same_text, decide_eq_false (Ne.symm h.1),
      if_neg Bool.false_ne_true, ih h.2]
    rfl

/-- Entries of which each has a name of its own are all kept. -/
theorem insertAll_of_nodup {entries taken : List (String × Value)}
    (h : ((taken ++ entries).map Prod.fst).Nodup) :
    insertAll entries (taken.map fun (name, value) => (.text name, value)) =
      (taken ++ entries).map fun (name, value) => (.text name, value) := by
  induction entries generalizing taken with
  | nil => rw [List.append_nil]; rfl
  | cons entry rest ih =>
    have hassoc : taken ++ entry :: rest = taken ++ [entry] ++ rest := by simp
    have hfresh : entry.1 ∉ taken.map Prod.fst := by
      rw [List.map_append, List.map_cons] at h
      exact fun hmem => List.disjoint_of_nodup_append h hmem List.mem_cons_self
    -- The first entry goes behind those that have been taken.
    rw [hassoc] at h ⊢
    rw [← ih h]
    unfold insertAll
    rw [List.foldl_cons, insert_of_fresh hfresh]

/-- Where each name stands once, the order makes no difference to what is looked up. -/
theorem lookup_eq_of_perm {entries others : List (String × Value)} (h : entries.Perm others)
    (hnames : (entries.map Prod.fst).Nodup) (name : String) :
    entries.lookup name = others.lookup name := by
  induction h with
  | nil => rfl
  | cons entry _ ih =>
    rw [List.map_cons, List.nodup_cons] at hnames
    rw [List.lookup_cons, List.lookup_cons, ih hnames.2]
  | swap first second rest =>
    have hne : second.1 ≠ first.1 := by
      rw [List.map_cons, List.map_cons, List.nodup_cons, List.mem_cons, not_or] at hnames
      exact hnames.1.1
    rw [List.lookup_cons, List.lookup_cons, List.lookup_cons, List.lookup_cons]
    by_cases hname : name = second.1
    · rw [beq_iff_eq.mpr hname, beq_eq_false_iff_ne.mpr (hname ▸ hne)]
    · rw [beq_eq_false_iff_ne.mpr hname]
  | trans hfirst _ ihfirst ihsecond =>
    exact (ihfirst hnames).trans (ihsecond ((hfirst.map Prod.fst).nodup_iff.mp hnames))

theorem lookup_map_values (f : Value → Value) (entries : List (String × Value)) (name : String) :
    (entries.map fun entry => (entry.1, f entry.2)).lookup name =
      (entries.lookup name).map f := by
  induction entries with
  | nil => rfl
  | cons entry rest ih =>
    rw [List.map_cons, List.lookup_cons, List.lookup_cons, ih]
    cases name == entry.1 <;> rfl

/-- A table with names is read back as a table with the same names, and the values under them are
    read back. -/
theorem entry_asRead_named {layout : Layout} {entries : List (String × Value)}
    (hnames : (entries.map Prod.fst).Nodup)
    (hjoined : ∀ name ∈ entries.map Prod.fst, joinedText name = name) (name : String) :
    Value.entry? (asRead layout (.named entries)) name =
      (Value.entry? (.named entries) name).map (asRead layout) := by
  rcases exists_orderedEntries layout entries with ⟨ordered, hperm, hordered⟩
  have hkeys : (ordered.map fun (name, value) => (Value.text name, value)).map
      (fun entry => (keyAsRead entry.1, asRead layout entry.2)) =
        ordered.map fun entry => (entry.1, asRead layout entry.2) := by
    rw [List.map_map]
    refine List.map_congr_left fun entry hentry => ?_
    exact congrArg (·, asRead layout entry.2)
      (hjoined entry.1 (List.mem_map_of_mem (hperm.mem_iff.mp hentry)))
  have hnodup : ((ordered.map fun entry => (entry.1, asRead layout entry.2)).map
      Prod.fst).Nodup := by
    rw [List.map_map]
    exact (hperm.map Prod.fst).nodup_iff.mpr hnames
  calc Value.entry? (asRead layout (.named entries)) name
      = Value.entry? (.named (ordered.map fun entry => (entry.1, asRead layout entry.2))) name := by
        rw [Value.named, asRead_table hordered, hkeys]
        exact congrArg (fun entries => Value.entry? (.table entries) name)
          (@insertAll_of_nodup _ [] hnodup)
    _ = (ordered.lookup name).map (asRead layout) := by
        rw [Value.entry_named, lookup_map_values]
    _ = (Value.entry? (.named entries) name).map (asRead layout) := by
        rw [Value.entry_named, lookup_eq_of_perm hperm ((hperm.map Prod.fst).nodup_iff.mpr hnames)]

end Json

end Darkroom
