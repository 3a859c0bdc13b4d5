import Darkroom.Text.Blank
import Mathlib.Data.List.DropRight

/-!
# Layers at the Ends of a Text

What goes from the ends of a text when one kind of character is trimmed after the other.

Trimming takes off all characters of a kind that stand at either end, up to the first character of
another kind, which may be one that has already had its turn. Nothing takes that character off
afterwards. So what goes from the front are layers, one for each turn and the first of them
outermost, and what goes from the back are layers in the opposite order. A text comes out without
any of these kinds at its ends exactly when nothing but such layers stood around it.

## Main definitions

* `Layered`: Characters in layers, each of one kind.
* `IsTrimmed`: A text with no character of a kind at its ends.
* `trimInTurn`: A text trimmed of one kind of character after the other.

## Theorems

* `layered_cons_iff`, `layered_concat_iff`: The outer layer is what is dropped from that end.
* `trimEnds_around`: Trimming a text whose ends stay.
* `exists_layers`: What goes are layers.
* `trimInTurn_of_layers`: Layers go, and what they stand around stays.
* `trimInTurn_eq_self_iff`: The texts that stay as they are.
-/

namespace Darkroom

variable {kind : Char → Bool} {kinds more : List (Char → Bool)} {cs front core back : List Char}

/-- Characters in layers, each of one kind. A layer may be empty. -/
def Layered : List (Char → Bool) → List Char → Prop
  | [], cs => cs = []
  | kind :: kinds, cs =>
    ∃ layer rest, cs = layer ++ rest ∧ (∀ c ∈ layer, kind c = true) ∧ Layered kinds rest

/-- A text with no character of a kind at its ends. -/
def IsTrimmed (kind : Char → Bool) (cs : List Char) : Prop :=
  (∀ c ∈ cs.head?, kind c = false) ∧ ∀ c ∈ cs.getLast?, kind c = false

/-- A text trimmed of one kind of character after the other. -/
def trimInTurn (kinds : List (Char → Bool)) (cs : List Char) : List Char :=
  kinds.foldl (fun cs kind => trimEnds kind cs) cs

/-! Layers. -/

theorem layered_append :
    Layered (kinds ++ more) cs ↔ ∃ front back, cs = front ++ back ∧ Layered kinds front ∧
      Layered more back := by
  induction kinds generalizing cs with
  | nil =>
    constructor
    · intro h
      exact ⟨[], cs, rfl, rfl, h⟩
    · rintro ⟨_, back, rfl, rfl, h⟩
      exact h
  | cons kind kinds ih =>
    constructor
    · rintro ⟨layer, rest, rfl, hlayer, hrest⟩
      rcases ih.mp hrest with ⟨front, back, rfl, hfront, hback⟩
      exact ⟨layer ++ front, back, (List.append_assoc ..).symm, ⟨layer, front, rfl, hlayer, hfront⟩,
        hback⟩
    · rintro ⟨_, back, rfl, ⟨layer, front, rfl, hlayer, hfront⟩, hback⟩
      exact ⟨layer, front ++ back, List.append_assoc .., hlayer,
        ih.mpr ⟨front, back, rfl, hfront, hback⟩⟩

theorem layered_singleton : Layered [kind] cs ↔ ∀ c ∈ cs, kind c = true := by
  constructor
  · rintro ⟨layer, _, rfl, hlayer, rfl⟩
    rwa [List.append_nil]
  · intro h
    exact ⟨cs, [], (List.append_nil cs).symm, h, rfl⟩

/-- Seen from the other end, the layers come in the opposite order. -/
theorem Layered.reverse (h : Layered kinds cs) : Layered kinds.reverse cs.reverse := by
  induction kinds generalizing cs with
  | nil =>
    rw [show cs = [] from h]
    exact rfl
  | cons kind kinds ih =>
    rcases h with ⟨layer, rest, rfl, hlayer, hrest⟩
    rw [List.reverse_cons, List.reverse_append]
    refine layered_append.mpr ⟨rest.reverse, layer.reverse, rfl, ih hrest, ?_⟩
    exact layered_singleton.mpr fun c hc => hlayer c (List.mem_reverse.mp hc)

theorem layered_reverse_iff : Layered kinds.reverse cs.reverse ↔ Layered kinds cs := by
  refine ⟨fun h => ?_, Layered.reverse⟩
  have hback := h.reverse
  rwa [List.reverse_reverse, List.reverse_reverse] at hback

/-- Without some characters in front, the layers are still there, if some of them only in part. -/
theorem Layered.of_append (h : Layered kinds (front ++ back)) : Layered kinds back := by
  induction kinds generalizing front back with
  | nil => exact (List.append_eq_nil_iff.mp h).2
  | cons kind kinds ih =>
    rcases h with ⟨layer, rest, heq, hlayer, hrest⟩
    rcases List.append_eq_append_iff.mp heq with ⟨part, rfl, rfl⟩ | ⟨part, -, rfl⟩
    · -- The outer layer is cut.
      exact ⟨part, rest, rfl, fun c hc => hlayer c (List.mem_append_right _ hc), hrest⟩
    · exact ⟨[], back, rfl, List.forall_mem_nil _, ih hrest⟩

/-- The first layer is what is dropped from the front. -/
theorem layered_cons_iff : Layered (kind :: kinds) cs ↔ Layered kinds (cs.dropWhile kind) := by
  constructor
  · rintro ⟨layer, rest, rfl, hlayer, hrest⟩
    rw [List.dropWhile_append_of_pos hlayer]
    -- The next layer may begin with characters of the same kind, which are dropped as well.
    rw [← List.takeWhile_append_dropWhile (p := kind) (l := rest)] at hrest
    exact hrest.of_append
  · intro h
    exact ⟨cs.takeWhile kind, cs.dropWhile kind, List.takeWhile_append_dropWhile.symm,
      fun c hc => List.mem_takeWhile_imp hc, h⟩

/-- The last layer is what is dropped from the back. -/
theorem layered_concat_iff :
    Layered (kinds ++ [kind]) cs ↔ Layered kinds (cs.rdropWhile kind) := by
  rw [← layered_reverse_iff, List.reverse_append, List.reverse_singleton, List.singleton_append,
    layered_cons_iff, ← layered_reverse_iff, List.reverse_reverse]
  rfl

/-- What lies in layers is of one of their kinds. -/
theorem Layered.exists_kind (h : Layered kinds cs) :
    ∀ c ∈ cs, ∃ kind ∈ kinds, kind c = true := by
  induction kinds generalizing cs with
  | nil =>
    rw [show cs = [] from h]
    exact List.forall_mem_nil _
  | cons kind kinds ih =>
    rcases h with ⟨layer, rest, rfl, hlayer, hrest⟩
    intro c hc
    rcases List.mem_append.mp hc with hc | hc
    · exact ⟨kind, List.mem_cons_self, hlayer c hc⟩
    · rcases ih hrest c hc with ⟨other, hother, hkind⟩
      exact ⟨other, List.mem_cons_of_mem _ hother, hkind⟩

/-! Trimming once. -/

theorem trimEnds_eq (kind : Char → Bool) (cs : List Char) :
    trimEnds kind cs = (cs.dropWhile kind).rdropWhile kind := rfl

theorem isTrimmed_nil (kind : Char → Bool) : IsTrimmed kind [] := ⟨nofun, nofun⟩

/-- What is trimmed goes from the ends only. -/
theorem exists_trimEnds_append (kind : Char → Bool) (cs : List Char) :
    ∃ front back, cs = front ++ trimEnds kind cs ++ back ∧ (∀ c ∈ front, kind c = true) ∧
      ∀ c ∈ back, kind c = true := by
  refine ⟨cs.takeWhile kind, (cs.dropWhile kind).rtakeWhile kind, ?_,
    fun c hc => List.mem_takeWhile_imp hc, fun c hc => List.mem_rtakeWhile_imp hc⟩
  rw [trimEnds_eq, List.append_assoc, List.rdropWhile_append_rtakeWhile,
    List.takeWhile_append_dropWhile]

/-- Nothing is dropped from a text that begins with another kind of character, and what is dropped
    from before it is dropped without it. -/
theorem dropWhile_append_of_head (h : ∀ c ∈ core.head?, kind c = false) (hcore : core ≠ []) :
    (front ++ core).dropWhile kind = front.dropWhile kind ++ core := by
  cases core with
  | nil => exact absurd rfl hcore
  | cons c rest =>
    have hc : ¬kind c = true := by
      rw [h c rfl]
      exact Bool.false_ne_true
    rw [List.dropWhile_append, List.dropWhile_cons_of_neg hc]
    split
    · next hempty => rw [List.isEmpty_iff.mp hempty, List.nil_append]
    · rfl

theorem rdropWhile_append_of_last (h : ∀ c ∈ core.getLast?, kind c = false) (hcore : core ≠ []) :
    (core ++ back).rdropWhile kind = core ++ back.rdropWhile kind := by
  unfold List.rdropWhile
  rw [List.reverse_append, dropWhile_append_of_head (by rwa [List.head?_reverse]) (by simpa),
    List.reverse_append, List.reverse_reverse]

/-- Trimming works on what stands around a text whose ends are of other kinds. -/
theorem trimEnds_around (h : IsTrimmed kind core) (hcore : core ≠ []) :
    trimEnds kind (front ++ core ++ back) =
      front.dropWhile kind ++ core ++ back.rdropWhile kind := by
  have hhead : ∀ c ∈ (core ++ back).head?, kind c = false := by
    rw [List.head?_append_of_ne_nil _ hcore]
    exact h.1
  rw [trimEnds_eq, List.append_assoc, dropWhile_append_of_head hhead (by simp [hcore]),
    ← List.append_assoc]
  refine rdropWhile_append_of_last ?_ (by simp [hcore])
  rw [List.getLast?_append_of_ne_nil _ hcore]
  exact h.2

theorem trimEnds_of_isTrimmed (h : IsTrimmed kind cs) : trimEnds kind cs = cs := by
  by_cases hcs : cs = []
  · rw [hcs]
    rfl
  · have haround : trimEnds kind ([] ++ cs ++ []) = _ := trimEnds_around h hcs
    simpa using haround

theorem head_dropWhile (kind : Char → Bool) (cs : List Char) :
    ∀ c ∈ (cs.dropWhile kind).head?, kind c = false := by
  intro c hc
  have hnot := List.head?_dropWhile_not kind cs
  rwa [Option.mem_def.mp hc] at hnot

theorem isTrimmed_trimEnds (kind : Char → Bool) (cs : List Char) :
    IsTrimmed kind (trimEnds kind cs) := by
  rw [trimEnds_eq]
  constructor
  · -- What is dropped from the back afterwards leaves the first character, if there is any left.
    intro c hc
    rcases List.rdropWhile_prefix kind (cs.dropWhile kind) with ⟨dropped, hdropped⟩
    refine head_dropWhile kind cs c ?_
    rw [← hdropped]
    exact List.mem_head?_append_of_mem_head? hc
  · intro c hc
    unfold List.rdropWhile at hc
    rw [List.getLast?_reverse] at hc
    exact head_dropWhile kind _ c hc

/-! Trimming in turn. -/

/-- What goes are layers: from the front in the order of the turns, and from the back in the
    opposite order. -/
theorem exists_layers (kinds : List (Char → Bool)) (cs : List Char) :
    ∃ front back, cs = front ++ trimInTurn kinds cs ++ back ∧ Layered kinds front ∧
      Layered kinds.reverse back := by
  induction kinds generalizing cs with
  | nil => exact ⟨[], [], by simp [trimInTurn], rfl, rfl⟩
  | cons kind kinds ih =>
    rcases exists_trimEnds_append kind cs with ⟨outer, outer', hcs, houter, houter'⟩
    rcases ih (trimEnds kind cs) with ⟨inner, inner', htrim, hinner, hinner'⟩
    refine ⟨outer ++ inner, inner' ++ outer', ?_, ⟨outer, inner, rfl, houter, hinner⟩, ?_⟩
    · show cs = outer ++ inner ++ trimInTurn kinds (trimEnds kind cs) ++ (inner' ++ outer')
      conv_lhs => rw [hcs, htrim]
      simp only [List.append_assoc]
    · rw [List.reverse_cons]
      exact layered_append.mpr ⟨inner', outer', rfl, hinner', layered_singleton.mpr houter'⟩

/-- Layers on both sides of nothing go. -/
theorem trimInTurn_eq_nil (h : Layered (kinds ++ kinds.reverse) cs) : trimInTurn kinds cs = [] := by
  induction kinds generalizing cs with
  | nil => exact h
  | cons kind kinds ih =>
    show trimInTurn kinds (trimEnds kind cs) = []
    refine ih ?_
    rw [List.reverse_cons, List.cons_append, layered_cons_iff, ← List.append_assoc,
      layered_concat_iff] at h
    exact h

/-- Layers on both sides of a text go, and the text stays if no kind stands at its ends. -/
theorem trimInTurn_of_layers (hfront : Layered kinds front) (hback : Layered kinds.reverse back)
    (hcore : ∀ kind ∈ kinds, IsTrimmed kind core) :
    trimInTurn kinds (front ++ core ++ back) = core := by
  by_cases hnil : core = []
  · -- Without a text in between, the layers of both sides lie side by side.
    rw [hnil, List.append_nil]
    exact trimInTurn_eq_nil (layered_append.mpr ⟨front, back, rfl, hfront, hback⟩)
  · induction kinds generalizing front back with
    | nil =>
      rw [show front = [] from hfront, show back = [] from hback, List.nil_append, List.append_nil]
      rfl
    | cons kind kinds ih =>
      rw [List.reverse_cons, layered_concat_iff] at hback
      show trimInTurn kinds (trimEnds kind (front ++ core ++ back)) = core
      rw [trimEnds_around (hcore kind List.mem_cons_self) hnil]
      exact ih (layered_cons_iff.mp hfront) hback fun other h =>
        hcore other (List.mem_cons_of_mem _ h)

/-- A text stays as it is exactly when no kind stands at its ends. -/
theorem trimInTurn_eq_self_iff :
    trimInTurn kinds cs = cs ↔ ∀ kind ∈ kinds, IsTrimmed kind cs := by
  constructor
  · intro h
    induction kinds with
    | nil => exact List.forall_mem_nil _
    | cons kind kinds ih =>
      -- The first turn leaves a part of the text in which the whole text is found again.
      have hfirst : trimEnds kind cs <:+: cs := by
        rcases exists_trimEnds_append kind cs with ⟨outer, outer', hcs, -⟩
        exact ⟨outer, outer', hcs.symm⟩
      have hrest : cs <:+: trimEnds kind cs := by
        rcases exists_layers kinds (trimEnds kind cs) with ⟨inner, inner', htrim, -⟩
        have hall : trimInTurn kinds (trimEnds kind cs) = cs := h
        rw [hall] at htrim
        exact ⟨inner, inner', htrim.symm⟩
      have heq : trimEnds kind cs = cs := hfirst.sublist.antisymm hrest.sublist
      refine List.forall_mem_cons.mpr ⟨?_, ih ?_⟩
      · rw [← heq]
        exact isTrimmed_trimEnds kind cs
      · have hall : trimInTurn kinds (trimEnds kind cs) = cs := h
        rwa [heq] at hall
  · intro h
    induction kinds with
    | nil => rfl
    | cons kind kinds ih =>
      rcases List.forall_mem_cons.mp h with ⟨hkind, hkinds⟩
      show trimInTurn kinds (trimEnds kind cs) = cs
      rw [trimEnds_of_isTrimmed hkind]
      exact ih hkinds

end Darkroom
