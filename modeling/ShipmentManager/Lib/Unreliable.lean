import ShipmentManager.Lib.Interleaving

/-!
# A link to the store that may fail

The commands of the tasks reach the store over a link that may lose a command, or the answer to one.  Who sent the
command then gets an answer of the link, and cannot know whether the command has been executed.

* `Unreliable exec lost`: the execution of commands over such a link;
* `Unreliable.rel`: what relates the stores before and after every executed command relates them over the link too, so
  the induction rules over a chain of events hold of the runs over the link as they hold of the others;
* `Unreliable.of_answered`: an answer that is none of the link's comes from the store.
-/

namespace Interleaving

variable {C : Type} {R : C → Type} {S : Type}

/-- A command sent over the link: it is executed and answered, or it is lost, or its answer is. -/
inductive Unreliable (exec : (c : C) → S → R c → S → Prop) (lost : (c : C) → R c → Prop) (c : C) (s : S) :
    R c → S → Prop where
  | answered (r : R c) (s' : S) (h : exec c s r s') : Unreliable exec lost c s r s'
  | unsent (r : R c) (hlost : lost c r) : Unreliable exec lost c s r s
  | unanswered (r r' : R c) (s' : S) (hlost : lost c r) (h : exec c s r' s') : Unreliable exec lost c s r s'

variable {exec exec' : (c : C) → S → R c → S → Prop} {lost : (c : C) → R c → Prop} {c : C} {s s' : S} {r : R c}

theorem Unreliable.mono (h : Unreliable exec lost c s r s') (hx : ∀ r s', exec c s r s' → exec' c s r s') :
    Unreliable exec' lost c s r s' := by
  cases h with
  | answered _ h => exact Unreliable.answered _ _ (hx _ _ h)
  | unsent hlost => exact Unreliable.unsent _ hlost
  | unanswered r' _ hlost h => exact Unreliable.unanswered _ r' _ hlost (hx _ _ h)

/-- The store changes as some execution of the command changes it, or not at all. -/
theorem Unreliable.rel (h : Unreliable exec lost c s r s') (rel : S → S → Prop) (hrefl : rel s s)
    (hx : ∀ r s', exec c s r s' → rel s s') : rel s s' := by
  cases h with
  | answered _ h => exact hx _ _ h
  | unsent => exact hrefl
  | unanswered r' _ _ h => exact hx r' _ h

theorem Unreliable.of_answered (h : Unreliable exec lost c s r s') (hr : ¬ lost c r) : exec c s r s' := by
  cases h with
  | answered _ h => exact h
  | unsent hlost => exact absurd hlost hr
  | unanswered _ _ hlost => exact absurd hlost hr

end Interleaving
