import Mathlib.Logic.Relation

/-!
# Programs over atomic commands

A program is a finite tree of commands to a shared store: it is finished, or it issues one command and goes on with the
answer, or it issues two commands at once and goes on when both are answered (`both`).  What a command does to the store
is not part of a program.

* `Next p c r p'`: the program `p` has the command `c` open, and the answer `r` turns it into `p'`; of two commands
  issued at once either may be answered first;
* `Runs p es p'`: the events `es`, in this order, take `p` to `p'`.
-/

/-- Programs over the commands `C`, where a command `c` is answered by an `R c`. -/
inductive Prog (C : Type) (R : C → Type) (α : Type) where
  | done (a : α)
  | call (c : C) (k : R c → Prog C R α)
  | both (c₁ c₂ : C) (k : R c₁ → R c₂ → Prog C R α)

namespace Prog

variable {C : Type} {R : C → Type} {α β : Type}

def bind : Prog C R α → (α → Prog C R β) → Prog C R β
  | done a, f => f a
  | call c k, f => call c fun r => (k r).bind f
  | both c₁ c₂ k, f => both c₁ c₂ fun r₁ r₂ => (k r₁ r₂).bind f

instance : Monad (Prog C R) where
  pure := done
  bind := bind

/-- The answer `r` to the open command `c` turns one program into another. -/
inductive Next : Prog C R α → (c : C) → R c → Prog C R α → Prop where
  | call (c : C) (k : R c → Prog C R α) (r : R c) : Next (call c k) c r (k r)
  | left (c₁ c₂ : C) (k : R c₁ → R c₂ → Prog C R α) (r : R c₁) :
      Next (both c₁ c₂ k) c₁ r (call c₂ fun r₂ => k r r₂)
  | right (c₁ c₂ : C) (k : R c₁ → R c₂ → Prog C R α) (r : R c₂) :
      Next (both c₁ c₂ k) c₂ r (call c₁ fun r₁ => k r₁ r)

end Prog

/-- An atomic step of a store: a command, its answer, and the store before and after. -/
structure Event (C : Type) (R : C → Type) (S : Type) where
  cmd : C
  answer : R cmd
  before : S
  after : S

namespace Prog

variable {C : Type} {R : C → Type} {S α : Type}

/-- The events `es` take one program to another. -/
inductive Runs : Prog C R α → List (Event C R S) → Prog C R α → Prop where
  | nil (p : Prog C R α) : Runs p [] p
  | cons {p p' p'' : Prog C R α} {e : Event C R S} {es : List (Event C R S)} :
      Next p e.cmd e.answer p' → Runs p' es p'' → Runs p (e :: es) p''

theorem Runs.snoc {p p' p'' : Prog C R α} {es : List (Event C R S)} {e : Event C R S} (h : Runs p es p')
    (hn : Next p' e.cmd e.answer p'') : Runs p (es ++ [e]) p'' := by
  induction h with
  | nil p => exact Runs.cons hn (Runs.nil _)
  | cons h₁ _ ih => exact Runs.cons h₁ (ih hn)

/-- A finished program issues no command. -/
theorem runs_done {a : α} {es : List (Event C R S)} {p : Prog C R α} (h : Runs (done a) es p) :
    es = [] ∧ p = done a := by
  cases h with
  | nil => exact ⟨rfl, rfl⟩
  | cons hn _ => cases hn

/-- A program that issues one command has not been answered yet, or goes on with the answer. -/
theorem runs_call {c : C} {k : R c → Prog C R α} {es : List (Event C R S)} {p : Prog C R α}
    (h : Runs (call c k) es p) :
    (es = [] ∧ p = call c k) ∨ ∃ (r : R c) (s s' : S) (rest : List (Event C R S)),
      es = ⟨c, r, s, s'⟩ :: rest ∧ Runs (k r) rest p := by
  cases h with
  | nil => exact Or.inl ⟨rfl, rfl⟩
  | @cons _ _ _ e es hn hr =>
    obtain ⟨c', r, s, s'⟩ := e
    cases hn with
    | call => exact Or.inr ⟨r, s, s', es, rfl, hr⟩

/-- A program that issues one command and ends with the answer. -/
theorem runs_call_done {c : C} {f : R c → α} {es : List (Event C R S)} {p : Prog C R α}
    (h : Runs (call c fun r => done (f r)) es p) :
    (es = [] ∧ p = call c fun r => done (f r)) ∨ ∃ (r : R c) (s s' : S), es = [⟨c, r, s, s'⟩] ∧ p = done (f r) := by
  rcases runs_call h with h | ⟨r, s, s', rest, rfl, hr⟩
  · exact Or.inl h
  · obtain ⟨rfl, rfl⟩ := runs_done hr
    exact Or.inr ⟨r, s, s', rfl, rfl⟩

/-- A program that issues two commands at once goes on with the two answers, which arrive in either order. -/
theorem runs_both {c₁ c₂ : C} {k : R c₁ → R c₂ → Prog C R α} {es : List (Event C R S)} {a : α}
    (h : Runs (both c₁ c₂ k) es (done a)) :
    ∃ (r₁ : R c₁) (r₂ : R c₂) (s₁ s₁' s₂ s₂' : S) (rest : List (Event C R S)),
      (es = ⟨c₁, r₁, s₁, s₁'⟩ :: ⟨c₂, r₂, s₂, s₂'⟩ :: rest ∨ es = ⟨c₂, r₂, s₂, s₂'⟩ :: ⟨c₁, r₁, s₁, s₁'⟩ :: rest) ∧
        Runs (k r₁ r₂) rest (done a) := by
  cases h with
  | @cons _ _ _ e es hn hr =>
    obtain ⟨c', r, s, s'⟩ := e
    cases hn with
    | left =>
      rcases runs_call hr with ⟨-, hp⟩ | ⟨r₂, s₂, s₂', rest, rfl, hrest⟩
      · cases hp
      · exact ⟨r, r₂, s, s', s₂, s₂', rest, Or.inl rfl, hrest⟩
    | right =>
      rcases runs_call hr with ⟨-, hp⟩ | ⟨r₁, s₁, s₁', rest, rfl, hrest⟩
      · cases hp
      · exact ⟨r₁, r, s₁, s₁', s, s', rest, Or.inr rfl, hrest⟩

/-- The two events of such a program are both among its events. -/
theorem mem_of_both {es rest : List (Event C R S)} {e₁ e₂ : Event C R S}
    (h : es = e₁ :: e₂ :: rest ∨ es = e₂ :: e₁ :: rest) : e₁ ∈ es ∧ e₂ ∈ es := by
  rcases h with rfl | rfl
  · exact ⟨List.mem_cons_self .., List.mem_cons_of_mem _ (List.mem_cons_self ..)⟩
  · exact ⟨List.mem_cons_of_mem _ (List.mem_cons_self ..), List.mem_cons_self ..⟩

/-- Every command a program can issue satisfies `q`. -/
def Only (q : C → Prop) : Prog C R α → Prop
  | done _ => True
  | call c k => q c ∧ ∀ r, Only q (k r)
  | both c₁ c₂ k => q c₁ ∧ q c₂ ∧ ∀ r₁ r₂, Only q (k r₁ r₂)

theorem Only.next {q : C → Prop} {p p' : Prog C R α} {c : C} {r : R c} (h : Only q p) (hn : Next p c r p') :
    q c ∧ Only q p' := by
  cases hn with
  | call c k r => exact ⟨h.1, h.2 r⟩
  | left c₁ c₂ k r => exact ⟨h.1, h.2.1, fun r₂ => h.2.2 r r₂⟩
  | right c₁ c₂ k r => exact ⟨h.2.1, h.1, fun r₁ => h.2.2 r₁ r⟩

theorem Only.runs {q : C → Prop} {p p' : Prog C R α} {es : List (Event C R S)} (h : Only q p) (hr : Runs p es p') :
    ∀ e ∈ es, q e.cmd := by
  induction hr with
  | nil p => simp
  | cons hn _ ih =>
    intro e he
    rcases List.mem_cons.1 he with rfl | he
    · exact (h.next hn).1
    · exact ih (h.next hn).2 e he

end Prog
