import ShipmentManager.Lib.Prog

/-!
# Interleaved tasks over one store

Any number of tasks, each running its own program, share one store; the commands are atomic, and the commands of
different tasks interleave in any order.  A world keeps the log of all events so far, so that a property of a run is a
property of a reachable world.

* `Chained s es s'`: the events `es` lead from the store `s` to `s'`, each starting where the one before it ended;
  `Chained.invariant` and `Chained.rel` are the induction rules over a run, for a property of the store and for a
  reflexive and transitive relation between an earlier and a later store, `Chained.natAbs_sub_le` bounds how far a
  number can move between two stores, `Chained.countP_le` bounds how many events can raise a number, and
  `Chained.last_write` and `Chained.last_change` say what a value is that events overwrite;
* `Serves p s a s'`: the program `p`, alone on the store `s`, ends with the result `a` and the store `s'`;
* `Reachable.sound`: in a reachable world the log is a chain of executed events, and the events of a task take its
  program from its start to where it is.
-/

namespace Interleaving

section Chain

variable {C : Type} {R : C → Type} {S α : Type}

/-- The events lead from one store to another, each starting where the one before it ended. -/
inductive Chained : S → List (Event C R S) → S → Prop where
  | nil (s : S) : Chained s [] s
  | cons {s : S} {e : Event C R S} {es : List (Event C R S)} :
      Chained e.after es s → Chained e.before (e :: es) s

theorem Chained.snoc {s s' : S} {es : List (Event C R S)} {e : Event C R S} (h : Chained s es s')
    (he : e.before = s') : Chained s (es ++ [e]) e.after := by
  induction h with
  | nil s =>
    subst he
    exact Chained.cons (Chained.nil _)
  | cons _ ih => exact Chained.cons (ih he)

/-- The store after the first `n` events. -/
def stateAt : S → List (Event C R S) → Nat → S
  | s, [], _ => s
  | s, _ :: _, 0 => s
  | _, e :: es, n + 1 => stateAt e.after es n

@[simp] theorem stateAt_zero (s : S) (es : List (Event C R S)) : stateAt s es 0 = s := by
  cases es <;> rfl

theorem Chained.stateAt_getElem {s s' : S} {es : List (Event C R S)} (h : Chained s es s') {n : Nat}
    {e : Event C R S} (hn : es[n]? = some e) : stateAt s es n = e.before ∧ stateAt s es (n + 1) = e.after := by
  induction h generalizing n with
  | nil s => simp at hn
  | @cons s e' es _ ih =>
    cases n with
    | zero =>
      simp only [List.getElem?_cons_zero, Option.some.injEq] at hn
      subst hn
      exact ⟨rfl, stateAt_zero _ _⟩
    | succ n =>
      rw [List.getElem?_cons_succ] at hn
      exact ih hn

private theorem Chained.rel_head {s s' : S} {es : List (Event C R S)} (h : Chained s es s') (rel : S → S → Prop)
    (hrefl : ∀ s, rel s s) (htrans : ∀ a b c, rel a b → rel b c → rel a c)
    (hrel : ∀ e ∈ es, rel e.before e.after) (n : Nat) : rel s (stateAt s es n) := by
  induction h generalizing n with
  | nil s => exact hrefl s
  | @cons s e es _ ih =>
    cases n with
    | zero => exact hrefl _
    | succ n =>
      exact htrans _ _ _ (hrel e (List.mem_cons_self ..))
        (ih (fun e' he' => hrel e' (List.mem_cons_of_mem _ he')) n)

/-- What relates the stores before and after every event relates any earlier store of the chain to any later one. -/
theorem Chained.rel {s s' : S} {es : List (Event C R S)} (h : Chained s es s') (rel : S → S → Prop)
    (hrefl : ∀ s, rel s s) (htrans : ∀ a b c, rel a b → rel b c → rel a c)
    (hrel : ∀ e ∈ es, rel e.before e.after) {m n : Nat} (hmn : m ≤ n) : rel (stateAt s es m) (stateAt s es n) := by
  induction h generalizing m n with
  | nil s => exact hrefl s
  | @cons s e es htail ih =>
    have hrel' : ∀ e' ∈ es, rel e'.before e'.after := fun e' he' => hrel e' (List.mem_cons_of_mem _ he')
    cases m with
    | zero =>
      rw [stateAt_zero]
      exact (Chained.cons htail).rel_head rel hrefl htrans hrel n
    | succ m =>
      cases n with
      | zero => omega
      | succ n => exact ih hrel' (by omega)

theorem stateAt_of_length_le (s : S) {es : List (Event C R S)} {n : Nat} (h : es.length ≤ n) :
    stateAt s es (n + 1) = stateAt s es n := by
  induction es generalizing s n with
  | nil => cases n <;> rfl
  | cons e es ih =>
    cases n with
    | zero => simp at h
    | succ n => exact ih e.after (by simpa using h)

theorem Chained.stateAt_end {s s' : S} {es : List (Event C R S)} (h : Chained s es s') {n : Nat}
    (hn : es.length ≤ n) : stateAt s es n = s' := by
  induction h generalizing n with
  | nil s => rfl
  | cons _ ih =>
    cases n with
    | zero => simp at hn
    | succ n => exact ih (by simpa using hn)

/-- What holds at first and not later is ended by one of the events in between. -/
theorem Chained.exists_change {s s' : S} {es : List (Event C R S)} (h : Chained s es s') (q : S → Prop) {n : Nat}
    (hs : q s) (hn : ¬ q (stateAt s es n)) :
    ∃ k e, k < n ∧ es[k]? = some e ∧ q e.before ∧ ¬ q e.after := by
  induction n with
  | zero =>
    rw [stateAt_zero] at hn
    exact absurd hs hn
  | succ n ih =>
    -- either the event `n` ends it, or an earlier one has
    by_cases hq : q (stateAt s es n)
    · have hlt : n < es.length := by
        refine Nat.lt_of_not_le fun hle => ?_
        rw [stateAt_of_length_le s hle] at hn
        exact hn hq
      have hget := List.getElem?_eq_getElem hlt
      obtain ⟨h₁, h₂⟩ := h.stateAt_getElem hget
      exact ⟨n, es[n], by omega, hget, h₁ ▸ hq, h₂ ▸ hn⟩
    · obtain ⟨k, e, hk, rest⟩ := ih hq
      exact ⟨k, e, by omega, rest⟩

/-- What every event preserves holds along the whole chain. -/
theorem Chained.invariant {s s' : S} {es : List (Event C R S)} (h : Chained s es s') (I : S → Prop)
    (hI : ∀ e ∈ es, I e.before → I e.after) (hs : I s) (n : Nat) : I (stateAt s es n) := by
  have hrel := h.rel (fun a b => I a → I b) (fun _ ha => ha) (fun _ _ _ hab hbc ha => hbc (hab ha)) hI (Nat.zero_le n)
  rw [stateAt_zero] at hrel
  exact hrel hs

/-- Where every event either leaves a value as it is or writes it, the value at the end is the one written last. -/
theorem Chained.last_write {V : Type} {s s' : S} {es : List (Event C R S)} (h : Chained s es s') (value : S → Option V)
    (written : Event C R S → Option V)
    (hstep : ∀ e ∈ es, value e.after = (written e).or (value e.before)) :
    value s' = (es.filterMap written).getLast?.or (value s) := by
  induction h with
  | nil s => rfl
  | @cons s e es _ ih =>
    rw [ih fun e' he' => hstep e' (List.mem_cons_of_mem _ he'), hstep e (List.mem_cons_self ..)]
    cases hw : written e with
    | none => simp only [List.filterMap_cons, hw, Option.none_or]
    | some v =>
      simp only [List.filterMap_cons, hw, List.getLast?_cons, Option.some_or]
      cases (es.filterMap written).getLast? <;> rfl

/-- Where no event lowers a number, and those that satisfy `p` raise it, there are at most as many of these as the
number has risen. -/
theorem Chained.countP_le {s s' : S} {es : List (Event C R S)} (h : Chained s es s') (f : S → Nat)
    (p : Event C R S → Bool) (hf : ∀ e ∈ es, f e.before + (if p e then 1 else 0) ≤ f e.after) :
    f s + es.countP p ≤ f s' := by
  induction h with
  | nil s => exact Nat.le_refl _
  | @cons s e es _ ih =>
    have hfirst := hf e (List.mem_cons_self ..)
    have hrest := ih fun e' he' => hf e' (List.mem_cons_of_mem _ he')
    rw [List.countP_cons]
    omega

/-- The elements before a position are those before an earlier one, and those in between. -/
theorem countP_take {α : Type} (p : α → Bool) (l : List α) {m n : Nat} (h : m ≤ n) :
    (l.take n).countP p = (l.take m).countP p + ((l.take n).drop m).countP p := by
  have htake : (l.take n).take m = l.take m := by rw [List.take_take, Nat.min_eq_left h]
  rw [← htake, ← List.countP_append, List.take_append_drop]

/-- Where each event that satisfies `p` moves the state by a distance of at most one, and no other event moves it, the
states of two moments are at most as far from each other as there are such events in between. -/
theorem Chained.dist_le {s s' : S} {es : List (Event C R S)} (h : Chained s es s') (d : S → S → Nat)
    (hself : ∀ s, d s s = 0) (htriangle : ∀ s₁ s₂ s₃, d s₁ s₃ ≤ d s₁ s₂ + d s₂ s₃) (p : Event C R S → Bool)
    (hd : ∀ e ∈ es, d e.before e.after ≤ if p e then 1 else 0) {m n : Nat} (hmn : m ≤ n) :
    d (stateAt s es m) (stateAt s es n) + (es.take m).countP p ≤ (es.take n).countP p := by
  induction hmn with
  | refl =>
    rw [hself]
    omega
  | @step n hmn ih =>
    by_cases hn : n < es.length
    · obtain ⟨hb, ha⟩ := h.stateAt_getElem (List.getElem?_eq_getElem hn)
      have hstep := hd es[n] (List.getElem_mem hn)
      have hsum := htriangle (stateAt s es m) (stateAt s es n) (stateAt s es (n + 1))
      rw [List.take_succ_eq_append_getElem hn, List.countP_append, List.countP_singleton]
      rw [ha, hb] at hsum
      rw [ha]
      rw [hb] at ih
      omega
    · have hlen : es.length ≤ n := Nat.le_of_not_lt hn
      rw [stateAt_of_length_le s hlen, List.take_of_length_le (Nat.le_succ_of_le hlen)]
      rwa [List.take_of_length_le hlen] at ih

/-- Where only the events that satisfy `p` move a number, and by at most one, a stretch of the chain moves it by at most
the number of these events. -/
theorem Chained.natAbs_sub_le {s s' : S} {es : List (Event C R S)} (h : Chained s es s') (f : S → Int)
    (p : Event C R S → Bool) (hf : ∀ e ∈ es, (f e.after - f e.before).natAbs ≤ if p e then 1 else 0) {m n : Nat}
    (hmn : m ≤ n) : (f (stateAt s es n) - f (stateAt s es m)).natAbs ≤ ((es.take n).drop m).countP p := by
  have hdist := h.dist_le (fun s s' => (f s' - f s).natAbs) (fun s => by rw [Int.sub_self]; rfl)
    (fun s₁ s₂ s₃ => by omega) p hf hmn
  rw [countP_take p es hmn] at hdist
  omega

/-- Where only the events that satisfy `p` change a value, it is at any moment as the last of them left it, or as it was
at first. -/
theorem Chained.last_change {V : Type} {s s' : S} {es : List (Event C R S)} (h : Chained s es s') (value : S → V)
    (p : Event C R S → Prop) (hp : ∀ e ∈ es, ¬ p e → value e.after = value e.before) (n : Nat) :
    (value (stateAt s es n) = value s ∧ ∀ k e, k < n → es[k]? = some e → ¬ p e) ∨
      ∃ m e, m < n ∧ es[m]? = some e ∧ p e ∧ value (stateAt s es n) = value e.after ∧
        ∀ k e', m < k → k < n → es[k]? = some e' → ¬ p e' := by
  induction n with
  | zero =>
    rw [stateAt_zero]
    exact Or.inl ⟨rfl, by omega⟩
  | succ n ih =>
    by_cases hn : n < es.length
    · have hget := List.getElem?_eq_getElem hn
      obtain ⟨hb, ha⟩ := h.stateAt_getElem hget
      by_cases hpn : p es[n]
      · exact Or.inr ⟨n, es[n], by omega, hget, hpn, congrArg value ha, by omega⟩
      have hsame : value (stateAt s es (n + 1)) = value (stateAt s es n) := by
        rw [ha, hb]
        exact hp _ (List.getElem_mem hn) hpn
      -- the event `n` changes nothing, so the last change is the one before it
      have hnot : ∀ e, es[n]? = some e → ¬ p e := by
        intro e he
        rw [hget] at he
        cases he
        exact hpn
      rcases ih with ⟨hv, hnone⟩ | ⟨m, e, hm, hem, hpe, hv, hnone⟩
      · refine Or.inl ⟨hsame.trans hv, fun k e hk he => ?_⟩
        rcases Nat.lt_succ_iff_lt_or_eq.1 hk with hk | rfl
        · exact hnone k e hk he
        · exact hnot e he
      · refine Or.inr ⟨m, e, by omega, hem, hpe, hsame.trans hv, fun k e' hmk hk he' => ?_⟩
        rcases Nat.lt_succ_iff_lt_or_eq.1 hk with hk | rfl
        · exact hnone k e' hmk hk he'
        · exact hnot e' he'
    · have hlen : es.length ≤ n := Nat.le_of_not_lt hn
      have hnone : ∀ k e, ¬ k < n → es[k]? = some e → False := by
        intro k e hk he
        have := (List.getElem?_eq_some_iff.1 he).1
        omega
      rw [stateAt_of_length_le s hlen]
      rcases ih with ⟨hv, hrest⟩ | ⟨m, e, hm, hem, hpe, hv, hrest⟩
      · refine Or.inl ⟨hv, fun k e' _ he' => ?_⟩
        by_cases hk : k < n
        · exact hrest k e' hk he'
        · exact (hnone k e' hk he').elim
      · refine Or.inr ⟨m, e, by omega, hem, hpe, hv, fun k e' hmk _ he' => ?_⟩
        by_cases hk : k < n
        · exact hrest k e' hmk hk he'
        · exact (hnone k e' hk he').elim

variable (exec : (c : C) → S → R c → S → Prop)

/-- The program, alone on the store, ends with a result and a store. -/
def Serves (p : Prog C R α) (s : S) (a : α) (s' : S) : Prop :=
  ∃ es : List (Event C R S), Prog.Runs p es (Prog.done a) ∧ Chained s es s' ∧
    ∀ e ∈ es, exec e.cmd e.before e.answer e.after

theorem serves_done {a b : α} {s s' : S} : Serves exec (Prog.done a) s b s' ↔ b = a ∧ s' = s := by
  constructor
  · rintro ⟨es, hr, hc, -⟩
    obtain ⟨rfl, hp⟩ := Prog.runs_done hr
    cases hp
    cases hc
    exact ⟨rfl, rfl⟩
  · rintro ⟨rfl, rfl⟩
    exact ⟨[], Prog.Runs.nil _, Chained.nil _, by simp⟩

theorem serves_call {c : C} {k : R c → Prog C R α} {s s' : S} {a : α} :
    Serves exec (Prog.call c k) s a s' ↔ ∃ r s₁, exec c s r s₁ ∧ Serves exec (k r) s₁ a s' := by
  constructor
  · rintro ⟨es, hr, hc, he⟩
    rcases Prog.runs_call hr with ⟨-, hp⟩ | ⟨r, s₁, s₂, rest, rfl, hrest⟩
    · cases hp
    · cases hc with
      | cons hc =>
        exact ⟨r, s₂, he _ (List.mem_cons_self ..), rest, hrest, hc, fun e h => he e (List.mem_cons_of_mem _ h)⟩
  · rintro ⟨r, s₁, hx, es, hr, hc, he⟩
    refine ⟨⟨c, r, s, s₁⟩ :: es, Prog.Runs.cons (Prog.Next.call c k r) hr, Chained.cons (e := ⟨c, r, s, s₁⟩) hc, ?_⟩
    intro e h
    rcases List.mem_cons.1 h with rfl | h
    · exact hx
    · exact he e h

/-- Two commands issued at once are executed one after the other, in either order. -/
theorem serves_both {c₁ c₂ : C} {k : R c₁ → R c₂ → Prog C R α} {s s' : S} {a : α} :
    Serves exec (Prog.both c₁ c₂ k) s a s' ↔
      (∃ r₁ s₁ r₂ s₂, exec c₁ s r₁ s₁ ∧ exec c₂ s₁ r₂ s₂ ∧ Serves exec (k r₁ r₂) s₂ a s') ∨
        ∃ r₂ s₂ r₁ s₁, exec c₂ s r₂ s₂ ∧ exec c₁ s₂ r₁ s₁ ∧ Serves exec (k r₁ r₂) s₁ a s' := by
  constructor
  · rintro ⟨es, hr, hc, he⟩
    obtain ⟨r₁, r₂, s₁, s₁', s₂, s₂', rest, hes | hes, hrest⟩ := Prog.runs_both hr
    · subst hes
      have h₁ := he _ (List.mem_cons_self ..)
      have h₂ := he _ (List.mem_cons_of_mem _ (List.mem_cons_self ..))
      cases hc with
      | cons hc =>
        cases hc with
        | cons hc =>
          exact Or.inl ⟨r₁, _, r₂, _, h₁, h₂, rest, hrest, hc,
            fun e h => he e (List.mem_cons_of_mem _ (List.mem_cons_of_mem _ h))⟩
    · subst hes
      have h₂ := he _ (List.mem_cons_self ..)
      have h₁ := he _ (List.mem_cons_of_mem _ (List.mem_cons_self ..))
      cases hc with
      | cons hc =>
        cases hc with
        | cons hc =>
          exact Or.inr ⟨r₂, _, r₁, _, h₂, h₁, rest, hrest, hc,
            fun e h => he e (List.mem_cons_of_mem _ (List.mem_cons_of_mem _ h))⟩
  · rintro (⟨r₁, s₁, r₂, s₂, h₁, h₂, es, hr, hc, he⟩ | ⟨r₂, s₂, r₁, s₁, h₂, h₁, es, hr, hc, he⟩)
    · refine ⟨⟨c₁, r₁, s, s₁⟩ :: ⟨c₂, r₂, s₁, s₂⟩ :: es,
        Prog.Runs.cons (Prog.Next.left c₁ c₂ k r₁) (Prog.Runs.cons (Prog.Next.call c₂ _ r₂) hr),
        Chained.cons (e := ⟨c₁, r₁, s, s₁⟩) (Chained.cons (e := ⟨c₂, r₂, s₁, s₂⟩) hc), ?_⟩
      intro e h
      simp only [List.mem_cons] at h
      rcases h with rfl | rfl | h
      · exact h₁
      · exact h₂
      · exact he e h
    · refine ⟨⟨c₂, r₂, s, s₂⟩ :: ⟨c₁, r₁, s₂, s₁⟩ :: es,
        Prog.Runs.cons (Prog.Next.right c₁ c₂ k r₂) (Prog.Runs.cons (Prog.Next.call c₁ _ r₁) hr),
        Chained.cons (e := ⟨c₂, r₂, s, s₂⟩) (Chained.cons (e := ⟨c₁, r₁, s₂, s₁⟩) hc), ?_⟩
      intro e h
      simp only [List.mem_cons] at h
      rcases h with rfl | rfl | h
      · exact h₂
      · exact h₁
      · exact he e h

/-- Two commands that leave the store as it is are executed on the same store, in whichever order they come. -/
theorem serves_both_reads {c₁ c₂ : C} {k : R c₁ → R c₂ → Prog C R α} {s s' : S} {a : α}
    (h₁ : ∀ s r s', exec c₁ s r s' → s' = s) (h₂ : ∀ s r s', exec c₂ s r s' → s' = s) :
    Serves exec (Prog.both c₁ c₂ k) s a s' ↔
      ∃ r₁ r₂, exec c₁ s r₁ s ∧ exec c₂ s r₂ s ∧ Serves exec (k r₁ r₂) s a s' := by
  rw [serves_both]
  constructor
  · rintro (⟨r₁, s₁, r₂, s₂, hx₁, hx₂, hs⟩ | ⟨r₂, s₂, r₁, s₁, hx₂, hx₁, hs⟩)
    · obtain rfl := h₁ _ _ _ hx₁
      obtain rfl := h₂ _ _ _ hx₂
      exact ⟨r₁, r₂, hx₁, hx₂, hs⟩
    · obtain rfl := h₂ _ _ _ hx₂
      obtain rfl := h₁ _ _ _ hx₁
      exact ⟨r₁, r₂, hx₁, hx₂, hs⟩
  · rintro ⟨r₁, r₂, hx₁, hx₂, hs⟩
    exact Or.inl ⟨r₁, s, r₂, s, hx₁, hx₂, hs⟩

/-- Where every command can be executed on every store, every program ends. -/
theorem exists_serves (h : ∀ c s, ∃ r s', exec c s r s') (p : Prog C R α) (s : S) : ∃ a s', Serves exec p s a s' := by
  induction p generalizing s with
  | done a => exact ⟨a, s, (serves_done exec).2 ⟨rfl, rfl⟩⟩
  | call c k ih =>
    obtain ⟨r, s₁, hx⟩ := h c s
    obtain ⟨a, s', hs⟩ := ih r s₁
    exact ⟨a, s', (serves_call exec).2 ⟨r, s₁, hx, hs⟩⟩
  | both c₁ c₂ k ih =>
    obtain ⟨r₁, s₁, h₁⟩ := h c₁ s
    obtain ⟨r₂, s₂, h₂⟩ := h c₂ s₁
    obtain ⟨a, s', hs⟩ := ih r₁ r₂ s₂
    exact ⟨a, s', (serves_both exec).2 (Or.inl ⟨r₁, s₁, r₂, s₂, h₁, h₂, hs⟩)⟩

end Chain

/-- A request being served: what it was started from, and the rest of its program. -/
structure Task (C : Type) (R : C → Type) (Q α : Type) where
  origin : Q
  prog : Prog C R α

/-- The store, all tasks ever started, and the events so far with the index of their task. -/
structure World (C : Type) (R : C → Type) (S Q α : Type) where
  store : S
  tasks : List (Task C R Q α)
  log : List (Nat × Event C R S)

section Worlds

variable {C : Type} {R : C → Type} {S Q α : Type}

def World.init (s : S) : World C R S Q α := ⟨s, [], []⟩

/-- The events of all tasks, in order. -/
def World.events (w : World C R S Q α) : List (Event C R S) := w.log.map Prod.snd

/-- The events of the task `i` in a log, in order. -/
def ownEvents (log : List (Nat × Event C R S)) (i : Nat) : List (Event C R S) :=
  (log.filter fun p => p.1 = i).map Prod.snd

def World.own (w : World C R S Q α) (i : Nat) : List (Event C R S) := ownEvents w.log i

private theorem ownEvents_eq_nil {log : List (Nat × Event C R S)} {i : Nat} (h : ∀ p ∈ log, p.1 < i) :
    ownEvents log i = [] := by
  have : log.filter (fun p => p.1 = i) = [] := by
    rw [List.filter_eq_nil_iff]
    intro p hp
    have := h p hp
    simp only [decide_eq_true_eq]
    omega
  rw [ownEvents, this]
  rfl

private theorem ownEvents_self (log : List (Nat × Event C R S)) (i : Nat) (e : Event C R S) :
    ownEvents (log ++ [(i, e)]) i = ownEvents log i ++ [e] := by
  simp [ownEvents, List.filter_append]

private theorem ownEvents_ne (log : List (Nat × Event C R S)) {i j : Nat} (h : i ≠ j) (e : Event C R S) :
    ownEvents (log ++ [(i, e)]) j = ownEvents log j := by
  simp [ownEvents, List.filter_append, h]

theorem World.mem_own {w : World C R S Q α} {i : Nat} {e : Event C R S} : e ∈ w.own i ↔ (i, e) ∈ w.log := by
  simp [own, ownEvents]

theorem World.mem_events {w : World C R S Q α} {i : Nat} {e : Event C R S} (h : (i, e) ∈ w.log) : e ∈ w.events :=
  List.mem_map.2 ⟨(i, e), h, rfl⟩

theorem World.events_getElem? {w : World C R S Q α} {n i : Nat} {e : Event C R S} (h : w.log[n]? = some (i, e)) :
    w.events[n]? = some e := by
  rw [events, List.getElem?_map, h]
  rfl

theorem World.log_getElem? {w : World C R S Q α} {n : Nat} {e : Event C R S} (h : w.events[n]? = some e) :
    ∃ i, w.log[n]? = some (i, e) := by
  rw [events, List.getElem?_map, Option.map_eq_some_iff] at h
  obtain ⟨⟨i, e'⟩, h, rfl⟩ := h
  exact ⟨i, h⟩

variable (exec : (c : C) → S → R c → S → Prop) (start : Q → Prog C R α)

/-- A new task starts, or a task has one of its open commands executed. -/
inductive Step : World C R S Q α → World C R S Q α → Prop where
  | arrive (w : World C R S Q α) (q : Q) : Step w { w with tasks := w.tasks ++ [⟨q, start q⟩] }
  | perform (w : World C R S Q α) (i : Nat) (t : Task C R Q α) (e : Event C R S) (p : Prog C R α)
      (ht : w.tasks[i]? = some t) (hn : Prog.Next t.prog e.cmd e.answer p) (hb : e.before = w.store)
      (hx : exec e.cmd e.before e.answer e.after) :
      Step w { store := e.after, tasks := w.tasks.set i { t with prog := p }, log := w.log ++ [(i, e)] }

/-- A step stays one where more can be executed. -/
theorem Step.mono {exec exec' : (c : C) → S → R c → S → Prop} {start : Q → Prog C R α} {w w' : World C R S Q α}
    (h : Step exec start w w') (hx : ∀ c s r s', exec c s r s' → exec' c s r s') : Step exec' start w w' := by
  cases h with
  | arrive q => exact Step.arrive w q
  | perform i t e p ht hn hb he => exact Step.perform w i t e p ht hn hb (hx _ _ _ _ he)

/-- The worlds that a run from the store `s`, with no task, can reach. -/
def Reachable (s : S) (w : World C R S Q α) : Prop := Relation.ReflTransGen (Step exec start) (World.init s) w

/-- The log is a chain of executed events, and the events of a task take its program to where it is. -/
structure Sound (s : S) (w : World C R S Q α) : Prop where
  chained : Chained s w.events w.store
  executed : ∀ e ∈ w.events, exec e.cmd e.before e.answer e.after
  bounded : ∀ p ∈ w.log, p.1 < w.tasks.length
  runs : ∀ i t, w.tasks[i]? = some t → Prog.Runs (start t.origin) (w.own i) t.prog

theorem sound_init (s : S) : Sound exec start s (World.init s : World C R S Q α) where
  chained := Chained.nil s
  executed := by simp [World.init, World.events]
  bounded := by simp [World.init]
  runs := by simp [World.init]

theorem Sound.step {exec : (c : C) → S → R c → S → Prop} {start : Q → Prog C R α} {s : S}
    {w w' : World C R S Q α} (h : Sound exec start s w) (hs : Step exec start w w') : Sound exec start s w' := by
  cases hs with
  | arrive q =>
    refine ⟨h.chained, h.executed, fun p hp => ?_, fun i t ht => ?_⟩
    · have := h.bounded p hp
      simp only [List.length_append, List.length_cons, List.length_nil]
      omega
    · rcases Nat.lt_trichotomy i w.tasks.length with hi | hi | hi
      · rw [List.getElem?_append_left hi] at ht
        exact h.runs i t ht
      · subst hi
        rw [List.getElem?_concat_length, Option.some.injEq] at ht
        subst ht
        rw [World.own, ownEvents_eq_nil h.bounded]
        exact Prog.Runs.nil _
      · rw [List.getElem?_eq_none (by simp; omega)] at ht
        cases ht
  | perform i t e p ht hn hb hx =>
    have hi : i < w.tasks.length := (List.getElem?_eq_some_iff.1 ht).1
    refine ⟨?_, ?_, ?_, ?_⟩
    · simp only [World.events, List.map_append, List.map_cons, List.map_nil]
      exact h.chained.snoc hb
    · intro e' he'
      simp only [World.events, List.map_append, List.map_cons, List.map_nil, List.mem_append,
        List.mem_singleton] at he'
      rcases he' with he' | rfl
      · exact h.executed e' he'
      · exact hx
    · intro q hq
      rw [List.length_set]
      rcases List.mem_append.1 hq with hq | hq
      · exact h.bounded q hq
      · rw [List.mem_singleton] at hq
        subst hq
        exact hi
    -- only the program of the task `i` has moved, by the event that its own log grows by
    · intro j t' ht'
      by_cases hij : i = j
      · subst hij
        rw [List.getElem?_set_self hi, Option.some.injEq] at ht'
        subst ht'
        rw [World.own, ownEvents_self]
        exact (h.runs i t ht).snoc hn
      · rw [List.getElem?_set_ne hij] at ht'
        rw [World.own, ownEvents_ne _ hij]
        exact h.runs j t' ht'

theorem Reachable.sound {exec : (c : C) → S → R c → S → Prop} {start : Q → Prog C R α} {s : S}
    {w : World C R S Q α} (h : Reachable exec start s w) : Sound exec start s w := by
  induction h with
  | refl => exact sound_init exec start s
  | tail _ hs ih => exact ih.step hs

/-- Every logged event belongs to a task. -/
theorem Reachable.task_of_mem {exec : (c : C) → S → R c → S → Prop} {start : Q → Prog C R α} {s : S}
    {w : World C R S Q α} (h : Reachable exec start s w) {i : Nat} {e : Event C R S} (he : (i, e) ∈ w.log) :
    ∃ t, w.tasks[i]? = some t ∧ Prog.Runs (start t.origin) (w.own i) t.prog ∧ e ∈ w.own i := by
  have hi := h.sound.bounded (i, e) he
  exact ⟨w.tasks[i], List.getElem?_eq_getElem hi, h.sound.runs i _ (List.getElem?_eq_getElem hi),
    World.mem_own.2 he⟩

end Worlds

end Interleaving
