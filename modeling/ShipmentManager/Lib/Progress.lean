import Mathlib.Data.List.Basic
import ShipmentManager.Lib.Interleaving

/-!
# Progress of interleaved tasks

`Bounded n p`: the program `p` issues at most `n` commands, whatever the answers are.  A task with such a program has at
most `n` events in any run, and from any moment on it can be finished by its own steps alone: no task waits for another
one (`World.exists_finish`).
-/

namespace Prog

variable {C : Type} {R : C → Type} {S α : Type}

/-- The program issues at most `n` commands. -/
inductive Bounded : Nat → Prog C R α → Prop where
  | done (n : Nat) (a : α) : Bounded n (done a)
  | call {n : Nat} {c : C} {k : R c → Prog C R α} (h : ∀ r, Bounded n (k r)) : Bounded (n + 1) (call c k)
  | both {n : Nat} {c₁ c₂ : C} {k : R c₁ → R c₂ → Prog C R α} (h : ∀ r₁ r₂, Bounded n (k r₁ r₂)) :
      Bounded (n + 2) (both c₁ c₂ k)

theorem Bounded.next {n : Nat} {p p' : Prog C R α} {c : C} {r : R c} (h : Bounded n p) (hn : Next p c r p') :
    ∃ m, n = m + 1 ∧ Bounded m p' := by
  cases hn with
  | call c k r =>
    cases h with
    | call h => exact ⟨_, rfl, h r⟩
  | left c₁ c₂ k r =>
    cases h with
    | both h => exact ⟨_, rfl, Bounded.call fun r₂ => h r r₂⟩
  | right c₁ c₂ k r =>
    cases h with
    | both h => exact ⟨_, rfl, Bounded.call fun r₁ => h r₁ r⟩

/-- Every event of a program leaves it one command less. -/
theorem Bounded.runs {n : Nat} {p p' : Prog C R α} {es : List (Event C R S)} (h : Bounded n p) (hr : Runs p es p') :
    ∃ m, n = es.length + m ∧ Bounded m p' := by
  induction hr generalizing n with
  | nil p => exact ⟨n, by simp, h⟩
  | cons hn _ ih =>
    obtain ⟨m, rfl, hm⟩ := h.next hn
    obtain ⟨m', rfl, hm'⟩ := ih hm
    refine ⟨m', ?_, hm'⟩
    rw [List.length_cons]
    omega

end Prog

namespace Interleaving

variable {C : Type} {R : C → Type} {S Q α : Type} {exec : (c : C) → S → R c → S → Prop} {start : Q → Prog C R α}

/-- An open command of a program, with what follows its answer. -/
private theorem exists_next (hexec : ∀ c s, ∃ r s', exec c s r s') (p : Prog C R α) (s : S) :
    (∃ a, p = .done a) ∨ ∃ (e : Event C R S) (p' : Prog C R α), Prog.Next p e.cmd e.answer p' ∧ e.before = s ∧
      exec e.cmd e.before e.answer e.after := by
  cases p with
  | done a => exact Or.inl ⟨a, rfl⟩
  | call c k =>
    obtain ⟨r, s', hx⟩ := hexec c s
    exact Or.inr ⟨⟨c, r, s, s'⟩, k r, Prog.Next.call c k r, rfl, hx⟩
  | both c₁ c₂ k =>
    obtain ⟨r, s', hx⟩ := hexec c₁ s
    exact Or.inr ⟨⟨c₁, r, s, s'⟩, _, Prog.Next.left c₁ c₂ k r, rfl, hx⟩

/-- Where every command can be executed on every store, a task is finished by its own steps, as many as its program has
commands left; the other tasks stay where they are. -/
theorem World.exists_finish (hexec : ∀ c s, ∃ r s', exec c s r s') {n : Nat} {w : World C R S Q α} {i : Nat}
    {t : Task C R Q α} (ht : w.tasks[i]? = some t) (hb : Prog.Bounded n t.prog) :
    ∃ (w' : World C R S Q α) (es : List (Event C R S)) (a : α), Relation.ReflTransGen (Step exec start) w w' ∧
      w'.tasks = w.tasks.set i { t with prog := .done a } ∧ w'.log = w.log ++ es.map (fun e => (i, e)) ∧
        es.length ≤ n := by
  have hi : i < w.tasks.length := (List.getElem?_eq_some_iff.1 ht).1
  -- a finished task is where it is to be
  have hfinished : ∀ a, t.prog = .done a → w.tasks = w.tasks.set i { t with prog := .done a } := by
    intro a ha
    have hself : { t with prog := .done a } = w.tasks[i] := by
      rw [(List.getElem?_eq_some_iff.1 ht).2, ← ha]
    rw [hself, List.set_getElem_self]
  induction n generalizing w t with
  | zero =>
    rcases exists_next hexec t.prog w.store with ⟨a, ha⟩ | ⟨e, p, hn, -, -⟩
    · exact ⟨w, [], a, Relation.ReflTransGen.refl, hfinished a ha, by simp, Nat.le_refl _⟩
    · obtain ⟨m, hm, -⟩ := hb.next hn
      omega
  | succ n ih =>
    rcases exists_next hexec t.prog w.store with ⟨a, ha⟩ | ⟨e, p, hn, hbefore, hx⟩
    · exact ⟨w, [], a, Relation.ReflTransGen.refl, hfinished a ha, by simp, Nat.zero_le _⟩
    · obtain ⟨m, hm, hp⟩ := hb.next hn
      obtain rfl : n = m := by omega
      let w₁ : World C R S Q α := ⟨e.after, w.tasks.set i { t with prog := p }, w.log ++ [(i, e)]⟩
      have hstep : Step exec start w w₁ := Step.perform w i t e p ht hn hbefore hx
      have hself : w₁.tasks[i]? = some { t with prog := p } := List.getElem?_set_self hi
      have hi₁ : i < w₁.tasks.length := (List.getElem?_eq_some_iff.1 hself).1
      obtain ⟨w', es, a, hrun, htasks, hlog, hlength⟩ := ih hself hp hi₁ fun a ha => by
        show w.tasks.set i { t with prog := p } = _
        rw [List.set_set]
        exact congrArg _ (by rw [← ha])
      refine ⟨w', e :: es, a, Relation.ReflTransGen.head hstep hrun, ?_, ?_, ?_⟩
      · rw [htasks, List.set_set]
      · rw [hlog, List.append_assoc]
        rfl
      · rw [List.length_cons]
        omega

/-- Events of the tasks below `k`, at most `n` of each. -/
private theorem length_log_le {log : List (Nat × Event C R S)} {n k : Nat} (hk : ∀ p ∈ log, p.1 < k)
    (hn : ∀ i, (ownEvents log i).length ≤ n) : log.length ≤ n * k := by
  induction k generalizing log with
  | zero =>
    have hnil : log = [] := List.eq_nil_iff_forall_not_mem.2 fun p hp => absurd (hk p hp) (Nat.not_lt_zero _)
    simp [hnil]
  | succ k ih =>
    -- those of the task `k`, and the others
    have hsplit := List.length_eq_length_filter_add (l := log) fun p => decide (p.1 = k)
    have hown : (log.filter fun p => p.1 = k).length ≤ n := by
      have := hn k
      rwa [ownEvents, List.length_map] at this
    have hrest : (log.filter fun p => !decide (p.1 = k)).length ≤ n * k := by
      refine ih (fun p hp => ?_) fun i => ?_
      · obtain ⟨hp, hne⟩ := List.mem_filter.1 hp
        have hlt := hk p hp
        have hne' : p.1 ≠ k := by simpa using hne
        omega
      · refine Nat.le_trans ?_ (hn i)
        unfold ownEvents
        rw [List.length_map, List.length_map]
        exact (List.filter_sublist.filter _).length_le
    rw [Nat.mul_succ]
    omega

variable {s : S} {w : World C R S Q α}

/-- A task of a program with at most `n` commands has had the commands that it has no longer. -/
theorem Reachable.own_length {n : Nat} (hb : ∀ q, Prog.Bounded n (start q)) (hw : Reachable exec start s w) {i : Nat}
    {t : Task C R Q α} (ht : w.tasks[i]? = some t) : ∃ m, n = (w.own i).length + m ∧ Prog.Bounded m t.prog :=
  (hb t.origin).runs (hw.sound.runs i t ht)

/-- A run has at most `n` events for each of its tasks. -/
theorem Reachable.log_length_le {n : Nat} (hb : ∀ q, Prog.Bounded n (start q)) (hw : Reachable exec start s w) :
    w.log.length ≤ n * w.tasks.length := by
  refine length_log_le hw.sound.bounded fun i => ?_
  by_cases hi : i < w.tasks.length
  · obtain ⟨m, hm, -⟩ := hw.own_length hb (List.getElem?_eq_getElem hi)
    show (w.own i).length ≤ n
    omega
  · have hnil : w.own i = [] := by
      refine List.eq_nil_iff_forall_not_mem.2 fun e he => hi ?_
      exact hw.sound.bounded (i, e) (World.mem_own.1 he)
    show (w.own i).length ≤ n
    simp [hnil]

end Interleaving
