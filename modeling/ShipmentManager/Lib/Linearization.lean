import Mathlib.Data.List.Nodup
import ShipmentManager.Lib.Interleaving

/-!
# Linearization of a run

A run of interleaved tasks is linearized by a list of its finished tasks: served one after the other, each alone on the
store that the one before it left, they have the same results and end with the same store.

* `AtOnce`: a task whose work all happens at the moment of its last event;
* `Linearizes.extend`: where every task of a run works at once, a linearization of any moment of the run is continued to
  one of any later moment.  So what is finished at one moment comes before everything that is finished later.

Tasks that satisfy `skip` and only read may be left out: nothing is said of their results.
-/

namespace Interleaving

variable {C : Type} {R : C → Type} {S Q α : Type}

/-- A finished task: what it was started from, and its result. -/
structure Served (Q α : Type) where
  task : Nat
  request : Q
  result : α

/-- The events leave the store as it is. -/
def Silent (es : List (Event C R S)) : Prop := ∀ e ∈ es, e.after = e.before

theorem Silent.of_append {es es' : List (Event C R S)} (h : Silent (es ++ es')) : Silent es := fun e he =>
  h e (List.mem_append_left _ he)

theorem own_append (w : World C R S Q α) (store : S) (tasks : List (Task C R Q α)) (i j : Nat) (e : Event C R S) :
    World.own ⟨store, tasks, w.log ++ [(i, e)]⟩ j = if i = j then w.own j ++ [e] else w.own j := by
  unfold World.own ownEvents
  rw [List.filter_append, List.map_append]
  by_cases h : i = j
  · simp [h]
  · simp [h]

variable (exec : (c : C) → S → R c → S → Prop) (start : Q → Prog C R α)

/-- The requests, one after the other, lead from one store to another. -/
inductive Sequential (s : S) : List (Served Q α) → S → Prop where
  | nil : Sequential s [] s
  | snoc {s' s'' : S} {l : List (Served Q α)} (v : Served Q α) : Sequential s l s' →
      Serves exec (start v.request) s' v.result s'' → Sequential s (l ++ [v]) s''

/-- How a program works whose events so far are `es` and that is now at `q`: until it is finished it only reads, and
with its last event it ends as it would if all of it was executed there. -/
inductive AtOnce (p : Prog C R α) : List (Event C R S) → Prog C R α → Prop where
  | waiting (es : List (Event C R S)) (q : Prog C R α) : Silent es → (∀ a, q ≠ .done a) → AtOnce p es q
  | immediate (a : α) : AtOnce p [] (.done a)
  | finished (es : List (Event C R S)) (e : Event C R S) (a : α) : Silent es → Serves exec p e.before a e.after →
      AtOnce p (es ++ [e]) (.done a)

variable (skip : Q → List (Event C R S) → Prop)

/-- Every task works at once, or only reads and may be left out. -/
def Atomic (w : World C R S Q α) : Prop := ∀ i t, w.tasks[i]? = some t →
  (skip t.origin (w.own i) ∧ Silent (w.own i)) ∨ AtOnce exec (start t.origin) (w.own i) t.prog

/-- The finished tasks, in an order in which they could have been served one after the other. -/
structure Linearizes (s : S) (w : World C R S Q α) (l : List (Served Q α)) : Prop where
  sound : ∀ v ∈ l, ∃ t, w.tasks[v.task]? = some t ∧ t.origin = v.request ∧ t.prog = .done v.result
  complete : ∀ i t a, w.tasks[i]? = some t → t.prog = .done a → ¬ skip t.origin (w.own i) → ∃ v ∈ l, v.task = i
  once : (l.map Served.task).Nodup
  sequential : Sequential exec start s l w.store

theorem linearizes_init (s : S) : Linearizes exec start skip s (World.init s) [] where
  sound := by simp
  complete := by simp [World.init]
  once := List.nodup_nil
  sequential := Sequential.nil

variable {exec start skip} {s : S} {w w' : World C R S Q α}

private theorem AtOnce.silent_of_snoc {p q : Prog C R α} {es : List (Event C R S)} {e : Event C R S}
    (h : AtOnce exec p (es ++ [e]) q) : Silent es := by
  generalize hes : es ++ [e] = l at h
  cases h with
  | waiting _ _ hs _ => exact Silent.of_append (hes ▸ hs)
  | immediate => simp at hes
  | finished es' e' a hs _ =>
    obtain ⟨rfl, -⟩ := List.append_inj' hes rfl
    exact hs

/-- What works at once at some moment did so before. -/
theorem Atomic.of_step (h : Atomic exec start skip w') (hs : Step exec start w w') :
    Atomic exec start skip w := by
  intro i t ht
  have hi : i < w.tasks.length := (List.getElem?_eq_some_iff.1 ht).1
  cases hs with
  | arrive q => exact h i t (by rw [List.getElem?_append_left hi]; exact ht)
  | perform j t' e p ht' hn hb hx =>
    by_cases hji : j = i
    -- the task that performs a step was not finished, so until then it has only read
    · subst hji
      rw [ht] at ht'
      cases ht'
      have h' := h j { t with prog := p } (List.getElem?_set_self hi)
      rw [own_append, if_pos rfl] at h'
      refine Or.inr (AtOnce.waiting _ _ ?_ fun a ha => ?_)
      · rcases h' with ⟨-, hsilent⟩ | hat
        · exact hsilent.of_append
        · exact hat.silent_of_snoc
      · rw [ha] at hn
        cases hn
    · have h' := h i t (by rw [List.getElem?_set_ne hji]; exact ht)
      rw [own_append, if_neg hji] at h'
      exact h'

theorem Atomic.of_run (hr : Relation.ReflTransGen (Step exec start) w w') (h : Atomic exec start skip w') :
    Atomic exec start skip w := by
  induction hr with
  | refl => exact h
  | tail _ hs ih => exact ih (h.of_step hs)

section Steps

variable {l : List (Served Q α)}

private theorem nodup_snoc {v : Served Q α} (h : (l.map Served.task).Nodup) (hv : v.task ∉ l.map Served.task) :
    ((l ++ [v]).map Served.task).Nodup := by
  rw [List.map_append, List.map_singleton, ← List.concat_eq_append]
  exact h.concat hv

/-- A task of a linearization is finished. -/
private theorem Linearizes.done_of_mem (h : Linearizes exec start skip s w l) {i : Nat} (hi : i ∈ l.map Served.task) :
    ∃ t a, w.tasks[i]? = some t ∧ t.prog = .done a := by
  obtain ⟨v, hv, rfl⟩ := List.mem_map.1 hi
  obtain ⟨t, ht, -, hd⟩ := h.sound v hv
  exact ⟨t, _, ht, hd⟩

/-- One more task has finished, on the store as it was, and what was served before is served still. -/
private theorem Linearizes.serve (h : Linearizes exec start skip s w l) {i : Nat} {t : Task C R Q α} {a : α}
    (hsound : ∀ v ∈ l, ∃ t, w'.tasks[v.task]? = some t ∧ t.origin = v.request ∧ t.prog = .done v.result)
    (hother : ∀ j t b, i ≠ j → w'.tasks[j]? = some t → t.prog = .done b → ¬ skip t.origin (w'.own j) →
      ∃ v ∈ l, v.task = j)
    (hi : i ∉ l.map Served.task) (ht : w'.tasks[i]? = some t) (ha : t.prog = .done a)
    (hserves : Serves exec (start t.origin) w.store a w'.store) :
    Linearizes exec start skip s w' (l ++ [⟨i, t.origin, a⟩]) where
  sound := by
    intro v hv
    rcases List.mem_append.1 hv with hv | hv
    · exact hsound v hv
    · rw [List.mem_singleton] at hv
      subst hv
      exact ⟨t, ht, rfl, ha⟩
  complete := by
    intro j t' b ht' hb hskip
    by_cases hij : i = j
    · exact ⟨⟨i, t.origin, a⟩, List.mem_append_right _ (List.mem_singleton_self _), hij⟩
    · obtain ⟨v, hv, hvj⟩ := hother j t' b hij ht' hb hskip
      exact ⟨v, List.mem_append_left _ hv, hvj⟩
  once := nodup_snoc h.once hi
  sequential := Sequential.snoc ⟨i, t.origin, a⟩ h.sequential hserves

/-- A task that arrives is served at once if it has nothing to ask. -/
private theorem Linearizes.arrive (h : Linearizes exec start skip s w l) (q : Q) :
    ∃ l', Linearizes exec start skip s { w with tasks := w.tasks ++ [⟨q, start q⟩] } (l ++ l') := by
  have hsound : ∀ v ∈ l, ∃ t, (w.tasks ++ [⟨q, start q⟩])[v.task]? = some t ∧ t.origin = v.request ∧
      t.prog = .done v.result := by
    intro v hv
    obtain ⟨t, ht, rest⟩ := h.sound v hv
    exact ⟨t, by rw [List.getElem?_append_left (List.getElem?_eq_some_iff.1 ht).1]; exact ht, rest⟩
  -- an earlier task is where it was, and a later one is the new one
  have hsplit : ∀ i t, (w.tasks ++ [⟨q, start q⟩])[i]? = some t → w.tasks[i]? = some t ∨
      (i = w.tasks.length ∧ t = ⟨q, start q⟩) := by
    intro i t ht
    rcases Nat.lt_trichotomy i w.tasks.length with hi | hi | hi
    · rw [List.getElem?_append_left hi] at ht
      exact Or.inl ht
    · subst hi
      rw [List.getElem?_concat_length, Option.some.injEq] at ht
      exact Or.inr ⟨rfl, ht.symm⟩
    · rw [List.getElem?_eq_none (by simp; omega)] at ht
      cases ht
  by_cases hdone : ∃ a, start q = .done a
  · obtain ⟨a, ha⟩ := hdone
    have hnew : (w.tasks ++ [⟨q, start q⟩])[w.tasks.length]? = some ⟨q, start q⟩ := List.getElem?_concat_length
    refine ⟨_, h.serve hsound (fun i t b hi ht hb hskip => ?_) (fun hmem => ?_) hnew ha ?_⟩
    · rcases hsplit i t ht with ht | ⟨rfl, -⟩
      · exact h.complete i t b ht hb hskip
      · exact absurd rfl hi
    · obtain ⟨t, b, ht, -⟩ := h.done_of_mem hmem
      exact absurd (List.getElem?_eq_some_iff.1 ht).1 (Nat.lt_irrefl _)
    · show Serves exec (start q) w.store a w.store
      rw [ha]
      exact (serves_done exec).2 ⟨rfl, rfl⟩
  · refine ⟨[], ?_⟩
    rw [List.append_nil]
    refine ⟨hsound, fun i t a ht ha hskip => ?_, h.once, h.sequential⟩
    rcases hsplit i t ht with ht | ⟨-, rfl⟩
    · exact h.complete i t a ht ha hskip
    · exact absurd ⟨a, ha⟩ hdone

/-- A task that finishes with a step is served at this step; any other step only reads. -/
private theorem Linearizes.perform (h : Linearizes exec start skip s w l) {i : Nat} {t : Task C R Q α} {e : Event C R S}
    {p : Prog C R α} (ht : w.tasks[i]? = some t) (hn : Prog.Next t.prog e.cmd e.answer p) (hb : e.before = w.store)
    (hat : Atomic exec start skip ⟨e.after, w.tasks.set i { t with prog := p }, w.log ++ [(i, e)]⟩) :
    ∃ l', Linearizes exec start skip s ⟨e.after, w.tasks.set i { t with prog := p }, w.log ++ [(i, e)]⟩ (l ++ l') := by
  have hi : i < w.tasks.length := (List.getElem?_eq_some_iff.1 ht).1
  have hopen : ∀ a, t.prog ≠ .done a := by
    intro a ha
    rw [ha] at hn
    cases hn
  have hmem : i ∉ l.map Served.task := by
    intro hmem
    obtain ⟨t', a, ht', ha⟩ := h.done_of_mem hmem
    rw [ht] at ht'
    cases ht'
    exact hopen a ha
  have hsound : ∀ v ∈ l, ∃ t', (w.tasks.set i { t with prog := p })[v.task]? = some t' ∧ t'.origin = v.request ∧
      t'.prog = .done v.result := by
    intro v hv
    obtain ⟨t', ht', rest⟩ := h.sound v hv
    have hne : i ≠ v.task := fun hiv => hmem (hiv ▸ List.mem_map_of_mem hv)
    exact ⟨t', by rw [List.getElem?_set_ne hne]; exact ht', rest⟩
  -- the other tasks are where they were
  have hother : ∀ j t' a, i ≠ j → (w.tasks.set i { t with prog := p })[j]? = some t' → t'.prog = .done a →
      ¬ skip t'.origin (World.own ⟨e.after, w.tasks.set i { t with prog := p }, w.log ++ [(i, e)]⟩ j) →
        ∃ v ∈ l, v.task = j := by
    intro j t' a hij ht' ha hskip
    rw [List.getElem?_set_ne hij] at ht'
    rw [own_append, if_neg hij] at hskip
    exact h.complete j t' a ht' ha hskip
  have hself := List.getElem?_set_self (l := w.tasks) (a := { t with prog := p }) hi
  have hquiet : e.after = e.before →
      ((∃ a, p = .done a) →
        skip t.origin (World.own ⟨e.after, w.tasks.set i { t with prog := p }, w.log ++ [(i, e)]⟩ i)) →
      ∃ l', Linearizes exec start skip s ⟨e.after, w.tasks.set i { t with prog := p }, w.log ++ [(i, e)]⟩
        (l ++ l') := by
    intro hsame hskipped
    refine ⟨[], ?_⟩
    rw [List.append_nil]
    refine ⟨hsound, fun j t' a ht' ha hskip => ?_, h.once, ?_⟩
    · by_cases hij : i = j
      · subst hij
        rw [hself] at ht'
        cases ht'
        exact absurd (hskipped ⟨a, ha⟩) hskip
      · exact hother j t' a hij ht' ha hskip
    · show Sequential exec start s l e.after
      rw [hsame, hb]
      exact h.sequential
  have hown : World.own ⟨e.after, w.tasks.set i { t with prog := p }, w.log ++ [(i, e)]⟩ i = w.own i ++ [e] := by
    rw [own_append, if_pos rfl]
  rcases hat i _ hself with ⟨hskip, hsilent⟩ | hcase
  · refine hquiet (hsilent e ?_) fun _ => hskip
    rw [hown]
    exact List.mem_append_right _ (List.mem_singleton_self e)
  · rw [hown] at hcase
    generalize hes : w.own i ++ [e] = es at hcase
    change AtOnce exec (start t.origin) es p at hcase
    cases hcase with
    | waiting _ _ hsilent hq =>
      refine hquiet (hsilent e ?_) fun ⟨a, ha⟩ => absurd ha (hq a)
      rw [← hes]
      exact List.mem_append_right _ (List.mem_singleton_self e)
    | immediate => simp at hes
    | finished es' e' a _ hserves =>
      obtain ⟨-, he⟩ := List.append_inj' hes rfl
      cases he
      exact ⟨_, h.serve hsound hother hmem hself rfl (hb ▸ hserves)⟩

/-- A linearization of one moment of a run is continued to one of any later moment. -/
theorem Linearizes.extend (h : Linearizes exec start skip s w l)
    (hr : Relation.ReflTransGen (Step exec start) w w') (hat : Atomic exec start skip w') :
    ∃ l', Linearizes exec start skip s w' (l ++ l') := by
  induction hr with
  | refl => exact ⟨[], by rw [List.append_nil]; exact h⟩
  | tail hr hs ih =>
    obtain ⟨l₁, h₁⟩ := ih (hat.of_step hs)
    cases hs with
    | arrive q =>
      obtain ⟨l₂, h₂⟩ := h₁.arrive q
      exact ⟨l₁ ++ l₂, by rw [← List.append_assoc]; exact h₂⟩
    | perform i t e p ht hn hb hx =>
      obtain ⟨l₂, h₂⟩ := h₁.perform ht hn hb hat
      exact ⟨l₁ ++ l₂, by rw [← List.append_assoc]; exact h₂⟩

end Steps

end Interleaving
