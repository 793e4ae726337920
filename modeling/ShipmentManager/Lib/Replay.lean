import ShipmentManager.Lib.Interleaving

/-!
# Replaying a run

Where the commands can be computed, a run can be given by its moves: which request arrives, and which task has which of
its open commands executed, with what the environment chooses for it.  `World.replay` computes the world that the moves
lead to, and `exists_of_replay` says that this world is reachable.
-/

namespace Interleaving

variable {C : Type} {R : C → Type} {S Q α X : Type}

/-- A move of a run; of two open commands, `second` chooses the second one. -/
inductive Move (Q X : Type) where
  | arrive (q : Q)
  | perform (i : Nat) (second : Bool) (choice : X)

/-- An open command, with the rest of the program. -/
def openCommand : Prog C R α → Bool → Option ((c : C) × (R c → Prog C R α))
  | .done _, _ => none
  | .call c k, false => some ⟨c, k⟩
  | .call _ _, true => none
  | .both c₁ c₂ k, false => some ⟨c₁, fun r₁ => .call c₂ fun r₂ => k r₁ r₂⟩
  | .both c₁ c₂ k, true => some ⟨c₂, fun r₂ => .call c₁ fun r₁ => k r₁ r₂⟩

theorem next_of_openCommand {p : Prog C R α} {second : Bool} {c : C} {k : R c → Prog C R α}
    (h : openCommand p second = some ⟨c, k⟩) (r : R c) : Prog.Next p c r (k r) := by
  cases p with
  | done a => cases h
  | call c' k' =>
    cases second
    · cases h
      exact Prog.Next.call _ _ r
    · cases h
  | both c₁ c₂ k' =>
    cases second
    · cases h
      exact Prog.Next.left _ _ _ r
    · cases h
      exact Prog.Next.right _ _ _ r

variable (run : X → (c : C) → S → R c × S) (start : Q → Prog C R α)

/-- The world after a move, when it is possible. -/
def World.move (w : World C R S Q α) : Move Q X → Option (World C R S Q α)
  | .arrive q => some { w with tasks := w.tasks ++ [⟨q, start q⟩] }
  | .perform i second x =>
    match w.tasks[i]? with
    | none => none
    | some t =>
      match openCommand t.prog second with
      | none => none
      | some ⟨c, k⟩ =>
        let r := run x c w.store
        some
          { store := r.2
            tasks := w.tasks.set i { t with prog := k r.1 }
            log := w.log ++ [(i, ⟨c, r.1, w.store, r.2⟩)] }

def World.replay (w : World C R S Q α) : List (Move Q X) → Option (World C R S Q α)
  | [] => some w
  | m :: ms => (w.move run start m).bind fun w' => w'.replay ms

variable {run start} {exec : (c : C) → S → R c → S → Prop}

theorem step_of_move (hrun : ∀ x c s, exec c s (run x c s).1 (run x c s).2) {w w' : World C R S Q α}
    {m : Move Q X} (h : w.move run start m = some w') : Step exec start w w' := by
  cases m with
  | arrive q =>
    cases h
    exact Step.arrive w q
  | perform i second x =>
    unfold World.move at h
    simp only at h
    split at h
    · cases h
    · rename_i t ht
      split at h
      · cases h
      · rename_i c k hk
        cases h
        exact Step.perform w i t ⟨c, _, w.store, _⟩ _ ht (next_of_openCommand hk _) rfl (hrun x c w.store)

theorem replay_steps (hrun : ∀ x c s, exec c s (run x c s).1 (run x c s).2) {ms : List (Move Q X)}
    {w w' : World C R S Q α} (h : w.replay run start ms = some w') :
    Relation.ReflTransGen (Step exec start) w w' := by
  induction ms generalizing w with
  | nil =>
    cases h
    exact Relation.ReflTransGen.refl
  | cons m ms ih =>
    obtain ⟨w₁, hm, h⟩ := Option.bind_eq_some_iff.1 h
    exact Relation.ReflTransGen.head (step_of_move hrun hm) (ih h)

theorem replay_reachable (hrun : ∀ x c s, exec c s (run x c s).1 (run x c s).2) {s : S} {ms : List (Move Q X)}
    {w w' : World C R S Q α} (hw : Reachable exec start s w) (h : w.replay run start ms = some w') :
    Reachable exec start s w' := Relation.ReflTransGen.trans hw (replay_steps hrun h)

/-- The requests that arrive. -/
def arrivals : List (Move Q X) → List Q
  | [] => []
  | .arrive q :: ms => q :: arrivals ms
  | .perform _ _ _ :: ms => arrivals ms

private theorem move_origins {w w' : World C R S Q α} {m : Move Q X} (h : w.move run start m = some w') :
    w'.tasks.map Task.origin = w.tasks.map Task.origin ++ arrivals [m] := by
  cases m with
  | arrive q =>
    cases h
    simp [arrivals]
  | perform i second x =>
    unfold World.move at h
    simp only at h
    split at h
    · cases h
    · rename_i t ht
      split at h
      · cases h
      · cases h
        obtain ⟨hi, rfl⟩ := List.getElem?_eq_some_iff.1 ht
        refine List.ext_getElem (by simp [arrivals]) fun j hj hj' => ?_
        by_cases hij : i = j
        · subst hij
          simp [arrivals]
        · simp [arrivals, hij]

/-- The tasks of a replayed run are the requests that arrive, in this order. -/
theorem replay_origins {ms : List (Move Q X)} {w w' : World C R S Q α} (h : w.replay run start ms = some w') :
    w'.tasks.map Task.origin = w.tasks.map Task.origin ++ arrivals ms := by
  induction ms generalizing w with
  | nil =>
    cases h
    simp [arrivals]
  | cons m ms ih =>
    obtain ⟨w₁, hm, h⟩ := Option.bind_eq_some_iff.1 h
    rw [ih h, move_origins hm, List.append_assoc]
    cases m <;> rfl

/-- A run that is replayed and checked exists. -/
theorem exists_of_replay (hrun : ∀ x c s, exec c s (run x c s).1 (run x c s).2) (s : S) (ms : List (Move Q X))
    (q : World C R S Q α → Bool) (h : ((World.init s).replay run start ms).any q = true) :
    ∃ w, Reachable exec start s w ∧ q w = true := by
  cases hw : (World.init s : World C R S Q α).replay run start ms with
  | none =>
    rw [hw] at h
    cases h
  | some w =>
    rw [hw] at h
    exact ⟨w, replay_reachable hrun Relation.ReflTransGen.refl hw, h⟩

end Interleaving
