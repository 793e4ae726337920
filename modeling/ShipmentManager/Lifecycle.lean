import ShipmentManager.Progress
import ShipmentManager.Shutdown

/-!
# The life of the process

The requests and the listeners of a signal share the connection and nothing else.  As long as the process runs, every
accepted request can be answered by its own steps, in whatever state the connection is, since the command of a request
on a lost connection ends with an error; and once a signal has been received the process can exit at any moment,
whatever requests are open.  So neither side can block the other, and a request is cut by the exit alone (`lifecycle`).
-/

namespace ShipmentManager

open Interleaving

variable {P : Platform}

/-- Every command has an end, in whatever state the connection is. -/
theorem Database.exists_executes (d : Database) (c : Command) (db : Db) :
    ∃ r db', d.Executes P.mongo P.model c db r db' := by
  by_cases hd : d.readyState = .disconnected
  · refine ⟨.error (.mongoServerError none none []), db, Or.inr ⟨?_, rfl, _, rfl⟩⟩
    rw [hd]
    decide
  · obtain ⟨r, db', hx⟩ := ShipmentManager.exists_executes (P := P) c db
    exact ⟨r, db', Or.inl ⟨hd, hx⟩⟩

namespace Process

variable {db : Db} {p p' : Process P}

/-- The requests of the process are a run, on the connection as it is at each step. -/
theorem Reachable.world (hp : Process.Reachable P db p) :
    Interleaving.Reachable (fun c db r db' => ∃ d : Database, d.Executes P.mongo P.model c db r db') (app P) db
      p.world := by
  induction hp with
  | refl => exact Relation.ReflTransGen.refl
  | @tail p p' _ hs ih =>
    cases hs with
    | request w running hw => exact ih.tail (hw.mono fun _ _ _ _ hx => ⟨p.database, hx⟩)
    | signal running =>
      obtain ⟨_, _, _, he⟩ := signal_eq p
      rw [he]
      exact ih
    | goOn k handler running hk =>
      rcases goOn_cases p handler with he | ⟨_, he⟩ <;> rw [he] <;> exact ih
    | respond i t response running task done => exact ih
    | event e running => exact ih
    | closed k listener running hk closed => exact ih
    | closeRejected k listener running hk => exact ih
    | closeCallback running failed => exact ih

/-- What a signal leaves behind: the server is closed, its listeners wait, and nothing else ends the process. -/
structure Signalled (p : Process P) : Prop where
  listening : p.listening = p.signalled.isNone
  handlers : p.handlers = [] ↔ p.signalled = none
  closeFailed : p.closeFailed = true → p.signalled ≠ none
  exit : p.exitCode ≠ none → p.signalled ≠ none

theorem Signalled.step (h : Signalled p) (hs : Step p p') : Signalled p' := by
  have hset : ∀ k handler, p.handlers.set k handler = [] ↔ p.signalled = none := by
    intro k handler
    rw [List.set_eq_nil_iff]
    exact h.handlers
  cases hs with
  | signal running =>
    have hsignalled : p.signal.signalled ≠ none := by
      show p.signalled.or (some p.world.tasks.length) ≠ none
      cases p.signalled <;> exact Option.some_ne_none _
    have hhandlers : p.signal.handlers ≠ [] := by
      show (p.handlers ++ [_]) ++ [_] ≠ []
      exact List.append_ne_nil_of_right_ne_nil _ (List.cons_ne_nil _ _)
    refine ⟨?_, iff_of_false hhandlers hsignalled, fun _ => hsignalled, fun _ => hsignalled⟩
    exact (Option.isNone_eq_false_iff.2 (Option.isSome_iff_ne_none.2 hsignalled)).symm
  | goOn k handler running hk =>
    rcases goOn_cases p handler with he | ⟨code, he⟩
    · rw [he]
      exact h
    -- a listener that goes on is there since the signal
    · rw [he]
      refine ⟨h.listening, h.handlers, h.closeFailed, fun _ hnone => ?_⟩
      have hnil := h.handlers.2 hnone
      rw [hnil] at hk
      cases hk
  | closeCallback running failed => exact ⟨h.listening, h.handlers, h.closeFailed, fun _ => h.closeFailed failed⟩
  | closed k listener running hk closed => exact ⟨h.listening, hset _ _, h.closeFailed, h.exit⟩
  | closeRejected k listener running hk => exact ⟨h.listening, hset _ _, h.closeFailed, h.exit⟩
  | request w running hw => exact ⟨h.listening, h.handlers, h.closeFailed, h.exit⟩
  | respond i t response running task done => exact ⟨h.listening, h.handlers, h.closeFailed, h.exit⟩
  | event e running => exact ⟨h.listening, h.handlers, h.closeFailed, h.exit⟩

theorem Reachable.signalled (hp : Process.Reachable P db p) : Signalled p := by
  induction hp with
  | refl => exact ⟨rfl, iff_of_true rfl rfl, nofun, fun h => absurd rfl h⟩
  | tail _ hs ih => exact ih.step hs

/-- A process that has exited stays as it is. -/
theorem eq_of_exited (hexit : p.exitCode ≠ none) (hs : Reaches p p') : p' = p := by
  rcases Relation.ReflTransGen.cases_head hs with rfl | ⟨q, hstep, -⟩
  · rfl
  · cases hstep <;> contradiction

/-- The two states differ in the request `i`, its response and what it does to the store; the other requests and their
responses, the connection and the listeners are where they were. -/
structure OnlyRequest (i : Nat) (p p' : Process P) : Prop where
  others : ∀ j, j ≠ i → p'.world.tasks[j]? = p.world.tasks[j]?
  answered : ∀ j, j ≠ i → (j ∈ p'.answered ↔ j ∈ p.answered)
  listening : p'.listening = p.listening
  closeFailed : p'.closeFailed = p.closeFailed
  database : p'.database = p.database
  handlers : p'.handlers = p.handlers
  signalled : p'.signalled = p.signalled
  exitCode : p'.exitCode = p.exitCode

/-- A running process can answer any accepted request by the steps of this request alone. -/
private theorem exists_answer (hp : Process.Reachable P db p) (running : p.exitCode = none) {i : Nat}
    (hi : i < p.world.tasks.length) : ∃ p', Reaches p p' ∧ OnlyRequest i p p' ∧ i ∈ p'.answered := by
  obtain ⟨m, -, hb⟩ := Interleaving.Reachable.own_length app_bounded hp.world (List.getElem?_eq_getElem hi)
  obtain ⟨w, es, response, hrun, htasks, -, -⟩ :=
    World.exists_finish (p.database.exists_executes (P := P)) (List.getElem?_eq_getElem hi) hb
  -- the connection stays as it is while the request takes its steps
  have hreach : Reaches p { p with world := w } := by
    clear htasks
    induction hrun with
    | refl => exact Relation.ReflTransGen.refl
    | @tail w w' _ hstep ih => exact ih.tail (Step.request { p with world := w } w' running hstep)
  have hdone : w.tasks[i]? = some { p.world.tasks[i] with prog := .done response } := by
    rw [htasks]
    exact List.getElem?_set_self hi
  have hothers : ∀ j, j ≠ i → w.tasks[j]? = p.world.tasks[j]? := by
    intro j hj
    rw [htasks]
    exact List.getElem?_set_ne hj.symm
  have hanswered : ∀ j, j ≠ i → (j ∈ i :: p.answered ↔ j ∈ p.answered) := fun j hj => by
    rw [List.mem_cons, or_iff_right hj]
  exact ⟨_, hreach.tail (Step.respond { p with world := w } i _ response running hdone rfl),
    ⟨hothers, hanswered, rfl, rfl, rfl, rfl, rfl, rfl⟩, List.mem_cons_self ..⟩

/-- A process that has received a signal can exit before any request takes another step. -/
private theorem exists_exit_of_signalled (hp : Process.Reachable P db p) (hsignal : p.signalled ≠ none) :
    ∃ p', Reaches p p' ∧ p'.exitCode ≠ none ∧ p'.world = p.world ∧ p'.answered = p.answered ∧
      p'.signalled = p.signalled := by
  by_cases running : p.exitCode = none
  · obtain ⟨⟨listener, call⟩, rest, hhandlers⟩ :=
      List.exists_cons_of_ne_nil fun hnil => hsignal (hp.signalled.handlers.1 hnil)
    have hk : p.handlers[0]? = some ⟨listener, call⟩ := by
      rw [hhandlers]
      rfl
    cases call with
    | resolved =>
      exact ⟨_, Relation.ReflTransGen.single (Step.goOn p 0 _ running hk), Option.some_ne_none 0, rfl, rfl, rfl⟩
    | rejected =>
      have hstep := Step.goOn p 0 _ running hk
      cases listener with
      | database => exact ⟨_, Relation.ReflTransGen.single hstep, Option.some_ne_none 1, rfl, rfl, rfl⟩
      | gracefulShutdown => exact ⟨_, Relation.ReflTransGen.single hstep, Option.some_ne_none 1, rfl, rfl, rfl⟩
    -- the driver closes the connection, and the listener goes on
    | closing =>
      let q : Process P := { p with database := p.database.on .disconnected }
      let q' : Process P :=
        { q with database := q.database.disconnected, handlers := q.handlers.set 0 ⟨listener, .resolved⟩ }
      have h₁ : Step p q := Step.event p .disconnected running
      have h₂ : Step q q' := Step.closed q 0 listener running hk rfl
      have h₃ : Step q' (q'.goOn ⟨listener, .resolved⟩) :=
        Step.goOn q' 0 _ running (List.getElem?_set_self (List.getElem?_eq_some_iff.1 hk).1)
      exact ⟨_, ((Relation.ReflTransGen.single h₁).tail h₂).tail h₃, Option.some_ne_none 0, rfl, rfl, rfl⟩
  · exact ⟨p, Relation.ReflTransGen.refl, running, rfl, rfl, rfl⟩

/-- An accepted request can be answered exactly as long as the process runs, by its own steps and in whatever state the
connection and the listeners are; the process exits after a signal only, and then it can do so at any moment, without
another step of a request. -/
theorem lifecycle (hp : Process.Reachable P db p) :
    (∀ i < p.world.tasks.length,
      (∃ p', Reaches p p' ∧ OnlyRequest i p p' ∧ i ∈ p'.answered) ↔ i ∈ p.answered ∨ p.exitCode = none) ∧
      ((∃ p', Reaches p p' ∧ p'.exitCode ≠ none ∧ p'.world = p.world ∧ p'.answered = p.answered ∧
        p'.signalled = p.signalled) ↔ p.signalled ≠ none) := by
  refine ⟨fun i hi => ⟨?_, ?_⟩, ?_, exists_exit_of_signalled hp⟩
  · rintro ⟨p', hreach, -, hanswered⟩
    by_cases running : p.exitCode = none
    · exact Or.inr running
    · rw [eq_of_exited running hreach] at hanswered
      exact Or.inl hanswered
  · rintro (hanswered | running)
    · exact ⟨p, Relation.ReflTransGen.refl, ⟨fun _ _ => rfl, fun _ _ => Iff.rfl, rfl, rfl, rfl, rfl, rfl, rfl⟩,
        hanswered⟩
    · exact exists_answer hp running hi
  · rintro ⟨p', hreach, hexit, -, -, hsignalled⟩
    rw [← hsignalled]
    exact (Reachable.signalled (Relation.ReflTransGen.trans hp hreach)).exit hexit

set_option maxRecDepth 4000 in
/-- A signal between the read and the write of an update: the update may still be answered, and the process may exit. -/
theorem lifecycle_half_done : ∃ p, Process.Reachable referencePlatform (sampleStore .pending) p ∧
    p.world.tasks.length = 1 ∧ p.answered = [] ∧ p.exitCode = none ∧ p.signalled ≠ none ∧
    (∀ i < p.world.tasks.length,
      (∃ p', Reaches p p' ∧ OnlyRequest i p p' ∧ i ∈ p'.answered) ↔ i ∈ p.answered ∨ p.exitCode = none) ∧
      ((∃ p', Reaches p p' ∧ p'.exitCode ≠ none ∧ p'.world = p.world ∧ p'.answered = p.answered ∧
        p'.signalled = p.signalled) ↔ p.signalled ≠ none) := by
  obtain ⟨w, hw, hq⟩ := exists_run (sampleStore .pending) halfDoneUpdate (fun w => w.tasks.length = 1) (by decide)
  let p : Process referencePlatform := { start referencePlatform (sampleStore .pending) with world := w }
  have hp : Process.Reachable referencePlatform (sampleStore .pending) p.signal :=
    (reachable_of_world hw).tail (Step.signal p rfl)
  exact ⟨p.signal, hp, of_decide_eq_true hq, rfl, rfl, Option.some_ne_none _, lifecycle hp⟩

end Process

end ShipmentManager
