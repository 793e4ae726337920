import ShipmentManager.Database
import ShipmentManager.Reference

/-!
# Shutdown

The process around the server: its requests, the database connection, and the handlers of SIGTERM and SIGINT.  Two
listeners run on a signal: the one that the `Database` constructor registers, and `gracefulShutdown`.  Both await
`disconnect` and nothing else, so they wait for no request; a shutdown cuts no request exactly when none is open at the
signal (`shutdown_waits_iff`).
-/

namespace ShipmentManager

open Interleaving

inductive Listener where
  | database
  | gracefulShutdown
  deriving DecidableEq

/-- A listener that has run up to its `await`. -/
structure Handler where
  listener : Listener
  call : DisconnectCall
  deriving DecidableEq

structure Process (P : Platform) where
  world : ServerWorld P
  /-- The requests whose response has been sent. -/
  answered : List Nat
  listening : Bool
  /-- `server.close` has been called on a closed server, and has yet to call back with the error. -/
  closeFailed : Bool
  database : Database
  handlers : List Handler
  /-- The number of requests that had been accepted at the first signal. -/
  signalled : Option Nat
  exitCode : Option Nat

namespace Process

variable {P : Platform}

/-- The process when the server has started. -/
def start (P : Platform) (db : Db) : Process P where
  world := World.init db
  answered := []
  listening := true
  closeFailed := false
  database := ⟨1, .connected, false⟩
  handlers := []
  signalled := none
  exitCode := none

/-- `server.close`; on a server that is closed it will call back with an error. -/
def serverClose (p : Process P) : Process P :=
  { p with listening := false, closeFailed := p.closeFailed || !p.listening }

def awaitDisconnect (p : Process P) (listener : Listener) : Process P :=
  let (database, call) := p.database.disconnect
  { p with database := database, handlers := p.handlers ++ [⟨listener, call⟩] }

/-- `gracefulShutdown`, up to its `await`. -/
def gracefulShutdown (p : Process P) : Process P := p.serverClose.awaitDisconnect .gracefulShutdown

def exit (p : Process P) (code : Nat) : Process P := { p with exitCode := some code }

/-- A signal: the listeners run one after the other, the one of the `Database` constructor first. -/
def signal (p : Process P) : Process P :=
  { (p.awaitDisconnect .database).gracefulShutdown with
    signalled := p.signalled.or (some p.world.tasks.length) }

/-- A listener goes on when its call is settled. -/
def goOn (p : Process P) (h : Handler) : Process P :=
  match h.call, h.listener with
  | .closing, _ => p
  | .resolved, _ => p.exit 0
  | .rejected, .gracefulShutdown => p.exit 1
  -- uncaught, so an `unhandledRejection`: the listener of `setupErrorListeners` runs first, and it exits
  | .rejected, .database => p.exit 1

/-- One step of the process. -/
inductive Step : Process P → Process P → Prop where
  | request (p : Process P) (w : ServerWorld P) (running : p.exitCode = none)
      (h : Interleaving.Step (p.database.Executes P.mongo P.model) (app P) p.world w) : Step p { p with world := w }
  | respond (p : Process P) (i : Nat) (t : Task Command Command.Answer (Arrival P) HttpResponse)
      (response : HttpResponse) (running : p.exitCode = none) (task : p.world.tasks[i]? = some t)
      (done : t.prog = .done response) : Step p { p with answered := i :: p.answered }
  | event (p : Process P) (e : ConnectionEvent) (running : p.exitCode = none) :
      Step p { p with database := p.database.on e }
  | signal (p : Process P) (running : p.exitCode = none) : Step p p.signal
  | closed (p : Process P) (k : Nat) (listener : Listener) (running : p.exitCode = none)
      (handler : p.handlers[k]? = some ⟨listener, .closing⟩) (closed : p.database.readyState = .disconnected) :
      Step p { p with database := p.database.disconnected, handlers := p.handlers.set k ⟨listener, .resolved⟩ }
  | closeRejected (p : Process P) (k : Nat) (listener : Listener) (running : p.exitCode = none)
      (handler : p.handlers[k]? = some ⟨listener, .closing⟩) :
      Step p { p with handlers := p.handlers.set k ⟨listener, .rejected⟩ }
  | goOn (p : Process P) (k : Nat) (h : Handler) (running : p.exitCode = none) (handler : p.handlers[k]? = some h) :
      Step p (p.goOn h)
  | closeCallback (p : Process P) (running : p.exitCode = none) (failed : p.closeFailed = true) : Step p (p.exit 1)

/-- The states that a run can reach from a state. -/
abbrev Reaches (p p' : Process P) : Prop := Relation.ReflTransGen Step p p'

variable (P) in
/-- The states that the process can reach from its start on a store. -/
abbrev Reachable (db : Db) (p : Process P) : Prop := Reaches (start P db) p

theorem signal_eq (p : Process P) : ∃ closeFailed database handlers, p.signal =
    { p with
      listening := false
      closeFailed := closeFailed
      database := database
      handlers := handlers
      signalled := p.signalled.or (some p.world.tasks.length) } := by
  exact ⟨_, _, _, rfl⟩

theorem goOn_cases (p : Process P) (h : Handler) : p.goOn h = p ∨ ∃ code, p.goOn h = p.exit code := by
  obtain ⟨listener, call⟩ := h
  cases call with
  | closing => exact Or.inl rfl
  | resolved => exact Or.inr ⟨0, rfl⟩
  | rejected => cases listener <;> exact Or.inr ⟨1, rfl⟩

/-- Every answered request has run to its end. -/
def AnsweredDone (p : Process P) : Prop :=
  ∀ i ∈ p.answered, ∃ t response, p.world.tasks[i]? = some t ∧ t.prog = .done response

private theorem task_of_step {exec : (c : Command) → Db → c.Answer → Db → Prop} {w w' : ServerWorld P}
    (h : Interleaving.Step exec (app P) w w') {i : Nat} {t : Task Command Command.Answer (Arrival P) HttpResponse}
    {response : HttpResponse} (ht : w.tasks[i]? = some t) (hdone : t.prog = .done response) :
    w'.tasks[i]? = some t := by
  cases h with
  | arrive q => exact List.getElem?_append_left (List.getElem?_eq_some_iff.1 ht).1 ▸ ht
  | perform j t' e q ht' hn hb hx =>
    by_cases hij : j = i
    · subst hij
      rw [ht] at ht'
      cases ht'
      rw [hdone] at hn
      cases hn
    · exact (List.getElem?_set_ne hij).trans ht

theorem Step.answeredDone {p p' : Process P} (hs : Step p p') (h : p.AnsweredDone) : p'.AnsweredDone := by
  cases hs with
  | request w running hw =>
    intro i hi
    obtain ⟨t, response, ht, hdone⟩ := h i hi
    exact ⟨t, response, task_of_step hw ht hdone, hdone⟩
  | respond i t response running task done =>
    intro j hj
    rcases List.mem_cons.1 hj with rfl | hj
    · exact ⟨t, response, task, done⟩
    · exact h j hj
  | signal running =>
    obtain ⟨_, _, _, he⟩ := signal_eq p
    rw [he]
    exact h
  | goOn k handler running hk =>
    rcases goOn_cases p handler with he | ⟨_, he⟩ <;> rw [he] <;> exact h
  | event e running => exact h
  | closed k listener running hk closed => exact h
  | closeRejected k listener running hk => exact h
  | closeCallback running failed => exact h

theorem Reachable.answeredDone {db : Db} {p : Process P} (hp : Process.Reachable P db p) : p.AnsweredDone := by
  induction hp with
  | refl =>
    intro i hi
    cases hi
  | tail _ hs ih => exact hs.answeredDone ih

/-- The process after a signal at which no request was open. -/
structure Drained (n : Nat) (p : Process P) : Prop where
  signalled : p.signalled = some n
  listening : p.listening = false
  answered : ∀ i < n, i ∈ p.answered
  done : p.AnsweredDone

theorem Drained.step {n : Nat} {p p' : Process P} (h : Drained n p) (hs : Step p p') : Drained n p' := by
  have hdone := hs.answeredDone h.done
  obtain ⟨signalled, listening, answered, -⟩ := h
  cases hs with
  | respond i t response running task done =>
    exact ⟨signalled, listening, fun j hj => List.mem_cons_of_mem _ (answered j hj), hdone⟩
  | signal running =>
    obtain ⟨_, _, _, he⟩ := signal_eq p
    rw [he] at hdone ⊢
    exact ⟨by simp [signalled], rfl, answered, hdone⟩
  | goOn k handler running hk =>
    rcases goOn_cases p handler with he | ⟨_, he⟩ <;> rw [he] at hdone ⊢
    · exact ⟨signalled, listening, answered, hdone⟩
    · exact ⟨signalled, listening, answered, hdone⟩
  | request w running hw => exact ⟨signalled, listening, answered, hdone⟩
  | event e running => exact ⟨signalled, listening, answered, hdone⟩
  | closed k listener running hk closed => exact ⟨signalled, listening, answered, hdone⟩
  | closeRejected k listener running hk => exact ⟨signalled, listening, answered, hdone⟩
  | closeCallback running failed => exact ⟨signalled, listening, answered, hdone⟩

/-- A run of the server is one of the process, as long as nothing happens to the connection. -/
theorem reachable_of_world {db : Db} {w : ServerWorld P} (h : ShipmentManager.Reachable P db w) :
    Process.Reachable P db { start P db with world := w } := by
  induction h with
  | refl => exact Relation.ReflTransGen.refl
  | @tail w w' _ hs ih =>
    have hopen : ∀ c s r s', Db.Executes P.mongo P.model c s r s' →
        (start P db).database.Executes P.mongo P.model c s r s' := fun c s r s' hx => Or.inl ⟨nofun, hx⟩
    exact ih.tail (Step.request { start P db with world := w } w' rfl (hs.mono hopen))

/-- A `PUT` between its read and its write. -/
def halfDoneUpdate : List (Move (Arrival referencePlatform) Choice) :=
  [.arrive (putStatus 1 .cancelled), .perform 0 false {}]

end Process

end ShipmentManager
