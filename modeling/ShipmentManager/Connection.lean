import Mathlib.Logic.Relation
import ShipmentManager.Database

/-!
# The copy of the connection state

`connect` and `disconnect` may overlap, and the events of the driver come in between.  Whatever the order, the copy that
the `Database` object keeps agrees with an open connection as long as no 0 is written over one: the `error` listener
writes it without a look at the connection, and so does the code after an `await` when the connection has opened again
in the meantime (`flag_tracks`).  A copy that is lost stays so until `connect` is called once more: the probe fails, and
`disconnect` returns without having closed anything.
-/

namespace ShipmentManager

inductive Method where
  | connect
  | disconnect
  deriving DecidableEq

/-- How Mongoose settles a promise. -/
inductive Outcome where
  | fulfilled
  | rejected
  deriving DecidableEq

/-- A call that has run up to its `await`, and the outcome of what it awaits. -/
structure PendingCall where
  method : Method
  outcome : Option Outcome
  deriving DecidableEq

/-- The code after the `await` will write 0. -/
def PendingCall.Clears (call : PendingCall) : Prop :=
  call = ⟨.connect, some .rejected⟩ ∨ call = ⟨.disconnect, some .fulfilled⟩

/-- The `Database` object with its calls. -/
structure Connection where
  database : Database
  pending : List PendingCall
  /-- The call that the last step has ended without an error. -/
  resolved : Option Method
  deriving DecidableEq

namespace Connection

def start : Connection := ⟨⟨0, .disconnected, false⟩, [], none⟩

def on (c : Connection) (e : ConnectionEvent) : Connection := { c with database := c.database.on e, resolved := none }

def connect (c : Connection) : Connection :=
  match c.database.connect with
  | (d, .resolved) => { c with database := d, resolved := some .connect }
  | (d, .opening) => ⟨d, c.pending ++ [⟨.connect, none⟩], none⟩

def disconnect (c : Connection) : Connection :=
  match c.database.disconnect with
  | (d, .resolved) => { c with database := d, resolved := some .disconnect }
  | (d, .closing) => ⟨d, c.pending ++ [⟨.disconnect, none⟩], none⟩
  | (d, .rejected) => { c with database := d, resolved := none }

/-- When Mongoose settles a promise: one of `mongoose.connect` by the connection that it has opened or failed to open,
one of `close` once the connection is closed, or by an error at any time. -/
def Settles (c : Connection) : Method → Outcome → Prop
  | .connect, .fulfilled => c.database.readyState = .connected
  | .connect, .rejected => c.database.readyState ≠ .connected
  | .disconnect, .fulfilled => c.database.readyState ≠ .connected
  | .disconnect, .rejected => True

/-- The `k`-th pending call goes on after its `await`. -/
def goOn (c : Connection) (k : Nat) : Method → Outcome → Connection
  | .connect, .fulfilled => ⟨c.database.connected, c.pending.eraseIdx k, some .connect⟩
  | .connect, .rejected => ⟨c.database.connectFailed, c.pending.eraseIdx k, none⟩
  | .disconnect, .fulfilled => ⟨c.database.disconnected, c.pending.eraseIdx k, some .disconnect⟩
  -- the error is thrown on, and the copy stays as it is
  | .disconnect, .rejected => ⟨c.database, c.pending.eraseIdx k, none⟩

/-- A step of a call: it starts, what it awaits is settled, or it goes on, at any time after that. -/
inductive CallStep : Connection → Connection → Prop where
  | connect (c : Connection) : CallStep c c.connect
  | disconnect (c : Connection) : CallStep c c.disconnect
  | settle (c : Connection) (k : Nat) (method : Method) (outcome : Outcome)
      (call : c.pending[k]? = some ⟨method, none⟩) (settles : c.Settles method outcome) :
      CallStep c { c with pending := c.pending.set k ⟨method, some outcome⟩, resolved := none }
  | goOn (c : Connection) (k : Nat) (method : Method) (outcome : Outcome)
      (call : c.pending[k]? = some ⟨method, some outcome⟩) : CallStep c (c.goOn k method outcome)

/-- A step of a call, or an event of the driver that is allowed. -/
inductive Step (allowed : Connection → ConnectionEvent → Prop) : Connection → Connection → Prop where
  | event (c : Connection) (e : ConnectionEvent) (h : allowed c e) : Step allowed c (c.on e)
  | call {c c' : Connection} (h : CallStep c c') : Step allowed c c'

/-- The states that a run with these events can reach. -/
abbrev Reachable (allowed : Connection → ConnectionEvent → Prop) (c : Connection) : Prop :=
  Relation.ReflTransGen (Step allowed) start c

/-- The copy tracks the connection. -/
structure Tracks (c : Connection) : Prop where
  isConnected : c.pending = [] → c.database.readyState = .connected → c.database.isConnected = true
  closed : c.resolved = some .disconnect → c.database.readyState ≠ .connected

/-- The events that no 0 is written after: an error of a connection that is not open, and an opening while no call has
still to write 0.  As the code after an `await` runs before the next event is delivered, only the first is a restriction
on Mongoose. -/
def Harmless (c : Connection) : ConnectionEvent → Prop
  | .connected => ∀ call ∈ c.pending, ¬ call.Clears
  | .error => c.database.readyState ≠ .connected
  | .disconnected => True

/-! ### The copy of an open connection -/

/-- What every step preserves, calls in progress or not. -/
structure Kept (c : Connection) : Prop where
  flag : c.database.readyState = .connected → c.database.connectionState = 1
  clears : ∀ call ∈ c.pending, call.Clears → c.database.readyState ≠ .connected
  closed : c.resolved = some .disconnect → c.database.readyState ≠ .connected

theorem kept_start : Kept start := ⟨nofun, nofun, nofun⟩

theorem Kept.tracks {c : Connection} (h : Kept c) : c.Tracks := by
  refine ⟨fun _ hopen => ?_, h.closed⟩
  simp [Database.isConnected, h.flag hopen, hopen]

theorem Kept.on {c : Connection} (h : Kept c) {e : ConnectionEvent} (he : c.Harmless e) : Kept (c.on e) := by
  cases e with
  | connected => exact ⟨fun _ => rfl, fun call hcall hclears => absurd hclears (he call hcall), nofun⟩
  | error => exact ⟨fun hopen => absurd hopen he, h.clears, nofun⟩
  | disconnected => exact ⟨nofun, fun _ _ _ => nofun, nofun⟩

theorem Kept.connect {c : Connection} (h : Kept c) : Kept c.connect := by
  unfold Connection.connect Database.connect
  split_ifs with hflag
  · exact ⟨h.flag, h.clears, nofun⟩
  · have hclosed : c.database.readyState ≠ .connected := fun hopen => hflag (h.flag hopen)
    have hopening : c.database.openUri.readyState = .connecting := if_neg hclosed
    refine ⟨fun hopen => ?_, fun call _ _ => ?_, nofun⟩
    · rw [hopening] at hopen
      cases hopen
    · rw [hopening]
      nofun

theorem Kept.disconnect {c : Connection} (h : Kept c) : Kept c.disconnect := by
  unfold Connection.disconnect Database.disconnect
  split_ifs with hflag
  -- the call returns at once, and trusts the copy
  · refine ⟨h.flag, h.clears, fun _ hopen => ?_⟩
    have hone := h.flag hopen
    omega
  · have hclosing : c.database.close.readyState ≠ .connected := by
      show (if c.database.readyState = .connected then ReadyState.disconnecting else c.database.readyState) ≠ .connected
      split_ifs with hopen
      · nofun
      · exact hopen
    exact ⟨fun hopen => absurd hopen hclosing, fun _ _ _ => hclosing, nofun⟩

theorem Kept.settle {c : Connection} (h : Kept c) (k : Nat) {method : Method} {outcome : Outcome}
    (settles : c.Settles method outcome) :
    Kept { c with pending := c.pending.set k ⟨method, some outcome⟩, resolved := none } := by
  refine ⟨h.flag, fun call hcall hclears => ?_, nofun⟩
  rcases List.mem_or_eq_of_mem_set hcall with hold | rfl
  · exact h.clears call hold hclears
  -- a promise after which 0 is written is settled by a connection that is not open
  · rcases hclears with hconnect | hdisconnect
    · cases hconnect
      exact settles
    · cases hdisconnect
      exact settles

theorem Kept.goOn {c : Connection} (h : Kept c) {k : Nat} {method : Method} {outcome : Outcome}
    (call : c.pending[k]? = some ⟨method, some outcome⟩) : Kept (c.goOn k method outcome) := by
  have hmem := List.mem_of_getElem? call
  have hrest : ∀ call ∈ c.pending.eraseIdx k, call.Clears → c.database.readyState ≠ .connected :=
    fun call hcall => h.clears call (List.mem_of_mem_eraseIdx hcall)
  cases method with
  | connect =>
    cases outcome with
    | fulfilled => exact ⟨fun _ => rfl, hrest, nofun⟩
    | rejected => exact ⟨fun hopen => absurd hopen (h.clears _ hmem (Or.inl rfl)), hrest, nofun⟩
  | disconnect =>
    cases outcome with
    | fulfilled =>
      have hclosed := h.clears _ hmem (Or.inr rfl)
      exact ⟨fun hopen => absurd hopen hclosed, hrest, fun _ => hclosed⟩
    | rejected => exact ⟨h.flag, hrest, nofun⟩

theorem Kept.callStep {c c' : Connection} (h : Kept c) (hs : CallStep c c') : Kept c' := by
  cases hs with
  | connect => exact h.connect
  | disconnect => exact h.disconnect
  | settle k method outcome call settles => exact h.settle k settles
  | goOn k method outcome call => exact h.goOn call

theorem Kept.calls {c c' : Connection} (h : Kept c) (hs : Relation.ReflTransGen CallStep c c') : Kept c' := by
  induction hs with
  | refl => exact h
  | tail _ hs ih => exact ih.callStep hs

theorem Reachable.kept {c : Connection} (hc : Reachable Harmless c) : Kept c := by
  induction hc with
  | refl => exact kept_start
  | tail _ hs ih =>
    cases hs with
    | event e he => exact ih.on he
    | call hs => exact ih.callStep hs

/-! ### A lost copy -/

/-- Once the copy of an open connection is 0, `disconnect` leaves the connection open. -/
theorem not_tracks_disconnect {c : Connection} (hflag : c.database.connectionState = 0)
    (hopen : c.database.readyState = .connected) : ¬ c.disconnect.Tracks := by
  intro h
  have heq : c.disconnect = { c with resolved := some .disconnect } := by
    simp [Connection.disconnect, Database.disconnect, hflag]
  rw [heq] at h
  exact h.closed rfl hopen

/-- A call that clears the copy of an open connection loses it. -/
theorem exists_cleared {c : Connection} {call : PendingCall} (hcall : call ∈ c.pending) (hclears : call.Clears) :
    ∃ c', CallStep c c' ∧ c'.database = { c.database with connectionState := 0 } := by
  obtain ⟨k, hk⟩ := List.mem_iff_getElem?.1 hcall
  rcases hclears with rfl | rfl
  · exact ⟨_, CallStep.goOn c k .connect .rejected hk, rfl⟩
  · exact ⟨_, CallStep.goOn c k .disconnect .fulfilled hk, rfl⟩

/-- After any other event the calls may go on so that the copy is lost. -/
theorem exists_lost {c : Connection} {e : ConnectionEvent} (h : ¬ c.Harmless e) :
    ∃ c', Relation.ReflTransGen CallStep (c.on e) c' ∧ ¬ c'.Tracks := by
  cases e with
  | connected =>
    simp only [Harmless, not_forall, not_not] at h
    obtain ⟨call, hcall, hclears⟩ := h
    have hpending : call ∈ (c.on .connected).pending := hcall
    obtain ⟨c', hs, hd⟩ := exists_cleared hpending hclears
    refine ⟨c'.disconnect, (Relation.ReflTransGen.single hs).tail (CallStep.disconnect c'), ?_⟩
    exact not_tracks_disconnect (by rw [hd]) (by rw [hd]; rfl)
  | error =>
    have hopen : c.database.readyState = .connected := not_not.1 h
    refine ⟨(c.on .error).disconnect, Relation.ReflTransGen.single (CallStep.disconnect _), ?_⟩
    exact not_tracks_disconnect rfl hopen
  | disconnected => exact absurd trivial h

/-- In a run of harmless events the copy tracks the connection, however the calls overlap; and an event that may come
next is harmless exactly when the copy still tracks the connection after it, whatever the calls do then. -/
theorem flag_tracks {c : Connection} (hc : Reachable Harmless c) :
    c.Tracks ∧ ∀ e, (∀ c', Relation.ReflTransGen CallStep (c.on e) c' → c'.Tracks) ↔ c.Harmless e := by
  refine ⟨hc.kept.tracks, fun e => ⟨fun h => ?_, fun he c' hs => ((hc.kept.on he).calls hs).tracks⟩⟩
  by_contra hharm
  obtain ⟨c', hs, hlost⟩ := exists_lost hharm
  exact hlost (h c' hs)

/-- `connect` has opened the connection. -/
def opened : Connection := ⟨⟨1, .connected, false⟩, [], some .connect⟩

theorem opened_reachable : Reachable Harmless opened := by
  have h₁ : Reachable Harmless start.connect := Relation.ReflTransGen.single (Step.call (CallStep.connect start))
  have hpending : start.connect.Harmless .connected := by
    intro call hcall hclears
    rw [List.mem_singleton.1 hcall] at hclears
    rcases hclears with hc | hc <;> cases hc
  have h₂ := h₁.tail (Step.event start.connect .connected hpending)
  have h₃ := h₂.tail (Step.call (CallStep.settle (start.connect.on .connected) 0 .connect .fulfilled rfl rfl))
  exact h₃.tail (Step.call (CallStep.goOn _ 0 .connect .fulfilled rfl))

theorem flag_tracks_opened :
    opened.Tracks ∧ ¬ ∀ c', Relation.ReflTransGen CallStep (opened.on .error) c' → c'.Tracks := by
  refine ⟨(flag_tracks opened_reachable).1, fun h => ?_⟩
  exact ((flag_tracks opened_reachable).2 .error).1 h rfl

/-- The driver reports an error of the connection, which stays open. -/
theorem flag_tracks_fails : ¬ ∀ c, Reachable (fun _ _ => True) c → c.Tracks := by
  intro h
  have hopened : Reachable (fun _ _ => True) opened := by
    refine Relation.ReflTransGen.mono (fun c c' hs => ?_) start opened opened_reachable
    cases hs with
    | event e _ => exact Step.event c e trivial
    | call hs => exact Step.call hs
  have hlost := (h _ (hopened.tail (Step.event opened .error trivial))).isConnected rfl rfl
  cases hlost

end Connection

end ShipmentManager
