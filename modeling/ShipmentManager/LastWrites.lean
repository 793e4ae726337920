import ShipmentManager.Atomicity

/-!
# What a read returns

A write of a shipment answers with the shipment as it is stored, so a run can be followed through its responses: a read
returns what the last write before it was answered with, and not found after a deletion (`read_returns_last_write`).
Nothing is assumed of the run, and the writes may be those of any other requests.
-/

namespace ShipmentManager

open Interleaving

/-- What a command wrote: the identifier, and the shipment as it is stored then. -/
def written? : (c : Command) → c.Answer → Option (ObjectId × Option Shipment)
  | .save _, .ok s => some (s._id, some s)
  | .findByIdAndUpdate _ _, .ok (some s) => some (s._id, some s)
  | .findByIdAndDelete _, .ok (some s) => some (s._id, none)
  | _, _ => none

/-- The event wrote the shipment with the identifier. -/
def WritesTo (id : ObjectId) (e : DbEvent) : Prop := (written? e.cmd e.answer).map Prod.fst = some id

/-- What one step makes of the stored shipments. -/
theorem Effect.get? {c : Command} {r : c.Answer} {db db' : Db} (h : Effect c r db db') (id : ObjectId) :
    db'.get? id =
      match written? c r with
      | some (id', s) => if id' = id then s else db.get? id
      | none => db.get? id := by
  cases h with
  | inserted data s _ _ fresh times sent body hi => exact hi.get? id
  | updated text data u s _ _ sent body hu =>
    rw [hu.get?, ← Db.id_of_get? hu.present]
    rfl
  | deleted text s _ _ hd =>
    rw [hd.get?, ← Db.id_of_get? hd.present]
    rfl
  | _ => rfl

theorem Effect.get?_of_not_writesTo {c : Command} {r : c.Answer} {db db' : Db} (h : Effect c r db db') {id : ObjectId}
    (hw : ¬ WritesTo id ⟨c, r, db, db'⟩) : db'.get? id = db.get? id := by
  rw [h.get? id]
  unfold WritesTo at hw
  cases hc : written? c r with
  | none => rfl
  | some p =>
    have hne : p.1 ≠ id := fun hid => hw (by rw [hc, ← hid]; rfl)
    simp only [if_neg hne]

variable {P : Platform}

/-- The response of the write that stored a shipment, or removed it. -/
inductive WriteResponse (id : ObjectId) : Option Shipment → HttpResponse → Prop where
  | created (s : Shipment) (h : s._id = id) : WriteResponse id (some s) (answer 201 "Shipment created successfully" s)
  | updated (s : Shipment) (h : s._id = id) : WriteResponse id (some s) (answer 200 "Shipment updated successfully" s)
  | deleted (s : Shipment) (h : s._id = id) : WriteResponse id none (answer 200 "Shipment deleted successfully" s)

/-- A request that writes is answered with what it wrote. -/
theorem OwnStep.writeResponse {p : Plan} {c : Command} {r : c.Answer} {q : Prog Command Command.Answer HttpResponse}
    (h : OwnStep P p c r q) {id : ObjectId} {s : Option Shipment} (hw : written? c r = some (id, s)) :
    ∃ response, q = .done response ∧ WriteResponse id s response := by
  cases h with
  | create data r =>
    rcases r with e | s
    · cases hw
    · cases hw
      exact ⟨_, rfl, WriteResponse.created s rfl⟩
  | write text data r =>
    rcases r with e | _ | s
    · cases hw
    · cases hw
    · cases hw
      exact ⟨_, rfl, WriteResponse.updated s rfl⟩
  | delete text r =>
    rcases r with e | _ | s
    · cases hw
    · cases hw
    · cases hw
      exact ⟨_, rfl, WriteResponse.deleted s rfl⟩
  | _ => cases hw

/-- The response to a read that found a shipment, or none. -/
def readResponse : Option Shipment → HttpResponse
  | some s => answer 200 "Shipment retrieved successfully" s
  | none => notFoundResponse

theorem finish_read (s : Option Shipment) :
    finish P 200 "Shipment retrieved successfully" (.ok s) = readResponse s := by
  cases s with
  | none => exact errorHandler_notFound _
  | some s => rfl

/-- The step `n` of a run, a read of the shipment, and its response: that of the last write of the shipment before it,
or of the shipment that was there at first. -/
inductive ReadsLast (db : Db) (w : ServerWorld P) (id : ObjectId) (n : Nat) : HttpResponse → Prop where
  | initial (h : ∀ k e, k < n → w.events[k]? = some e → ¬ WritesTo id e) :
      ReadsLast db w id n (readResponse (db.get? id))
  | last (m j : Nat) (e : DbEvent) (t : Task Command Command.Answer (Arrival P) HttpResponse) (s : Option Shipment)
      (response : HttpResponse) (hm : m < n) (hlog : w.log[m]? = some (j, e))
      (hwritten : written? e.cmd e.answer = some (id, s)) (ht : w.tasks[j]? = some t) (hdone : t.prog = .done response)
      (hresponse : WriteResponse id s response)
      (h : ∀ k e', m < k → k < n → w.events[k]? = some e' → ¬ WritesTo id e') : ReadsLast db w id n (readResponse s)

section Run

variable {db : Db} {w : ServerWorld P}

/-- A shipment is stored as the last write before the moment was answered, or as it was at first. -/
private theorem readsLast (hw : Reachable P db w) (id : ObjectId) (n : Nat) :
    ReadsLast db w id n (readResponse ((stateAt db w.events n).get? id)) := by
  have hchain := (Interleaving.Reachable.sound hw).chained
  have hstep : ∀ e ∈ w.events, ¬ WritesTo id e → e.after.get? id = e.before.get? id := fun e he hn =>
    (Reachable.effect hw he).get?_of_not_writesTo hn
  rcases hchain.last_change (fun db => db.get? id) (WritesTo id) hstep n with
    ⟨hvalue, hnone⟩ | ⟨m, e, hm, he, hwrites, hvalue, hnone⟩
  · rw [hvalue]
    exact ReadsLast.initial hnone
  · obtain ⟨⟨id', s⟩, hwritten, rfl⟩ := Option.map_eq_some_iff.1 hwrites
    obtain ⟨j, hlog⟩ := World.log_getElem? he
    obtain ⟨t, p, ht, -, -, -, hown⟩ := Reachable.task_step hw (List.mem_of_getElem? hlog)
    obtain ⟨response, hdone, hresponse⟩ := hown.writeResponse hwritten
    have hafter : e.after.get? id' = s := by
      rw [(Reachable.effect hw (List.mem_of_getElem? he)).get? id', hwritten]
      exact if_pos rfl
    rw [hvalue, hafter]
    exact ReadsLast.last m j e t s response hm hlog hwritten ht hdone hresponse hnone

/-- A finished read has read at one moment, and is answered as the last write before it was, whatever requests the run
interleaves. -/
theorem read_returns_last_write (hw : Reachable P db w) {i : Nat}
    {t : Task Command Command.Answer (Arrival P) HttpResponse} (ht : w.tasks[i]? = some t) {text : Text}
    (hplan : plan P t.origin = .ok (.get text)) {response : HttpResponse} (hdone : t.prog = .done response) :
    ∃ n e, w.log[n]? = some (i, e) ∧ e.cmd = .findById text ∧ ReadsLast db w (hexValue text) n response := by
  have hruns := (Interleaving.Reachable.sound hw).runs i t ht
  rw [app_eq, hplan, hdone] at hruns
  rcases runs_get hruns with ⟨-, hq⟩ | ⟨r, s, s', hown, hq⟩
  · cases hq
  cases hq
  have hmem : (i, (⟨.findById text, r, s, s'⟩ : DbEvent)) ∈ w.log :=
    World.mem_own.1 (hown ▸ List.mem_singleton_self _)
  obtain ⟨n, hn⟩ := List.getElem?_of_mem hmem
  refine ⟨n, _, hn, rfl, ?_⟩
  obtain ⟨hbefore, -, heff⟩ := Reachable.around hw hn
  replace heff : Effect (.findById text) r s s' := heff
  have hlast := readsLast hw (hexValue text) n
  rw [hbefore] at hlast
  cases heff with
  | found => exact (finish_read (P := P) (s.get? (hexValue text))).symm ▸ hlast

end Run

def getRequest (id : ObjectId) : Arrival referencePlatform := sampleRequest (.getById (objectIdToText id)) .empty

/-- The path parameter of a finished read, and its response. -/
def finishedRead? (t : Task Command Command.Answer (Arrival referencePlatform) HttpResponse) :
    Option (Text × HttpResponse) :=
  match plan referencePlatform t.origin with
  | .ok (.get text) =>
    match t.prog with
    | .done response => some (text, response)
    | .call _ _ => none
    | .both _ _ _ => none
  | _ => none

private theorem of_finishedRead? {t : Task Command Command.Answer (Arrival referencePlatform) HttpResponse}
    {text : Text} {response : HttpResponse} (h : finishedRead? t = some (text, response)) :
    plan referencePlatform t.origin = .ok (.get text) ∧ t.prog = .done response := by
  unfold finishedRead? at h
  split at h
  · rename_i text' hplan
    split at h
    · rename_i response' hdone
      cases h
      exact ⟨hplan, hdone⟩
    · cases h
    · cases h
  · cases h

set_option maxRecDepth 4000 in
/-- A read that starts between the two steps of an update, and reads after them. -/
theorem read_returns_last_write_updated : ∃ w n e, Reachable referencePlatform (sampleStore .pending) w ∧
    w.log[n]? = some (1, e) ∧ e.cmd = .findById (objectIdToText 1) ∧ ReadsLast (sampleStore .pending) w 1 n
      (readResponse (some { sampleShipment 1 .inTransit with updatedAt := 7 })) := by
  obtain ⟨w, hw, hq⟩ := exists_run (sampleStore .pending) [.arrive (putStatus 1 .inTransit), .perform 0 false {},
    .arrive (getRequest 1), .perform 0 false { now := 7 }, .perform 1 false {}] (fun w =>
      (w.tasks[1]?.bind finishedRead?) = some (objectIdToText 1,
        readResponse (some { sampleShipment 1 .inTransit with updatedAt := 7 }))) (by decide)
  obtain ⟨t, ht, hread⟩ := Option.bind_eq_some_iff.1 (of_decide_eq_true hq)
  obtain ⟨hplan, hdone⟩ := of_finishedRead? hread
  obtain ⟨n, e, hlog, hcmd, hlast⟩ := read_returns_last_write hw ht hplan hdone
  exact ⟨w, n, e, hw, hlog, hcmd, hlast⟩

end ShipmentManager
