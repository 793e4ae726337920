import ShipmentManager.Linearizability

/-!
# The two lookups

A shipment is found by its identifier and by its tracking number.  In a run from the empty collection both lookups
answer with the same version of it from its creation to its deletion, and from then on its identifier leads nowhere and
its tracking number not to it (`lookups_agree`).
-/

namespace ShipmentManager

open Interleaving

variable {P : Platform}

variable (P) in
/-- The function, alone on a store, ends with this result and in no other way, and leaves the store as it is. -/
def Returns {α : Type} (f : Async α) (db : Db) (x : Except JsError α) : Prop :=
  ∀ y db', Serves (Db.Executes P.mongo P.model) f.run db y db' ↔ y = x ∧ db' = db

/-- A function that sends one command, which has one answer and changes nothing. -/
private theorem returns_call {α : Type} {f : Async α} {db : Db} {x : Except JsError α} {c : Command} {r : c.Answer}
    {k : c.Answer → Except JsError α} (hf : f.run = .call c fun r => .done (k r))
    (hexec : ∀ r' db', Db.Executes P.mongo P.model c db r' db' ↔ r' = r ∧ db' = db) (hx : k r = x) :
    Returns P f db x := by
  intro y db'
  rw [hf, serves_call]
  constructor
  · rintro ⟨r', db₁, hr, hd⟩
    obtain ⟨rfl, rfl⟩ := (hexec _ _).1 hr
    obtain ⟨rfl, rfl⟩ := (serves_done _).1 hd
    exact ⟨hx, rfl⟩
  · rintro ⟨rfl, rfl⟩
    exact ⟨r, db', (hexec _ _).2 ⟨rfl, rfl⟩, (serves_done _).2 ⟨hx.symm, rfl⟩⟩

/-- What a lookup makes of the shipment that it found. -/
def lookedUp : Option Shipment → Except JsError ShipmentResponse
  | none => .error ShipmentService.notFound
  | some s => .ok (ShipmentService.toResponse s)

theorem returns_getShipmentByTrackingNumber (db : Db) (t : Text) :
    Returns P (ShipmentService.getShipmentByTrackingNumber t) db
      (lookedUp (db.docs.find? fun s => s.trackingNumber = trim t)) := by
  obtain ⟨o⟩ := exists_oracle_any P.mongo db
  refine returns_call (c := .findOne t) (r := .ok (db.docs.find? fun s => s.trackingNumber = trim t))
    (k := fun r => r.bind lookedUp) ?_ (fun r' db' => ?_) rfl
  · show Prog.call _ _ = Prog.call _ _
    congr 1
    funext r
    rcases r with e | _ | s <;> rfl
  · constructor
    · rintro ⟨_, h⟩
      cases h
      exact ⟨rfl, rfl⟩
    · rintro ⟨rfl, rfl⟩
      exact ⟨o, rfl⟩

theorem returns_getShipmentById (db : Db) {text : Text} (hid : isObjectIdText text = true) :
    Returns P (ShipmentService.getShipmentById P text) db (lookedUp (db.get? (hexValue text))) := by
  obtain ⟨o⟩ := exists_oracle_any P.mongo db
  have hvalid : ShipmentService.validateObjectId P text = .ok () := if_pos (P.model.isValidObjectId_hex text hid)
  refine returns_call (c := .findById text) (r := .ok (db.get? (hexValue text))) (k := fun r => r.bind lookedUp) ?_
    (fun r' db' => ?_) rfl
  · unfold ShipmentService.getShipmentById
    rw [hvalid]
    show Prog.call _ _ = Prog.call _ _
    congr 1
    funext r
    rcases r with e | _ | s <;> rfl
  · constructor
    · exact executes_findById hid
    · rintro ⟨rfl, rfl⟩
      refine ⟨o, ?_⟩
      simp only [Db.exec, P.model.castObjectId_hex text hid]
      rfl

/-- A tracking number leads to the only shipment that has it. -/
theorem StoreInvariant.find?_trackingNumber {db : Db} (h : StoreInvariant db) {s : Shipment} (hs : s ∈ db.docs) :
    db.docs.find? (fun d => d.trackingNumber = s.trackingNumber) = some s := by
  cases hfind : db.docs.find? fun d => d.trackingNumber = s.trackingNumber with
  | none => simpa using List.find?_eq_none.1 hfind s hs
  | some d =>
    have hd : d.trackingNumber = s.trackingNumber := by simpa using List.find?_some hfind
    rw [h.eq_of_trackingNumber hs (List.mem_of_find?_eq_some hfind) hd]

/-- The tracking numbers of the store are trimmed. -/
def TrimmedNumbers (db : Db) : Prop := ∀ s ∈ db.docs, Trimmed s.trackingNumber

theorem Effect.trimmedNumbers {c : Command} {r : c.Answer} {db db' : Db} (h : Effect c r db db')
    (hdb : TrimmedNumbers db) : TrimmedNumbers db' := by
  cases h with
  | inserted data s _ _ fresh times sent body hi =>
    obtain ⟨draws, o, ho⟩ := sent
    intro d hd
    rw [hi.docs] at hd
    rcases List.mem_append.1 hd with hd | hd
    · exact hdb d hd
    · rw [List.mem_singleton.1 hd, (body draws o ho).trackingNumber]
      exact trim_trimmed _
  | updated text data u s _ _ sent body hu =>
    obtain ⟨o, ho⟩ := sent
    intro d' hd'
    rw [hu.docs] at hd'
    obtain ⟨d, hd, rfl⟩ := List.mem_map.1 hd'
    split
    · rw [((body o ho).identity d).trackingNumber]
      exact hdb d hd
    · exact hdb d hd
  | deleted text s _ _ hdel =>
    intro d hd
    rw [hdel.docs] at hd
    exact hdb d (List.mem_of_mem_filter hd)
  | _ => exact hdb

theorem Reachable.trimmedNumbers {w : ServerWorld P} (hw : Reachable P Db.empty w) (n : Nat) :
    TrimmedNumbers (stateAt Db.empty w.events n) :=
  (Interleaving.Reachable.sound hw).chained.invariant TrimmedNumbers
    (fun _ he => (Reachable.effect hw he).trimmedNumbers) (fun _ hs => by cases hs) n

/-- A step gives an identifier out together with its shipment. -/
theorem Effect.issued {c : Command} {r : c.Answer} {db db' : Db} (h : Effect c r db db') {id : ObjectId}
    (hid : id ∈ db'.issued) : id ∈ db.issued ∨ db'.get? id ≠ none := by
  cases h with
  | inserted data s _ _ fresh times sent body hi =>
    rw [hi.issued] at hid
    rcases List.mem_cons.1 hid with rfl | hid
    · refine Or.inr ?_
      rw [hi.get?, if_pos rfl]
      simp
    · exact Or.inl hid
  | updated id' data u s _ _ sent body hu => exact Or.inl (hu.issued ▸ hid)
  | deleted id' s _ _ hd => exact Or.inl (hd.issued ▸ hid)
  | _ => exact Or.inl hid

variable {w : ServerWorld P}

variable (P) in
/-- Both lookups of a shipment end with this result; it is looked up by any form of its identifier. -/
def BothReturn (db : Db) (id : ObjectId) (trackingNumber : Text) (x : Except JsError ShipmentResponse) : Prop :=
  Returns P (ShipmentService.getShipmentByTrackingNumber trackingNumber) db x ∧
    ∀ text, isObjectIdText text = true → hexValue text = id → Returns P (ShipmentService.getShipmentById P text) db x

/-- A deletion of the shipment committed between the two moments. -/
def DeletedBetween (w : ServerWorld P) (id : ObjectId) (m n : Nat) : Prop :=
  ∃ k e, m ≤ k ∧ k < n ∧ w.events[k]? = some e ∧ Deletes e.cmd e.answer id

section Between

variable {m n : Nat} {id : ObjectId}

/-- A shipment that was there and is gone was deleted in between. -/
private theorem deletedBetween_of_gone (hw : Reachable P Db.empty w)
    (hm : (stateAt Db.empty w.events m).get? id ≠ none) (hn : (stateAt Db.empty w.events n).get? id = none)
    (hmn : m ≤ n) : DeletedBetween w id m n := by
  have hchain := (Interleaving.Reachable.sound hw).chained
  obtain ⟨s, hs⟩ := Option.ne_none_iff_exists'.1 hm
  have hissued := (Reachable.evolves hw hmn).issued id (Db.issued_of_get? hs)
  -- the first moment at which the identifier was given out and leads nowhere
  obtain ⟨k, e, hk, he, hbefore, hafter⟩ := hchain.exists_change (n := n)
    (fun db => id ∈ db.issued → db.get? id ≠ none) (fun h => by cases h) (by simp [hissued, hn])
  obtain ⟨hb, ha⟩ := hchain.stateAt_getElem he
  have heff := Reachable.effect hw (List.mem_of_getElem? he)
  simp only [Classical.not_imp, not_not] at hafter
  have hpresent : e.before.get? id ≠ none := by
    rcases heff.issued hafter.1 with h | h
    · exact hbefore h
    · exact absurd hafter.2 h
  refine ⟨k, e, ?_, hk, he, heff.deletes hpresent hafter.2⟩
  by_contra hlt
  refine hm ?_
  exact (Reachable.evolves hw (show k + 1 ≤ m by omega)).gone id (ha ▸ hafter.1) (ha ▸ hafter.2)

/-- A deleted shipment does not come back. -/
private theorem DeletedBetween.gone (hw : Reachable P Db.empty w) (h : DeletedBetween w id m n) :
    (stateAt Db.empty w.events n).get? id = none := by
  obtain ⟨k, e, -, hk, he, hd⟩ := h
  obtain ⟨hb, ha⟩ := (Interleaving.Reachable.sound hw).chained.stateAt_getElem he
  obtain ⟨-, hpresent, hgone⟩ := (Reachable.effect hw (List.mem_of_getElem? he)).of_deletes hd
  exact Reachable.stays_gone hw (Nat.le_succ k) hk (hb ▸ hpresent) (ha ▸ hgone)

end Between

variable (P) in
/-- The identifier of a shipment is not found, in any form of it, and its tracking number does not lead to it. -/
def NeitherReturns (db : Db) (id : ObjectId) (trackingNumber : Text) : Prop :=
  (∀ text, isObjectIdText text = true → hexValue text = id →
    Returns P (ShipmentService.getShipmentById P text) db (.error ShipmentService.notFound)) ∧
  ∃ found : Option Shipment, (∀ s ∈ found, s._id ≠ id) ∧
    Returns P (ShipmentService.getShipmentByTrackingNumber trackingNumber) db (lookedUp found)

/-- In a run from the empty collection, both lookups of a shipment that was stored at one moment answer at every later
moment with the same version of it, if no deletion of it committed in between, and do not find it, if one did. -/
theorem lookups_agree (hw : Reachable P Db.empty w) {m n : Nat} (hmn : m ≤ n) {s : Shipment}
    (hs : s ∈ (stateAt Db.empty w.events m).docs) :
    (¬ DeletedBetween w s._id m n → ∃ s', SameIdentity s s' ∧
      BothReturn P (stateAt Db.empty w.events n) s._id s.trackingNumber (.ok (ShipmentService.toResponse s'))) ∧
      (DeletedBetween w s._id m n → NeitherReturns P (stateAt Db.empty w.events n) s._id s.trackingNumber) := by
  have hget := Db.mem_docs.1 hs
  have hbyNumber := returns_getShipmentByTrackingNumber (P := P) (stateAt Db.empty w.events n) s.trackingNumber
  constructor
  · intro hkept
    obtain ⟨s', hlater⟩ := Option.ne_none_iff_exists'.1 fun hgone =>
      hkept (deletedBetween_of_gone hw (by simp [hget]) hgone hmn)
    have hsame := (Reachable.evolves hw hmn).identity _ _ _ hget hlater
    have hinvariant := Reachable.storeInvariant hw storeInvariant_empty n
    have hs' : s' ∈ (stateAt Db.empty w.events n).docs :=
      Db.mem_docs.2 (by rw [Db.id_of_get? hlater]; exact hlater)
    have htrimmed : trim s.trackingNumber = s'.trackingNumber := by
      rw [← hsame.trackingNumber]
      exact Reachable.trimmedNumbers hw n s' hs'
    refine ⟨s', hsame, ?_, fun text htext hid => ?_⟩
    · rwa [htrimmed, hinvariant.find?_trackingNumber hs'] at hbyNumber
    · have hreturns := returns_getShipmentById (P := P) (stateAt Db.empty w.events n) htext
      rwa [hid, hlater] at hreturns
  · intro hdeleted
    have hgone := hdeleted.gone hw
    refine ⟨fun text htext hid => ?_, _, fun s' hfound hid => ?_, hbyNumber⟩
    · have hreturns := returns_getShipmentById (P := P) (stateAt Db.empty w.events n) htext
      rwa [hid, hgone] at hreturns
    · have hmem := Db.mem_docs.1 (List.mem_of_find?_eq_some hfound)
      rw [hid, hgone] at hmem
      cases hmem

/-- A creation, and an update of what it created. -/
def createdAndUpdated : List (Move (Arrival referencePlatform) Choice) :=
  [.arrive postRequest, .perform 0 false {}, .arrive (putStatus 0 .inTransit), .perform 1 false {}, .perform 1 false {}]

/-- The same, and then its deletion. -/
def createdAndDeleted : List (Move (Arrival referencePlatform) Choice) :=
  createdAndUpdated ++ [.arrive (deleteRequest 0), .perform 2 false {}]

theorem lookups_agree_updated : ∃ (w : ServerWorld referencePlatform) (s s' : Shipment),
    Reachable referencePlatform Db.empty w ∧ w.events.length = 4 ∧ s ∈ (stateAt Db.empty w.events 1).docs ∧
      BothReturn referencePlatform (stateAt Db.empty w.events 3) s._id s.trackingNumber
        (.ok (ShipmentService.toResponse s')) ∧
        NeitherReturns referencePlatform (stateAt Db.empty w.events 4) s._id s.trackingNumber := by
  obtain ⟨w, hw, hq⟩ := exists_run Db.empty createdAndDeleted
    (fun w => (w.events.length = 4 ∧ (stateAt Db.empty w.events 1).docs.length = 1) ∧
      (∀ s ∈ (stateAt Db.empty w.events 1).docs, (stateAt Db.empty w.events 3).get? s._id ≠ none) ∧
        ∀ s ∈ (stateAt Db.empty w.events 1).docs, (stateAt Db.empty w.events 4).get? s._id = none) (by decide +kernel)
  simp only [decide_eq_true_eq] at hq
  obtain ⟨⟨hlength, hone⟩, hkept, hgone⟩ := hq
  obtain ⟨s, hs⟩ := List.exists_mem_of_length_pos (by omega : 0 < (stateAt Db.empty w.events 1).docs.length)
  obtain ⟨s', -, hboth⟩ := (lookups_agree hw (by omega : 1 ≤ 3) hs).1 fun h => hkept s hs (h.gone hw)
  have hdeleted : DeletedBetween w s._id 1 4 :=
    deletedBetween_of_gone hw (by simp [Db.mem_docs.1 hs]) (hgone s hs) (by omega)
  exact ⟨w, s, s', hw, hlength, hs, hboth, (lookups_agree hw (by omega) hs).2 hdeleted⟩

end ShipmentManager
