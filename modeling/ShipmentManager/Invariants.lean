import ShipmentManager.Reference
import ShipmentManager.Requests

/-!
# The store along a run

* `StoreInvariant`: every stored shipment is shaped as the validators shape it, and no two share a tracking number.
  Every step of a request preserves it (`Effect.storeInvariant`).
* `Evolves`: how an earlier store of a run is related to a later one.  An identifier that was given out stays given out,
  a shipment that is gone does not come back, and one that stays keeps its tracking number and its time of creation.
  The relation is reflexive and transitive, and every step is in it (`Effect.evolves`), so it holds between any two
  moments of a run (`Reachable.evolves`).
-/

namespace ShipmentManager

open Interleaving

/-- A shipment as the validators shape it. -/
structure ValidShipment (s : Shipment) : Prop where
  text : ∀ f max, (f, max) ∈ textFields → ∃ t, s.text? f = some t ∧ FieldText max t
  status : s.status ∈ statusValues

structure StoreInvariant (db : Db) : Prop where
  valid : ∀ s ∈ db.docs, ValidShipment s
  unique : (db.docs.map Shipment.trackingNumber).Nodup

/-- What a shipment keeps for life. -/
structure SameIdentity (s s' : Shipment) : Prop where
  _id : s'._id = s._id
  trackingNumber : s'.trackingNumber = s.trackingNumber
  createdAt : s'.createdAt = s.createdAt

theorem SameIdentity.refl (s : Shipment) : SameIdentity s s := ⟨rfl, rfl, rfl⟩

theorem FromBody.valid {draws : Draws} {o : JsObject} {s : Shipment} (h : FromBody draws o s) : ValidShipment s := by
  refine ⟨fun f max hf => ?_, ?_⟩
  · obtain ⟨t, -, ht, hft⟩ := h.text f max hf
    exact ⟨trim t, ht, hft⟩
  · rcases h.status with ⟨-, hs⟩ | ⟨t, ht, -, hs⟩
    · rw [hs]
      decide
    · rw [hs]
      exact ht

section BodyUpdate

variable {o : JsObject} {u : Update}

theorem BodyUpdate.identity (h : BodyUpdate o u) (s : Shipment) : SameIdentity s (u.apply s) := by
  refine ⟨rfl, ?_, ?_⟩
  · show (u.set "trackingNumber").getD s.trackingNumber = s.trackingNumber
    rw [h.trackingNumber]
    rfl
  · show u.createdAt.getD s.createdAt = s.createdAt
    rw [h.createdAt]
    rfl

theorem BodyUpdate.valid (h : BodyUpdate o u) {s : Shipment} (hs : ValidShipment s) : ValidShipment (u.apply s) := by
  refine ⟨fun f max hf => ?_, ?_⟩
  · rw [Update.text?_apply]
    obtain ⟨t, ht, hft⟩ := hs.text f max hf
    rw [ht]
    rcases h.text f max hf with ⟨-, hn⟩ | ⟨t', -, ht', hft'⟩
    · exact ⟨t, by rw [hn]; rfl, hft⟩
    · exact ⟨trim t', by rw [ht']; rfl, hft'⟩
  · show (u.set "status").getD s.status ∈ statusValues
    rcases h.status with ⟨-, hn⟩ | ⟨t, ht, -, hs'⟩
    · rw [hn]
      exact hs.status
    · rw [hs']
      exact ht

end BodyUpdate

/-! ### The invariant -/

theorem storeInvariant_empty : StoreInvariant Db.empty := by
  refine ⟨fun s hs => ?_, List.nodup_nil⟩
  cases hs

/-- One step of a request preserves the invariant. -/
theorem Effect.storeInvariant {c : Command} {r : c.Answer} {db db' : Db} (h : Effect c r db db')
    (hdb : StoreInvariant db) : StoreInvariant db' := by
  cases h with
  | inserted data s _ _ fresh times sent body hi =>
    refine ⟨fun d hd => ?_, hi.nodup_trackingNumber hdb.unique⟩
    rw [hi.docs, List.mem_append, List.mem_singleton] at hd
    rcases hd with hd | rfl
    · exact hdb.valid d hd
    · obtain ⟨draws, o, ho⟩ := sent
      exact (body draws o ho).valid
  | updated id data u s _ _ sent body hu =>
    refine ⟨fun d hd => ?_, ?_⟩
    · rw [hu.docs] at hd
      obtain ⟨d', hd', rfl⟩ := List.mem_map.1 hd
      obtain ⟨o, ho⟩ := sent
      split
      · exact (body o ho).valid (hdb.valid d' hd')
      · exact hdb.valid d' hd'
    -- an accepted body names no tracking number
    · obtain ⟨o, ho⟩ := sent
      have hmap : db'.docs.map Shipment.trackingNumber = db.docs.map Shipment.trackingNumber := by
        rw [hu.docs, List.map_map]
        refine List.map_congr_left fun d _ => ?_
        show (if d._id = hexValue id then u.apply d else d).trackingNumber = d.trackingNumber
        split
        · exact ((body o ho).identity d).trackingNumber
        · rfl
      rw [hmap]
      exact hdb.unique
  | deleted id s _ _ hd =>
    refine ⟨fun d h => ?_, ?_⟩
    · rw [hd.docs] at h
      exact hdb.valid d (List.mem_filter.1 h).1
    · rw [hd.docs]
      exact hdb.unique.sublist (List.filter_sublist.map _)
  | found => exact hdb
  | listed => exact hdb
  | counted => exact hdb
  | insertFailed => exact hdb
  | updateMissing => exact hdb
  | updateFailed => exact hdb
  | deleteMissing => exact hdb

/-! ### Earlier and later stores -/

/-- How a store is related to a later one. -/
structure Evolves (db db' : Db) : Prop where
  issued : ∀ id ∈ db.issued, id ∈ db'.issued
  gone : ∀ id ∈ db.issued, db.get? id = none → db'.get? id = none
  identity : ∀ id s s', db.get? id = some s → db'.get? id = some s' → SameIdentity s s'

theorem Evolves.refl (db : Db) : Evolves db db := by
  refine ⟨fun _ h => h, fun _ _ h => h, fun id s s' h h' => ?_⟩
  rw [h] at h'
  cases h'
  exact SameIdentity.refl s

theorem Evolves.trans {db₁ db₂ db₃ : Db} (h : Evolves db₁ db₂) (h' : Evolves db₂ db₃) : Evolves db₁ db₃ := by
  refine ⟨fun id hid => h'.issued id (h.issued id hid), fun id hid hg => ?_, fun id s s' hs hs' => ?_⟩
  · exact h'.gone id (h.issued id hid) (h.gone id hid hg)
  -- what is gone in between cannot be there later
  · cases hm : db₂.get? id with
    | none =>
      have := h'.gone id (h.issued id (Db.issued_of_get? hs)) hm
      rw [this] at hs'
      cases hs'
    | some m =>
      have h₁ := h.identity id s m hs hm
      have h₂ := h'.identity id m s' hm hs'
      exact ⟨h₂._id.trans h₁._id, h₂.trackingNumber.trans h₁.trackingNumber, h₂.createdAt.trans h₁.createdAt⟩

/-- One step of a request leads to a later store. -/
theorem Effect.evolves {c : Command} {r : c.Answer} {db db' : Db} (h : Effect c r db db') : Evolves db db' := by
  cases h with
  | inserted data s _ _ fresh times sent body hi =>
    have hne : ∀ id ∈ db.issued, s._id ≠ id := by
      rintro id hid rfl
      exact fresh hid
    refine ⟨fun id hid => ?_, fun id hid hg => ?_, fun id s₁ s₂ h₁ h₂ => ?_⟩
    · rw [hi.issued]
      exact List.mem_cons_of_mem _ hid
    · rw [hi.get?, if_neg (hne id hid)]
      exact hg
    · rw [hi.get?, if_neg (hne id (Db.issued_of_get? h₁)), h₁] at h₂
      cases h₂
      exact SameIdentity.refl s₁
  | updated id data u s _ _ sent body hu =>
    refine ⟨fun id' hid' => hu.issued ▸ hid', fun id' _ hg => ?_, fun id' s₁ s₂ h₁ h₂ => ?_⟩
    · have hne : hexValue id ≠ id' := by
        rintro rfl
        rw [hu.present] at hg
        cases hg
      rw [hu.get?, if_neg hne]
      exact hg
    · rw [hu.get?] at h₂
      split at h₂
      · rename_i hid
        rw [← hid, hu.present] at h₁
        cases h₁
        cases h₂
        obtain ⟨o, ho⟩ := sent
        exact (body o ho).identity s
      · rw [h₁] at h₂
        cases h₂
        exact SameIdentity.refl s₁
  | deleted id s _ _ hd =>
    refine ⟨fun id' hid' => hd.issued ▸ hid', fun id' _ hg => ?_, fun id' s₁ s₂ h₁ h₂ => ?_⟩
    · rw [hd.get?]
      split
      · rfl
      · exact hg
    · rw [hd.get?] at h₂
      split at h₂
      · cases h₂
      · rw [h₁] at h₂
        cases h₂
        exact SameIdentity.refl s₁
  | found => exact Evolves.refl db
  | listed => exact Evolves.refl db
  | counted => exact Evolves.refl db
  | insertFailed => exact Evolves.refl db
  | updateMissing => exact Evolves.refl db
  | updateFailed => exact Evolves.refl db
  | deleteMissing => exact Evolves.refl db

section Run

variable {P : Platform} {db : Db} {w : ServerWorld P}

/-- Any two stores of a run, the later after the earlier. -/
theorem Reachable.evolves (hw : Reachable P db w) {m n : Nat} (h : m ≤ n) :
    Evolves (stateAt db w.events m) (stateAt db w.events n) :=
  (Interleaving.Reachable.sound hw).chained.rel Evolves Evolves.refl (fun _ _ _ => Evolves.trans)
    (fun _ he => (Reachable.effect hw he).evolves) h

/-- The command creates the shipment. -/
def Creates : (c : Command) → c.Answer → Shipment → Prop
  | .save _, .ok s, s' => s' = s
  | _, _, _ => False

/-- The command deletes the shipment with the identifier. -/
def Deletes : (c : Command) → c.Answer → ObjectId → Prop
  | .findByIdAndDelete _, .ok (some s), id => s._id = id
  | _, _, _ => False

/-- Every shipment is created by an insertion, keeps its identity, and stays until a deletion. -/
structure Carries (e : DbEvent) : Prop where
  born : ∀ s' ∈ e.after.docs, (∃ s ∈ e.before.docs, SameIdentity s s') ∨ Creates e.cmd e.answer s'
  kept : ∀ s ∈ e.before.docs, (∃ s' ∈ e.after.docs, SameIdentity s s') ∨ Deletes e.cmd e.answer s._id

theorem Effect.carries {c : Command} {r : c.Answer} {db db' : Db} (h : Effect c r db db') :
    Carries ⟨c, r, db, db'⟩ := by
  have same : ∀ (c : Command) (r : c.Answer), Carries ⟨c, r, db, db⟩ := fun c r =>
    ⟨fun s hs => Or.inl ⟨s, hs, SameIdentity.refl s⟩, fun s hs => Or.inl ⟨s, hs, SameIdentity.refl s⟩⟩
  cases h with
  | inserted data s _ _ fresh times sent body hi =>
    refine ⟨fun d hd => ?_, fun d hd => ?_⟩
    · change d ∈ db'.docs at hd
      rw [hi.docs, List.mem_append, List.mem_singleton] at hd
      rcases hd with hd | rfl
      · exact Or.inl ⟨d, hd, SameIdentity.refl d⟩
      · exact Or.inr rfl
    · refine Or.inl ⟨d, ?_, SameIdentity.refl d⟩
      show d ∈ db'.docs
      rw [hi.docs]
      exact List.mem_append_left _ hd
  | updated id data u s _ _ sent body hu =>
    obtain ⟨o, ho⟩ := sent
    refine ⟨fun d hd => ?_, fun d hd => ?_⟩
    · change d ∈ db'.docs at hd
      rw [hu.docs] at hd
      obtain ⟨d', hd', rfl⟩ := List.mem_map.1 hd
      refine Or.inl ⟨d', hd', ?_⟩
      split
      · exact (body o ho).identity d'
      · exact SameIdentity.refl d'
    · refine Or.inl ⟨if d._id = hexValue id then u.apply d else d, ?_, ?_⟩
      · show _ ∈ db'.docs
        rw [hu.docs]
        exact List.mem_map.2 ⟨d, hd, rfl⟩
      · split
        · exact (body o ho).identity d
        · exact SameIdentity.refl d
  | deleted id s _ _ hd =>
    refine ⟨fun d h => ?_, fun d h => ?_⟩
    · change d ∈ db'.docs at h
      rw [hd.docs] at h
      exact Or.inl ⟨d, (List.mem_filter.1 h).1, SameIdentity.refl d⟩
    · by_cases hid : d._id = hexValue id
      · refine Or.inr ?_
        show s._id = d._id
        rw [hid, Db.id_of_get? hd.present]
      · refine Or.inl ⟨d, ?_, SameIdentity.refl d⟩
        show d ∈ db'.docs
        rw [hd.docs]
        exact List.mem_filter.2 ⟨h, by simpa using hid⟩
  | found => exact same _ _
  | listed => exact same _ _
  | counted => exact same _ _
  | insertFailed => exact same _ _
  | updateMissing => exact same _ _
  | updateFailed => exact same _ _
  | deleteMissing => exact same _ _

/-- From the empty collection every stored shipment is well formed and alone with its tracking number, and keeps its
identifier, its tracking number and its time of creation from its creation to its deletion. -/
theorem store_invariant (hw : Reachable P Db.empty w) :
    (∀ n, StoreInvariant (stateAt Db.empty w.events n)) ∧
      (∀ m n, m ≤ n → ∀ s ∈ (stateAt Db.empty w.events m).docs, ∀ s' ∈ (stateAt Db.empty w.events n).docs,
        s'._id = s._id → SameIdentity s s') ∧
      ∀ e ∈ w.events, Carries e := by
  refine ⟨fun n => ?_, fun m n hmn s hs s' hs' hid => ?_, fun e he => ?_⟩
  · have hchain := (Interleaving.Reachable.sound hw).chained
    exact hchain.invariant StoreInvariant (fun e he => (Reachable.effect hw he).storeInvariant) storeInvariant_empty n
  · have hs' := Db.mem_docs.1 hs'
    rw [hid] at hs'
    exact (Reachable.evolves hw hmn).identity _ _ _ (Db.mem_docs.1 hs) hs'
  · exact (Reachable.effect hw he).carries

end Run

theorem store_invariant_created : ∃ w, Reachable referencePlatform Db.empty w ∧ w.store.docs.length = 1 ∧
    (∀ n, StoreInvariant (stateAt Db.empty w.events n)) ∧
      (∀ m n, m ≤ n → ∀ s ∈ (stateAt Db.empty w.events m).docs, ∀ s' ∈ (stateAt Db.empty w.events n).docs,
        s'._id = s._id → SameIdentity s s') ∧
      ∀ e ∈ w.events, Carries e := by
  obtain ⟨w, hw, hq⟩ := exists_run Db.empty [.arrive postRequest, .perform 0 false {}]
    (fun w => w.store.docs.length = 1) (by decide +kernel)
  exact ⟨w, hw, by simpa using hq, store_invariant hw⟩

end ShipmentManager
