import ShipmentManager.Lib.PageDrift
import ShipmentManager.ClientWalk
import ShipmentManager.Linearizability
import ShipmentManager.ListMoments

/-!
# Walking the pages of a collection in use

A client requests one page after the other in the order of the tracking numbers, while other clients create, update and
delete shipments.  Every shipment that one write takes out of the matches may move another one to a page that the client
has read already, so that it is never shown; every shipment that joins them may move another one to a page that the
client has still to read, so that it is shown again.  And where a write comes between the two reads of the last request,
its count may end the walk too early.  `walk_drift` bounds what is missed and what is shown twice by the number of such
writes.
-/

namespace ShipmentManager

open Interleaving Paging

variable (P : Platform)

/-- The tracking numbers of the shipments that match the filters. -/
def matchingNumbers (params : QueryParams) (db : Db) : List Text :=
  (matching P db params).map Shipment.trackingNumber

/-- Some shipment that matches in the first store does not match in the second one. -/
def loses (params : QueryParams) (db db' : Db) : Bool :=
  (matchingNumbers P params db).any fun t => !(matchingNumbers P params db').any (· = t)

/-- The step takes a shipment out of the matches. -/
def takesOut (params : QueryParams) (e : DbEvent) : Bool := loses P params e.before e.after

/-- The step brings a shipment into the matches. -/
def bringsIn (params : QueryParams) (e : DbEvent) : Bool := loses P params e.after e.before

variable {P} {params : QueryParams}

theorem mem_matchingNumbers {db : Db} {t : Text} : t ∈ matchingNumbers P params db ↔
    ∃ s ∈ db.docs, (listQuery P params).matches P.mongo s = true ∧ s.trackingNumber = t := by
  simp only [matchingNumbers, matching, List.mem_map, List.mem_filter, and_assoc]

/-! ### One step -/

/-- A shipment with another tracking number than the one with the identifier has another identifier. -/
private theorem id_ne_of_number {db : Db} {id : ObjectId} {s d : Shipment} (hs : db.get? id = some s) (hd : d ∈ db.docs)
    (hne : d.trackingNumber ≠ s.trackingNumber) : d._id ≠ id := by
  intro hid
  have hget := Db.mem_docs.1 hd
  rw [hid, hs] at hget
  exact hne (congrArg _ (Option.some.inj hget).symm)

/-- A step concerns one tracking number at most. -/
theorem Effect.one_number {c : Command} {r : c.Answer} {db db' : Db} (h : Effect c r db db') :
    ∃ t₀, ∀ t, t ≠ t₀ → (t ∈ matchingNumbers P params db ↔ t ∈ matchingNumbers P params db') := by
  simp only [mem_matchingNumbers]
  cases h with
  | inserted data s _ _ fresh times sent body hi =>
    refine ⟨s.trackingNumber, fun t ht => ?_⟩
    rw [hi.docs]
    constructor
    · rintro ⟨d, hd, hm, rfl⟩
      exact ⟨d, List.mem_append_left _ hd, hm, rfl⟩
    · rintro ⟨d, hd, hm, rfl⟩
      rcases List.mem_append.1 hd with hd | hd
      · exact ⟨d, hd, hm, rfl⟩
      · rw [List.mem_singleton.1 hd] at ht
        exact absurd rfl ht
  | updated text data u s _ _ sent body hu =>
    obtain ⟨o, ho⟩ := sent
    have hsame : ∀ d : Shipment, (u.apply d).trackingNumber = d.trackingNumber :=
      fun d => ((body o ho).identity d).trackingNumber
    refine ⟨s.trackingNumber, fun t ht => ?_⟩
    have hne : ∀ d ∈ db.docs, d.trackingNumber = t → d._id ≠ hexValue text := fun d hd hdt =>
      id_ne_of_number hu.present hd (hdt ▸ ht)
    rw [hu.docs]
    constructor
    · rintro ⟨d, hd, hm, hdt⟩
      exact ⟨d, List.mem_map.2 ⟨d, hd, if_neg (hne d hd hdt)⟩, hm, hdt⟩
    · rintro ⟨d', hd', hm, hdt⟩
      obtain ⟨d, hd, rfl⟩ := List.mem_map.1 hd'
      by_cases hid : d._id = hexValue text
      · rw [if_pos hid, hsame] at hdt
        exact absurd hid (hne d hd hdt)
      · rw [if_neg hid] at hm hdt
        exact ⟨d, hd, hm, hdt⟩
  | deleted text s _ _ hdel =>
    refine ⟨s.trackingNumber, fun t ht => ?_⟩
    rw [hdel.docs]
    constructor
    · rintro ⟨d, hd, hm, rfl⟩
      refine ⟨d, List.mem_filter.2 ⟨hd, ?_⟩, hm, rfl⟩
      rw [decide_eq_true_eq]
      exact id_ne_of_number hdel.present hd ht
    · rintro ⟨d, hd, hm, rfl⟩
      exact ⟨d, List.mem_of_mem_filter hd, hm, rfl⟩
  | _ => exact ⟨[], fun _ _ => Iff.rfl⟩

/-- What leaves the matches between two stores that differ in one tracking number. -/
private theorem departures_le_of_one {db db' : Db} {t₀ : Text}
    (h : ∀ t, t ≠ t₀ → (t ∈ matchingNumbers P params db → t ∈ matchingNumbers P params db')) :
    departures (matchingNumbers P params db) (matchingNumbers P params db') ≤
      if loses P params db db' then 1 else 0 := by
  have hsub : (matchingNumbers P params db).toFinset \ (matchingNumbers P params db').toFinset ⊆ {t₀} := by
    intro t ht
    simp only [Finset.mem_sdiff, List.mem_toFinset] at ht
    rw [Finset.mem_singleton]
    by_contra hne
    exact ht.2 (h t hne ht.1)
  have hone : departures (matchingNumbers P params db) (matchingNumbers P params db') ≤ 1 :=
    (Finset.card_le_card hsub).trans (Finset.card_singleton t₀).le
  split
  · exact hone
  · rename_i hloses
    refine (Finset.card_eq_zero.2 (Finset.sdiff_eq_empty_iff_subset.2 fun t ht => ?_)).le
    by_contra hnot
    refine hloses (List.any_eq_true.2 ⟨t, List.mem_toFinset.1 ht, ?_⟩)
    simp only [Bool.not_eq_true', List.any_eq_false, decide_eq_true_eq]
    rintro u hu rfl
    exact hnot (List.mem_toFinset.2 hu)

theorem Effect.departures_le {c : Command} {r : c.Answer} {db db' : Db} (h : Effect c r db db') :
    departures (matchingNumbers P params db) (matchingNumbers P params db') ≤ (if loses P params db db' then 1 else 0) ∧
      departures (matchingNumbers P params db') (matchingNumbers P params db) ≤
        if loses P params db' db then 1 else 0 := by
  have hone : ∃ t₀, ∀ t, t ≠ t₀ → (t ∈ matchingNumbers P params db ↔ t ∈ matchingNumbers P params db') := h.one_number
  obtain ⟨t₀, ht₀⟩ := hone
  exact ⟨departures_le_of_one fun t ht => (ht₀ t ht).1, departures_le_of_one fun t ht => (ht₀ t ht).2⟩

/-! ### The order of the tracking numbers -/

section Order

variable (M : Mongo) (order : SortOrder)

/-- The order of the tracking numbers in a listing. -/
def NumberRel (t u : Text) : Prop := SortRel M order (.text t) (.text u)

instance : DecidableRel (NumberRel M order) := fun t u =>
  inferInstanceAs (Decidable (SortRel M order (.text t) (.text u)))

instance : Std.Total (NumberRel M order) := ⟨fun _ _ => Std.Total.total (r := SortRel M order) _ _⟩

instance : IsTrans Text (NumberRel M order) := ⟨fun _ _ _ => IsTrans.trans (r := SortRel M order) _ _ _⟩

instance : Std.Antisymm (NumberRel M order) :=
  ⟨fun _ _ h h' => SortKey.text.inj (Std.Antisymm.antisymm (r := SortRel M order) _ _ h h')⟩

variable {M order}

/-- Shipments in the order of their tracking numbers. -/
theorem arrangement_numbers {l A : List Shipment} (h : Arranged M (js "trackingNumber") order l A) :
    Arrangement id (NumberRel M order) (l.map Shipment.trackingNumber) (A.map Shipment.trackingNumber) :=
  ⟨h.perm.map _, List.pairwise_map.2 h.sorted⟩

end Order

/-! ### The whole walk -/

/-- The page shows the shipment with the tracking number. -/
def ShowsNumber (result : PaginatedResponse ShipmentResponse) (t : Text) : Prop :=
  t ∈ result.data.map ShipmentResponse.trackingNumber

/-- A listing of the run is answered with the result; its find and its count are the steps `found` and `counted`. -/
def AnsweredListing (w : ServerWorld P) (params : QueryParams) (found counted : Nat)
    (result : PaginatedResponse ShipmentResponse) : Prop :=
  ∃ (i : Nat) (t : Task Command Command.Answer (Arrival P) HttpResponse) (message : Text) (e₁ e₂ : DbEvent),
    w.tasks[i]? = some t ∧ plan P t.origin = .ok (.list params) ∧
    t.prog = .done ⟨200, .shipments message result.data result.pagination⟩ ∧
    w.log[found]? = some (i, e₁) ∧ w.log[counted]? = some (i, e₂) ∧
    e₁.cmd = .find (listQuery P params) params.sortBy params.order ((params.page - 1) * params.limit) params.limit ∧
    e₂.cmd = .countDocuments (listQuery P params)

/-- A client walks the pages of a listing during a run, and stops when a response says that there is no next page. -/
structure DriftingWalk (params : QueryParams) (w : ServerWorld P) (found counted : Nat → Nat)
    (results : Nat → PaginatedResponse ShipmentResponse) (n : Nat) : Prop where
  listed : ∀ k, k < n → AnsweredListing w (params.atPage (k + 1)) (found k) (counted k) (results k)
  later : ∀ k, k + 1 < n → found k ≤ found (k + 1)
  stops : StopsAfter (fun k => (results k).pagination.hasNextPage) n

/-- The number of steps of a kind between the find of the first request of a walk and that of the last one. -/
def stepsMeanwhile (p : DbEvent → Bool) (es : List DbEvent) (found : Nat → Nat) (n : Nat) : Nat :=
  ((es.take (found (n - 1))).drop (found 0)).countP p

variable (P params) in
/-- The number of steps that make a count smaller than the number of the matches found: those that take a shipment out
of them after the find, and those that bring one in before it. -/
def uncounted (es : List DbEvent) (found counted : Nat) : Nat :=
  ((es.take counted).drop found).countP (takesOut P params) + ((es.take found).drop counted).countP (bringsIn P params)

section Run

variable {db : Db} {w : ServerWorld P} {found counted : Nat → Nat}
  {results : Nat → PaginatedResponse ShipmentResponse} {n : Nat}

/-- An answered listing describes the stores that its find and its count met. -/
private theorem AnsweredListing.listedAt (hw : Reachable P db w) {m c : Nat}
    {result : PaginatedResponse ShipmentResponse} (h : AnsweredListing w params m c result) :
    ListedAt P params result.data result.pagination (stateAt db w.events m) (stateAt db w.events c) := by
  obtain ⟨i, t, message, e₁, e₂, ht, hplan, hdone, hm, hc, hfind, hcount⟩ := h
  exact listedAt_of_log hw ht hplan hdone hm hc hfind hcount

private theorem DriftingWalk.limit_pos (walk : DriftingWalk params w found counted results n) : 1 ≤ params.limit := by
  obtain ⟨i, t, message, e₁, e₂, ht, hplan, -⟩ := walk.listed 0 walk.stops.pos
  obtain ⟨q, hq⟩ := plan_list_query hplan
  have hlimit : 1 ≤ (params.atPage 1).limit := by
    rw [hq]
    exact q.pageSize_bounds.1
  exact hlimit

/-- The pages of a walk are cut from the tracking numbers in order. -/
private theorem DriftingWalk.pages (walk : DriftingWalk params w found counted results n) (hw : Reachable P db w)
    (hsort : params.sortBy = js "trackingNumber") : ∃ A : Nat → List Text, ∀ k, k < n →
      Arrangement id (NumberRel P.mongo params.order) (matchingNumbers P params (stateAt db w.events (found k)))
          (A k) ∧
        (results k).data.map ShipmentResponse.trackingNumber =
          ((A k).drop (k * params.limit.toNat)).take params.limit.toNat := by
  have hpage : ∀ k, ∃ A : List Text, k < n →
      Arrangement id (NumberRel P.mongo params.order) (matchingNumbers P params (stateAt db w.events (found k))) A ∧
        (results k).data.map ShipmentResponse.trackingNumber =
          (A.drop (k * params.limit.toNat)).take params.limit.toNat := by
    intro k
    by_cases hk : k < n
    · obtain ⟨A, hA, hdata⟩ := ((walk.listed k hk).listedAt hw).page
      rw [slice_page walk.limit_pos k] at hdata
      replace hA : Arranged P.mongo (js "trackingNumber") params.order
          (matching P (stateAt db w.events (found k)) params) A := hsort ▸ hA
      refine ⟨A.map Shipment.trackingNumber, fun _ => ⟨arrangement_numbers hA, ?_⟩⟩
      rw [hdata, List.map_map, ← List.map_drop, ← List.map_take]
      rfl
    · exact ⟨[], fun h => absurd h hk⟩
  choose A hA using hpage
  exact ⟨A, hA⟩

private theorem DriftingWalk.first_le (walk : DriftingWalk params w found counted results n) :
    found 0 ≤ found (n - 1) := by
  have hpos := walk.stops.pos
  have hle : ∀ k, k < n → found 0 ≤ found k := by
    intro k
    induction k with
    | zero => exact fun _ => le_rfl
    | succ k ih => exact fun hk => (ih (by omega)).trans (walk.later k hk)
  exact hle (n - 1) (by omega)

/-- How far the matches of two moments are apart, in both directions. -/
private theorem Reachable.departures_le (hw : Reachable P db w) (params : QueryParams) {a b : Nat} (hab : a ≤ b) :
    (departures (matchingNumbers P params (stateAt db w.events a)) (matchingNumbers P params (stateAt db w.events b)) +
        (w.events.take a).countP (takesOut P params) ≤ (w.events.take b).countP (takesOut P params)) ∧
      departures (matchingNumbers P params (stateAt db w.events b)) (matchingNumbers P params (stateAt db w.events a)) +
        (w.events.take a).countP (bringsIn P params) ≤ (w.events.take b).countP (bringsIn P params) := by
  have hchain := (Interleaving.Reachable.sound hw).chained
  constructor
  · exact hchain.dist_le (fun s s' => departures (matchingNumbers P params s) (matchingNumbers P params s'))
      (fun s => departures_self _) (fun s₁ s₂ s₃ => departures_triangle _ _ _) (takesOut P params)
      (fun e he => (Reachable.effect hw he).departures_le.1) hab
  · refine hchain.dist_le (fun s s' => departures (matchingNumbers P params s') (matchingNumbers P params s))
      (fun s => departures_self _) (fun s₁ s₂ s₃ => ?_) (bringsIn P params)
      (fun e he => (Reachable.effect hw he).departures_le.2) hab
    rw [Nat.add_comm]
    exact departures_triangle _ _ _

/-- The matches found at one moment that are not counted at another one. -/
private theorem Reachable.departures_le_uncounted (hw : Reachable P db w) (params : QueryParams) (m c : Nat) :
    departures (matchingNumbers P params (stateAt db w.events m)) (matchingNumbers P params (stateAt db w.events c)) ≤
      uncounted P params w.events m c := by
  unfold uncounted
  rcases Nat.le_total m c with hmc | hcm
  · have hle := (Reachable.departures_le hw params hmc).1
    rw [countP_take (takesOut P params) w.events hmc] at hle
    omega
  · have hle := (Reachable.departures_le hw params hcm).2
    rw [countP_take (bringsIn P params) w.events hcm] at hle
    omega

private theorem nodup_matchingNumbers (hdb : StoreInvariant db) (hw : Reachable P db w) (params : QueryParams)
    (m : Nat) : (matchingNumbers P params (stateAt db w.events m)).Nodup :=
  (Reachable.storeInvariant hw hdb m).unique.sublist (List.filter_sublist.map _)

/-- The last page of a walk reaches to the end of the matches, but for those that its count has missed. -/
private theorem DriftingWalk.reaches_end (walk : DriftingWalk params w found counted results n)
    (hdb : StoreInvariant db) (hw : Reachable P db w) :
    (matchingNumbers P params (stateAt db w.events (found (n - 1)))).length ≤
      n * params.limit.toNat + uncounted P params w.events (found (n - 1)) (counted (n - 1)) := by
  have hpos := walk.stops.pos
  have hpagination := ((walk.listed (n - 1) (by omega)).listedAt hw).pagination
  have hlast := walk.stops.last
  rw [matchCount_eq] at hpagination
  rw [← Bool.not_eq_true, hpagination] at hlast
  have hcounted := mt (hasNextPage_iff walk.limit_pos (n - 1) _).2 hlast
  rw [Nat.sub_add_cancel hpos] at hcounted
  have hlength : (matchingNumbers P params (stateAt db w.events (counted (n - 1)))).length =
      (matching P (stateAt db w.events (counted (n - 1))) params).length := List.length_map _
  have hmore := length_le_add_departures (nodup_matchingNumbers hdb hw params (found (n - 1)))
    (matchingNumbers P params (stateAt db w.events (counted (n - 1))))
  have huncounted := Reachable.departures_le_uncounted hw params (found (n - 1)) (counted (n - 1))
  change ¬ n * params.limit.toNat < (matching P (stateAt db w.events (counted (n - 1))) params).length at hcounted
  omega

/-- Of the shipments that match whenever a walk reads a page, the ones that are never shown are at most as many as the
writes in between that take a shipment out of the matches, and those that the last count has missed; the ones that are
shown twice are at most as many as the writes that bring one in. -/
theorem walk_drift (hdb : StoreInvariant db) (hw : Reachable P db w) (hsort : params.sortBy = js "trackingNumber")
    (walk : DriftingWalk params w found counted results n) {N : Finset Text}
    (hN : ∀ t ∈ N, ∀ k, k < n → t ∈ matchingNumbers P params (stateAt db w.events (found k))) :
    ((∀ t ∈ N, ∀ k, k < n → ¬ ShowsNumber (results k) t) → N.card ≤
        stepsMeanwhile (takesOut P params) w.events found n +
          uncounted P params w.events (found (n - 1)) (counted (n - 1))) ∧
      ((∀ t ∈ N, ∃ j k, j < k ∧ k < n ∧ ShowsNumber (results j) t ∧ ShowsNumber (results k) t) →
        N.card ≤ stepsMeanwhile (bringsIn P params) w.events found n) := by
  obtain ⟨A, hA⟩ := walk.pages hw hsort
  have hnodup : ∀ k, k < n → (matchingNumbers P params (stateAt db w.events (found k))).Nodup := fun k _ =>
    nodup_matchingNumbers hdb hw params (found k)
  have hdrift := fun k hk => Reachable.departures_le hw params (walk.later k hk)
  have hmeanwhile : ∀ (p : DbEvent → Bool) (d : Nat),
      N.card + (w.events.take (found 0)).countP p ≤ (w.events.take (found (n - 1))).countP p + d →
        N.card ≤ stepsMeanwhile p w.events found n + d := by
    intro p d hle
    rw [countP_take p w.events walk.first_le] at hle
    unfold stepsMeanwhile
    omega
  constructor
  · intro hunseen
    refine hmeanwhile _ _ (unseen_card_le (f := fun k => (w.events.take (found k)).countP (takesOut P params))
      (fun k hk => (hA k hk).1) hnodup walk.stops.pos (walk.reaches_end hdb hw) (fun k hk => (hdrift k hk).1) hN ?_)
    intro t ht k hk
    rw [← (hA k hk).2]
    exact hunseen t ht k hk
  · intro hrepeated
    refine hmeanwhile _ 0 (repeated_card_le (f := fun k => (w.events.take (found k)).countP (bringsIn P params))
      (m := params.limit.toNat) (fun k hk => (hA k hk).1) hnodup walk.stops.pos (fun k hk => (hdrift k hk).2) hN ?_)
    intro t ht
    obtain ⟨j, k, hjk, hk, hj, hk'⟩ := hrepeated t ht
    refine ⟨j, k, hjk, hk, ?_, ?_⟩
    · rw [← (hA j (by omega)).2]
      exact hj
    · rw [← (hA k hk).2]
      exact hk'

end Run

theorem storeInvariant_twoPending : StoreInvariant twoPending := by
  refine ⟨fun s hs => ?_, by decide⟩
  have hcases : s = sampleShipment 1 .pending ∨ s = sampleShipment 2 .pending := by
    rcases List.mem_cons.1 hs with h | h
    · exact Or.inl h
    · exact Or.inr (List.mem_singleton.1 h)
  rcases hcases with rfl | rfl
  · exact validShipment_sample 1 .pending
  · exact validShipment_sample 2 .pending

/-- The result of an answered listing. -/
def listedResult? (w : ServerWorld referencePlatform) (i : Nat) : Option (PaginatedResponse ShipmentResponse) :=
  match w.tasks[i]? with
  | some ⟨_, .done ⟨200, .shipments _ data pagination⟩⟩ => some ⟨data, pagination⟩
  | _ => none

/-- An answered listing has its two steps in the run. -/
private theorem exists_answeredListing {db : Db} {w : ServerWorld referencePlatform}
    (hw : Reachable referencePlatform db w) {i : Nat} {result : PaginatedResponse ShipmentResponse}
    (h : listedResult? w i = some result) {a : Arrival referencePlatform}
    (horigin : (w.tasks.map Task.origin)[i]? = some a) {params : QueryParams}
    (hplan : plan referencePlatform a = .ok (.list params)) :
    ∃ m c, AnsweredListing w params m c result ∧ (w.log.map Prod.fst)[m]? = some i := by
  unfold listedResult? at h
  split at h
  · rename_i origin message data pagination ht
    cases h
    rw [List.getElem?_map, ht] at horigin
    cases horigin
    obtain ⟨m, c, e₁, e₂, hm, hc, hfind, hcount⟩ := exists_reads hw ht hplan rfl
    refine ⟨m, c, ⟨i, _, message, e₁, e₂, ht, hplan, rfl, hm, hc, hfind, hcount⟩, ?_⟩
    rw [List.getElem?_map, hm]
    rfl
  · cases h

/-- The request for a page of `byTrackingNumber`, a deletion of what it shows, and the request for the next page. -/
def interruptedWalk : List (Move (Arrival referencePlatform) Choice) :=
  [.arrive (listRequest "page=1&limit=1&sortBy=trackingNumber"), .perform 0 false {}, .perform 0 false {},
    .arrive (deleteRequest 2), .perform 1 false {}, .arrive (listRequest "page=2&limit=1&sortBy=trackingNumber"),
    .perform 2 false {}, .perform 2 false {}]

/-- The steps of the first request come before those of the last one. -/
private theorem interrupted_steps {m i : Nat} (h : ([0, 0, 1, 2, 2] : List Nat)[m]? = some i) :
    m < 5 ∧ (i = 0 → m < 2) ∧ (i = 2 → 2 < m) := by
  obtain ⟨hm, rfl⟩ := List.getElem?_eq_some_iff.1 h
  have hcases : m = 0 ∨ m = 1 ∨ m = 2 ∨ m = 3 ∨ m = 4 := by
    change m < 5 at hm
    omega
  rcases hcases with rfl | rfl | rfl | rfl | rfl <;> simp

private theorem plan_firstPage : plan referencePlatform (listRequest "page=1&limit=1&sortBy=trackingNumber") =
    .ok (.list (byTrackingNumber.atPage 1)) := rfl

private theorem plan_secondPage : plan referencePlatform (listRequest "page=2&limit=1&sortBy=trackingNumber") =
    .ok (.list (byTrackingNumber.atPage 2)) := rfl

/-- The shipment that is not shown. -/
def skippedNumber : Text := (sampleShipment 1 .pending).trackingNumber

set_option maxRecDepth 8000 in
/-- The shipment of the first page is deleted before the second page is requested, and the other one is never shown. -/
theorem walk_drift_deleted : ∃ (w : ServerWorld referencePlatform) (found counted : Nat → Nat)
    (results : Nat → PaginatedResponse ShipmentResponse), Reachable referencePlatform twoPending w ∧
      DriftingWalk byTrackingNumber w found counted results 2 ∧
      (∀ k, k < 2 → ¬ ShowsNumber (results k) skippedNumber) ∧
      ({skippedNumber} : Finset Text).card ≤
        stepsMeanwhile (takesOut referencePlatform byTrackingNumber) w.events found 2 +
          uncounted referencePlatform byTrackingNumber w.events (found (2 - 1)) (counted (2 - 1)) := by
  have hcheck : ((replay twoPending interruptedWalk).any fun w =>
      (w.log.map Prod.fst = [0, 0, 1, 2, 2] && (List.range 5).all fun m =>
        skippedNumber ∈ matchingNumbers referencePlatform byTrackingNumber (stateAt twoPending w.events m)) &&
          (listedResult? w 0).any fun r => (listedResult? w 2).any fun r' =>
            (r.pagination.hasNextPage && !r'.pagination.hasNextPage) &&
              [r, r'].all fun r => !(r.data.map ShipmentResponse.trackingNumber).any (· = skippedNumber)) = true := by
    decide
  obtain ⟨w, hreplay, hq⟩ := (Option.any_eq_true _ _).1 hcheck
  simp only [Bool.and_eq_true, decide_eq_true_eq, List.all_eq_true, List.mem_range, Option.any_eq_true] at hq
  obtain ⟨⟨hlog, hmatches⟩, r, hr, r', hr', ⟨hnext, hlast⟩, hskipped⟩ := hq
  have hw : Reachable referencePlatform twoPending w :=
    replay_reachable Choice.executes Relation.ReflTransGen.refl hreplay
  have horigins := replay_origins hreplay
  obtain ⟨m, c, hlisted, hm⟩ := exists_answeredListing hw hr (by rw [horigins]; rfl) plan_firstPage
  obtain ⟨m', c', hlisted', hm'⟩ := exists_answeredListing hw hr' (by rw [horigins]; rfl) plan_secondPage
  rw [hlog] at hm hm'
  have hfirst := interrupted_steps hm
  have hlater := interrupted_steps hm'
  have hcases : ∀ k, k < 2 → k = 0 ∨ k = 1 := fun k hk => by omega
  have hend : r'.pagination.hasNextPage = false := by simpa using hlast
  let found : Nat → Nat := fun k => if k = 0 then m else m'
  let counted : Nat → Nat := fun k => if k = 0 then c else c'
  let results : Nat → PaginatedResponse ShipmentResponse := fun k => if k = 0 then r else r'
  have hwalk : DriftingWalk byTrackingNumber w found counted results 2 := by
    refine ⟨fun k hk => ?_, fun k hk => ?_, by omega, hend, fun k hk => ?_⟩
    · rcases hcases k hk with rfl | rfl
      · exact hlisted
      · exact hlisted'
    · obtain rfl : k = 0 := by omega
      have hle : m ≤ m' := by omega
      exact hle
    · obtain rfl : k = 0 := by omega
      exact hnext
  have hunseen : ∀ k, k < 2 → ¬ ShowsNumber (results k) skippedNumber := by
    intro k hk hshown
    have hnot : ∀ x ∈ [r, r'], ¬ ShowsNumber x skippedNumber := fun x hx hmem => by
      have hany := hskipped x hx
      rw [Bool.not_eq_true', List.any_eq_false] at hany
      exact hany _ hmem (by simp)
    rcases hcases k hk with rfl | rfl
    · exact hnot r (List.mem_cons_self ..) hshown
    · exact hnot r' (List.mem_cons_of_mem _ (List.mem_singleton_self _)) hshown
  refine ⟨w, found, counted, results, hw, hwalk, hunseen, ?_⟩
  refine (walk_drift storeInvariant_twoPending hw rfl hwalk fun t ht k hk => ?_).1 fun t ht k hk => ?_
  · rw [Finset.mem_singleton.1 ht]
    rcases hcases k hk with rfl | rfl
    · exact hmatches m (by omega)
    · exact hmatches m' (by omega)
  · rw [Finset.mem_singleton.1 ht]
    exact hunseen k hk

end ShipmentManager
