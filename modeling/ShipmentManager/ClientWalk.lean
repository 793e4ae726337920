import Mathlib.Data.Set.Card
import Mathlib.Order.Interval.Finset.Nat
import ShipmentManager.Lib.PageWalk
import ShipmentManager.Pages
import ShipmentManager.Requests

/-!
# A client that walks the pages

A client starts at page 1 and asks for the next page as long as `hasNextPage` holds.

* `pagination_exact`: on a store that does not change, the length of every page and the pagination are those of the
  number of matches, and the client stops after `max 1 totalPages` requests with all of them.
* `walk_misses_nothing`: while other clients create shipments, a walk in the order of the tracking numbers shows every
  shipment that was stored at its start.
-/

namespace ShipmentManager

open Interleaving Paging

variable {P : Platform} {db : Db}

/-! ### The pagination -/

theorem lt_ceilDiv_iff {n d k : Int} (hd : 1 ≤ d) : k < ShipmentRepository.ceilDiv n d ↔ k * d < n := by
  have hdiv : -n / d < -k ↔ -n < -k * d := Int.ediv_lt_iff_lt_mul (by omega)
  unfold ShipmentRepository.ceilDiv
  rw [Int.neg_mul] at hdiv
  omega

section Arithmetic

variable {params : QueryParams}

private theorem natCast_mul_limit (hlimit : 1 ≤ params.limit) (k : Nat) :
    ((k * params.limit.toNat : Nat) : Int) = k * params.limit := by
  rw [Int.natCast_mul, Int.toNat_of_nonneg (by omega)]

/-- The pages before `totalPages` are the ones that begin before the end of the matches. -/
theorem lt_totalPages_iff (hlimit : 1 ≤ params.limit) (k : Nat) :
    k < totalPages P db params ↔ k * params.limit.toNat < (matching P db params).length := by
  have hceil := lt_ceilDiv_iff (n := (matching P db params).length) (k := k) hlimit
  have hcast := natCast_mul_limit hlimit k
  unfold totalPages
  omega

/-- There is a next page when the pages so far do not reach to the end of the matches. -/
theorem hasNextPage_iff (hlimit : 1 ≤ params.limit) (k N : Nat) :
    (ShipmentRepository.paginationOf (k + 1 : Nat) params.limit N).hasNextPage = true ↔
      (k + 1) * params.limit.toNat < N := by
  have hceil := lt_ceilDiv_iff (n := N) (k := (k + 1 : Nat)) hlimit
  have hcast := natCast_mul_limit hlimit (k + 1)
  show decide _ = true ↔ _
  rw [decide_eq_true_eq, hceil]
  omega

private theorem totalPages_eq (hlimit : 1 ≤ params.limit) :
    ShipmentRepository.ceilDiv (matching P db params).length params.limit = totalPages P db params := by
  have hceil := lt_ceilDiv_iff (n := (matching P db params).length) (k := -1) hlimit
  unfold totalPages
  omega

end Arithmetic

/-! ### A store that does not change -/

variable (P db)

/-- The pages with at least one shipment. -/
def nonemptyPages (params : QueryParams) : Set Nat :=
  { page | 1 ≤ page ∧ ∃ result, ListsTo P db (params.atPage page) result ∧ result.data ≠ [] }

/-- A page and its pagination are those of the number of matches. -/
structure ExactPage (params : QueryParams) (page : Nat) (result : PaginatedResponse Shipment) : Prop where
  length : (result.data.length : Int) = pageLength (params.atPage page) (matching P db params).length
  totalItems : result.pagination.totalItems = (matching P db params).length
  next_answered : ∃ next, ListsTo P db (params.atPage (page + 1)) next
  hasNextPage : ∀ next, ListsTo P db (params.atPage (page + 1)) next →
    (result.pagination.hasNextPage = true ↔ next.data ≠ [])
  totalPages : result.pagination.totalPages = totalPages P db params
  nonempty : (nonemptyPages P db params).ncard = ShipmentManager.totalPages P db params

/-- The walk ends after the last page that is not empty, or after the first page; the pages before the last one are
full, and all of them together have the length of the matches. -/
structure ExactWalk (params : QueryParams) (results : Nat → PaginatedResponse Shipment) : Prop where
  stops : ∀ n, StopsAfter (fun k => (results k).pagination.hasNextPage) n ↔ n = max 1 (totalPages P db params)
  full : ∀ k, k + 1 < max 1 (totalPages P db params) → ((results k).data.length : Int) = params.limit
  total : ((List.range (max 1 (totalPages P db params))).map fun k => (results k).data.length).sum =
    (matching P db params).length

variable {P db} {params : QueryParams} {result : PaginatedResponse Shipment}

private theorem length_page (hlimit : 1 ≤ params.limit) {k : Nat} (h : ListsTo P db (params.atPage (k + 1)) result) :
    result.data.length = min params.limit.toNat ((matching P db params).length - k * params.limit.toNat) := by
  obtain ⟨-, A, hA, rfl⟩ := (listsTo_page_iff hlimit).1 h
  rw [List.length_take, List.length_drop, hA.length]

private theorem data_ne_nil_iff (hlimit : 1 ≤ params.limit) {k : Nat}
    (h : ListsTo P db (params.atPage (k + 1)) result) :
    result.data ≠ [] ↔ k * params.limit.toNat < (matching P db params).length := by
  have hlen := length_page hlimit h
  rw [← List.length_pos_iff]
  omega

private theorem next_iff (hlimit : 1 ≤ params.limit) {k : Nat} (h : ListsTo P db (params.atPage (k + 1)) result) :
    result.pagination.hasNextPage = true ↔ k + 1 < totalPages P db params := by
  obtain ⟨-, A, -, rfl⟩ := (listsTo_page_iff hlimit).1 h
  rw [hasNextPage_iff hlimit, lt_totalPages_iff hlimit]

/-- On a store that does not change every page is answered. -/
private theorem exists_listsTo (hlimit : 1 ≤ params.limit) (herr : (listQuery P params).error? P.mongo = none)
    (k : Nat) : ∃ result, ListsTo P db (params.atPage (k + 1)) result := by
  obtain ⟨A, hA⟩ := exists_arrangement (fun s : Shipment => s.sortKey params.sortBy) (SortRel P.mongo params.order)
    (matching P db params)
  exact ⟨_, (listsTo_page_iff hlimit).2 ⟨herr, A, hA, rfl⟩⟩

private theorem ncard_nonemptyPages (hlimit : 1 ≤ params.limit) (herr : (listQuery P params).error? P.mongo = none) :
    (nonemptyPages P db params).ncard = totalPages P db params := by
  have hset : nonemptyPages P db params = (Finset.Icc 1 (totalPages P db params) : Set Nat) := by
    ext page
    simp only [nonemptyPages, Set.mem_ofPred_eq, Finset.coe_Icc, Set.mem_Icc]
    refine and_congr_right fun hpage => ?_
    obtain ⟨k, rfl⟩ := Nat.exists_eq_add_of_le' hpage
    rw [Nat.succ_le_iff, lt_totalPages_iff hlimit]
    constructor
    · rintro ⟨result, hlists, hdata⟩
      exact (data_ne_nil_iff hlimit hlists).1 hdata
    · intro hlt
      have hanswer : ∃ result, ListsTo P db (params.atPage (k + 1)) result := exists_listsTo hlimit herr k
      obtain ⟨result, hlists⟩ := hanswer
      exact ⟨result, hlists, (data_ne_nil_iff hlimit hlists).2 hlt⟩
  rw [hset, Set.ncard_coe_finset, Nat.card_Icc, Nat.add_sub_cancel]

private theorem exactPage (hlimit : 1 ≤ params.limit) {k : Nat} (h : ListsTo P db (params.atPage (k + 1)) result) :
    ExactPage P db params (k + 1) result := by
  have hlen := length_page hlimit h
  have hnext := next_iff hlimit h
  obtain ⟨herr, A, hA, heq⟩ := (listsTo_page_iff hlimit).1 h
  refine ⟨?_, ?_, exists_listsTo hlimit herr (k + 1), fun next h' => ?_, ?_, ncard_nonemptyPages hlimit herr⟩
  · have hcast := natCast_mul_limit hlimit k
    show (result.data.length : Int) = min params.limit (max 0 (_ - (((k + 1 : Nat) : Int) - 1) * params.limit))
    have hsub : ((k + 1 : Nat) : Int) - 1 = k := by omega
    rw [hsub]
    omega
  · rw [heq]
    rfl
  · rw [hnext, data_ne_nil_iff hlimit h', lt_totalPages_iff hlimit]
  · rw [heq]
    exact totalPages_eq hlimit

private theorem exactWalk (hlimit : 1 ≤ params.limit) {results : Nat → PaginatedResponse Shipment}
    (h : ∀ k, k < max 1 (totalPages P db params) → ListsTo P db (params.atPage (k + 1)) (results k)) :
    ExactWalk P db params results := by
  have hstops : StopsAfter (fun k => (results k).pagination.hasNextPage) (max 1 (totalPages P db params)) := by
    refine ⟨by omega, ?_, fun k hk => (next_iff hlimit (h k (by omega))).2 (by omega)⟩
    have hlast := next_iff hlimit (h (max 1 (totalPages P db params) - 1) (by omega))
    rw [← Bool.not_eq_true, hlast]
    omega
  refine ⟨fun n => ⟨fun hn => hn.unique hstops, fun hn => hn ▸ hstops⟩, fun k hk => ?_, ?_⟩
  · have hlen := length_page hlimit (h k (by omega))
    have hnext : k + 1 < totalPages P db params := by omega
    have hlt := (lt_totalPages_iff hlimit (k + 1)).1 hnext
    rw [Nat.succ_mul] at hlt
    omega
  · have hmap : ((List.range (max 1 (totalPages P db params))).map fun k => (results k).data.length) =
        (List.range (max 1 (totalPages P db params))).map fun k =>
          min params.limit.toNat ((matching P db params).length - k * params.limit.toNat) :=
      List.map_congr_left fun k hk => length_page hlimit (h k (List.mem_range.1 hk))
    have hlast : ¬ max 1 (totalPages P db params) < totalPages P db params := by omega
    have hend := mt (lt_totalPages_iff hlimit (max 1 (totalPages P db params))).2 hlast
    rw [hmap, sum_page_lengths]
    omega

/-- On a store that does not change the pagination of every page is exact, and following it terminates. -/
theorem pagination_exact (P : Platform) (db : Db) {params : QueryParams} (hlimit : 1 ≤ params.limit) :
    (∀ page result, 1 ≤ page → ListsTo P db (params.atPage page) result → ExactPage P db params page result) ∧
      ∀ results : Nat → PaginatedResponse Shipment,
        (∀ k, k < max 1 (totalPages P db params) → ListsTo P db (params.atPage (k + 1)) (results k)) →
          ExactWalk P db params results := by
  refine ⟨fun page result hpage h => ?_, fun results h => exactWalk hlimit h⟩
  obtain ⟨k, rfl⟩ := Nat.exists_eq_add_of_le' hpage
  exact exactPage hlimit h

/-- The pages of `twoPending`, one shipment each, in the order in which the shipments are stored. -/
def pendingPages (k : Nat) : PaginatedResponse Shipment :=
  ⟨(twoPending.docs.drop k).take 1, ShipmentRepository.paginationOf (k + 1 : Nat) 1 2⟩

private theorem listsTo_pendingPages (k : Nat) :
    ListsTo referencePlatform twoPending (byStatus.params.atPage (k + 1)) (pendingPages k) := by
  have harranged : Arranged referenceMongo byStatus.params.sortBy byStatus.params.order
      (matching referencePlatform twoPending byStatus.params) twoPending.docs :=
    Oracle.arranged (Choice.oracle {} twoPending) _
  refine (listsTo_page_iff byStatus.pageSize_bounds.1).2 ⟨by decide, _, harranged, ?_⟩
  show pendingPages k = ⟨(twoPending.docs.drop (k * 1)).take 1, ShipmentRepository.paginationOf (k + 1 : Nat) 1 2⟩
  rw [Nat.mul_one]
  rfl

/-- Two pages of one shipment each, and an empty third one. -/
theorem pagination_exact_twoPending : (pendingPages 1).data = [sampleShipment 2 .pending] ∧
    ExactPage referencePlatform twoPending byStatus.params 1 (pendingPages 0) ∧
      ExactPage referencePlatform twoPending byStatus.params 2 (pendingPages 1) ∧
        ExactPage referencePlatform twoPending byStatus.params 3 (pendingPages 2) ∧
          ExactWalk referencePlatform twoPending byStatus.params pendingPages := by
  have hlimit : 1 ≤ byStatus.params.limit := byStatus.pageSize_bounds.1
  obtain ⟨hpage, hwalk⟩ := pagination_exact referencePlatform twoPending hlimit
  exact ⟨rfl, hpage 1 _ (by omega) (listsTo_pendingPages 0), hpage 2 _ (by omega) (listsTo_pendingPages 1),
    hpage 3 _ (by omega) (listsTo_pendingPages 2), hwalk pendingPages fun k _ => listsTo_pendingPages k⟩

/-! ### Creations between the requests -/

variable (P) in
/-- The database has saved any number of documents in between, or rejected them. -/
def GrowsTo : Db → Db → Prop :=
  Relation.ReflTransGen fun db db' => ∃ data r, Db.Executes P.mongo P.model (.save data) db r db'

/-- A `POST` saves a document or nothing. -/
theorem growsTo_of_post {a : Arrival P} (hroute : a.request.route = .create) {db' : Db} {response : HttpResponse}
    (h : Serves (Db.Executes P.mongo P.model) (app P a) db response db') : GrowsTo P db db' := by
  rw [app_eq] at h
  cases hp : plan P a with
  | error e =>
    rw [hp] at h
    obtain ⟨-, rfl⟩ := (serves_done _).1 h
    exact Relation.ReflTransGen.refl
  | ok p =>
    rw [hp] at h
    cases planOf hp hroute with
    | create data =>
      obtain ⟨r, db₁, hx, hdone⟩ := (serves_call _).1 h
      obtain ⟨-, rfl⟩ := (serves_done _).1 hdone
      exact Relation.ReflTransGen.single ⟨data, r, hx⟩

/-- No two shipments have the same tracking number. -/
def UniqueTracking (db : Db) : Prop := (db.docs.map Shipment.trackingNumber).Nodup

theorem save_cases {data : JsObject} {r : (Command.save data).Answer} {db' : Db}
    (h : Db.Executes P.mongo P.model (.save data) db r db') : db' = db ∨ ∃ s, Db.Inserted db s db' := by
  obtain ⟨o, h⟩ := h
  simp only [Db.exec] at h
  split at h
  · cases h
    exact Or.inl rfl
  · rename_i s hs
    rcases Db.insert_cases h with ⟨field, value, -, rfl⟩ | ⟨-, hins⟩
    · exact Or.inl rfl
    · exact Or.inr ⟨s, hins⟩

theorem GrowsTo.docs {db' : Db} (h : GrowsTo P db db') :
    db.docs.Sublist db'.docs ∧ (UniqueTracking db → UniqueTracking db') := by
  induction h with
  | refl => exact ⟨List.Sublist.refl _, id⟩
  | tail _ hstep ih =>
    obtain ⟨data, r, hx⟩ := hstep
    rcases save_cases hx with rfl | ⟨s, hins⟩
    · exact ih
    · refine ⟨ih.1.trans ?_, fun hdb => hins.nodup_trackingNumber (ih.2 hdb)⟩
      rw [hins.docs]
      exact List.sublist_append_left _ _

variable (P) in
/-- A client walks the pages of a listing while other clients create shipments: the request for the page `k + 1` finds
the store `dbs k`. -/
structure GrowingWalk (params : QueryParams) (dbs : Nat → Db) (results : Nat → PaginatedResponse Shipment) (n : Nat) :
    Prop where
  listed : ∀ k, k < n → ListsTo P (dbs k) (params.atPage (k + 1)) (results k)
  grows : ∀ k, k + 1 < n → GrowsTo P (dbs k) (dbs (k + 1))
  stops : StopsAfter (fun k => (results k).pagination.hasNextPage) n

theorem sortKey_trackingNumber (s : Shipment) : s.sortKey (js "trackingNumber") = .text s.trackingNumber := by
  rfl

/-- The sort keys of the matches of a walk in the order of the tracking numbers. -/
private theorem nodup_sortKeys (hdb : UniqueTracking db) (hsort : params.sortBy = js "trackingNumber") :
    ((matching P db params).map fun s => s.sortKey params.sortBy).Nodup := by
  have hmap : ((matching P db params).map fun s => s.sortKey params.sortBy) =
      ((matching P db params).map Shipment.trackingNumber).map SortKey.text := by
    rw [List.map_map, hsort]
    exact List.map_congr_left fun s _ => sortKey_trackingNumber s
  rw [hmap]
  refine List.Nodup.map (fun a b h => SortKey.text.inj h) ?_
  exact hdb.sublist (List.filter_sublist.map _)

/-- A walk in the order of the tracking numbers shows every matching shipment that was stored at its start, whatever
other clients create in the meantime. -/
theorem walk_misses_nothing (hlimit : 1 ≤ params.limit) (hsort : params.sortBy = js "trackingNumber") {dbs : Nat → Db}
    (unique : UniqueTracking (dbs 0)) {results : Nat → PaginatedResponse Shipment} {n : Nat}
    (walk : GrowingWalk P params dbs results n) :
    ∀ s ∈ matching P (dbs 0) params, ∃ k, k < n ∧ s ∈ (results k).data := by
  intro s hs
  have hunique : ∀ k, k < n → UniqueTracking (dbs k) := by
    intro k hk
    induction k with
    | zero => exact unique
    | succ k ih => exact (walk.grows k hk).docs.2 (ih (by omega))
  have hpages : ∀ k, ∃ A, k < n → Arranged P.mongo params.sortBy params.order (matching P (dbs k) params) A ∧
      (results k).data = (A.drop (k * params.limit.toNat)).take params.limit.toNat := by
    intro k
    by_cases hk : k < n
    · obtain ⟨-, A, hA, hr⟩ := (listsTo_page_iff hlimit).1 (walk.listed k hk)
      exact ⟨A, fun _ => ⟨hA, by rw [hr]⟩⟩
    · exact ⟨[], fun h => absurd h hk⟩
  choose A hA using hpages
  have hend : (matching P (dbs (n - 1)) params).length ≤ n * params.limit.toNat := by
    have hpos := walk.stops.pos
    obtain ⟨-, B, -, hr⟩ := (listsTo_page_iff hlimit).1 (walk.listed (n - 1) (by omega))
    have hlast := walk.stops.last
    rw [← Bool.not_eq_true, hr, hasNextPage_iff hlimit, Nat.sub_add_cancel hpos] at hlast
    omega
  obtain ⟨k, hk, hmem⟩ := mem_page_of_walk (fun k hk => (hA k hk).1) (fun k hk => nodup_sortKeys (hunique k hk) hsort)
    (fun k hk => (walk.grows k hk).docs.1.filter _) walk.stops.pos hend hs
  exact ⟨k, hk, by rw [(hA k hk).2]; exact hmem⟩

/-- A listing in the reverse order of the tracking numbers, one shipment a page. -/
def byTrackingNumber : QueryParams := { byStatus.params with sortBy := js "trackingNumber" }

/-- A shipment that such a listing shows before those of `twoPending`. -/
def laterData : JsObject :=
  [("trackingNumber", .str (js "SHP-20250101-AAAAAAAA")), ("senderName", .str (js "Ann")),
    ("receiverName", .str (js "Bob")), ("origin", .str (js "Rome")), ("destination", .str (js "Oslo"))]

/-- The shipment is created between the first two requests. -/
def growingStores (k : Nat) : Db := if k = 0 then twoPending else (Choice.run {} (.save laterData) twoPending).2

/-- The database's answer when it returns shipments with the same sort key in the order of their insertion. -/
def listResult (db : Db) (params : QueryParams) : PaginatedResponse Shipment :=
  ⟨slice ((Choice.oracle {} db).arrange params.sortBy params.order (matching referencePlatform db params))
      ((params.page - 1) * params.limit) params.limit,
    ShipmentRepository.paginationOf params.page params.limit (matching referencePlatform db params).length⟩

set_option maxRecDepth 4000 in
theorem walk_misses_nothing_growing : ∃ results : Nat → PaginatedResponse Shipment,
    GrowingWalk referencePlatform byTrackingNumber growingStores results 3 ∧
      ∀ s ∈ matching referencePlatform (growingStores 0) byTrackingNumber, ∃ k, k < 3 ∧ s ∈ (results k).data := by
  have herr : (listQuery referencePlatform byTrackingNumber).error? referenceMongo = none := by decide
  have hunique : UniqueTracking (growingStores 0) := by
    unfold UniqueTracking
    decide
  have hwalk : GrowingWalk referencePlatform byTrackingNumber growingStores
      (fun k => listResult (growingStores k) (byTrackingNumber.atPage (k + 1))) 3 := by
    refine ⟨fun k _ => ?_, fun k hk => ?_, by omega, by decide, fun k hk => ?_⟩
    · have hskip : 0 ≤ ((byTrackingNumber.atPage (k + 1)).page - 1) * (byTrackingNumber.atPage (k + 1)).limit := by
        show 0 ≤ (((k + 1 : Nat) : Int) - 1) * 1
        omega
      exact (listsTo_iff hskip).2 ⟨herr, _, Oracle.arranged _ _, rfl⟩
    · cases k with
      | zero => exact Relation.ReflTransGen.single ⟨laterData, _, Choice.executes {} (.save laterData) twoPending⟩
      | succ k => exact Relation.ReflTransGen.refl
    · have hk : k = 0 ∨ k = 1 := by omega
      rcases hk with rfl | rfl <;> decide
  exact ⟨_, hwalk, walk_misses_nothing (by decide) rfl hunique hwalk⟩

end ShipmentManager
