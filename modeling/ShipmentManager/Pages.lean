import ShipmentManager.Lib.Paging
import ShipmentManager.Queries
import ShipmentManager.Reference

/-!
# The pages of a listing

`ListsTo` says what `list` may return on a store that does not change: a slice of the matching shipments in some order
that the sort field respects, and the pagination of their number.  The sort object holds the requested field alone, so
every page may be cut from another order of the shipments that agree on it (`pages_partition_iff`).
-/

namespace ShipmentManager

open Interleaving Paging

section Arrange

variable (M : Mongo) (path : Text) (order : SortOrder)

/-- Two sort keys in the requested order. -/
def SortRel (a b : SortKey) : Prop := M.sortLe order a b = true

instance : DecidableRel (SortRel M order) := fun _ _ => inferInstanceAs (Decidable (_ = true))

instance : Std.Total (SortRel M order) := ⟨fun a b => by
  cases order
  · exact M.keyLe_total a b
  · exact M.keyLe_total b a⟩

instance : IsTrans SortKey (SortRel M order) := ⟨fun a b c hab hbc => by
  cases order
  · exact M.keyLe_trans a b c hab hbc
  · exact M.keyLe_trans c b a hbc hab⟩

instance : Std.Antisymm (SortRel M order) := ⟨fun a b hab hba => by
  cases order
  · exact M.keyLe_antisymm a b hab hba
  · exact M.keyLe_antisymm a b hba hab⟩

/-- The orders in which the database may return some shipments. -/
abbrev Arranged (l A : List Shipment) : Prop := Arrangement (fun s => s.sortKey path) (SortRel M order) l A

variable {M path order}

theorem Oracle.arranged {db : Db} (o : Oracle M db) (l : List Shipment) :
    Arranged M path order l (o.arrange path order l) :=
  ⟨o.arrange_perm path order l, o.arrange_sorted path order l⟩

/-- The database may return shipments in any order that their sort keys respect. -/
theorem exists_oracle (db : Db) {l A : List Shipment} (h : Arranged M path order l A) :
    ∃ o : Oracle M db, o.arrange path order l = A := by
  classical
  have hex : ∀ path order (l : List Shipment), ∃ A, Arranged M path order l A := fun _ _ l => exists_arrangement _ _ l
  choose f hf using hex
  refine ⟨{
    newId := db.freshId
    newId_fresh := db.freshId_fresh
    now := 0
    arrange := fun path' order' l' => if path' = path ∧ order' = order ∧ l' = l then A else f path' order' l'
    arrange_perm := fun path' order' l' => ?_
    arrange_sorted := fun path' order' l' => ?_ }, if_pos ⟨rfl, rfl, rfl⟩⟩
  · split
    · rename_i he
      obtain ⟨rfl, rfl, rfl⟩ := he
      exact h.perm
    · exact (hf path' order' l').perm
  · split
    · rename_i he
      obtain ⟨rfl, rfl, rfl⟩ := he
      exact h.sorted
    · exact (hf path' order' l').sorted

end Arrange

variable (P : Platform) (db : Db)

/-- What `list` may return, alone on a store. -/
def ListsTo (params : QueryParams) (result : PaginatedResponse Shipment) : Prop :=
  Serves (Db.Executes P.mongo P.model) (ShipmentRepository.list P.engine params).run db (.ok result) db

variable {P db}

theorem list_run (params : QueryParams) : (ShipmentRepository.list P.engine params).run =
    Prog.both
      (.find (listQuery P params) params.sortBy params.order ((params.page - 1) * params.limit) params.limit)
      (.countDocuments (listQuery P params)) fun r₁ r₂ => .done (do
        let shipments ← r₁
        let totalItems ← r₂
        return ⟨shipments, ShipmentRepository.paginationOf params.page params.limit totalItems⟩) := by
  unfold ShipmentRepository.list
  show Prog.both _ _ _ = Prog.both _ _ _
  congr 1
  funext r₁ r₂
  rcases r₁ with e | l
  · rfl
  · rcases r₂ with e | n <;> rfl

/-- Two reads that find the same store, and how they can be answered. -/
theorem listsTo_iff {params : QueryParams} (hskip : 0 ≤ (params.page - 1) * params.limit)
    {result : PaginatedResponse Shipment} :
    ListsTo P db params result ↔ (listQuery P params).error? P.mongo = none ∧
      ∃ A, Arranged P.mongo params.sortBy params.order (matching P db params) A ∧
        result = ⟨slice A ((params.page - 1) * params.limit) params.limit,
          ShipmentRepository.paginationOf params.page params.limit (matching P db params).length⟩ := by
  have hcount : (db.docs.countP fun s => (listQuery P params).matches P.mongo s) = (matching P db params).length :=
    List.countP_eq_length_filter
  unfold ListsTo
  rw [list_run, serves_both_reads _ (fun _ _ _ => executes_read rfl) (fun _ _ _ => executes_read rfl)]
  constructor
  · rintro ⟨r₁, r₂, hf, hc, hs⟩
    have hdone := ((serves_done _).1 hs).1
    rcases (executes_find hskip hf).2 with ⟨e, -, rfl⟩ | ⟨herr, o, rfl⟩
    · cases hdone
    · rcases (executes_count hc).2 with ⟨e, he, -⟩ | ⟨-, rfl⟩
      · rw [herr] at he
        cases he
      · refine ⟨herr, _, o.arranged (matching P db params), ?_⟩
        rw [← hcount]
        exact Except.ok.inj hdone
  · rintro ⟨herr, A, hA, rfl⟩
    obtain ⟨o, ho⟩ := exists_oracle db hA
    refine ⟨.ok (slice A ((params.page - 1) * params.limit) params.limit),
      .ok (Int.ofNat (matching P db params).length), ⟨o, ?_⟩, ⟨o, ?_⟩, (serves_done _).2 ⟨rfl, rfl⟩⟩
    · simp only [Db.exec, herr]
      rw [if_neg (by omega)]
      exact congrArg (fun l => (Except.ok (slice l _ _), db)) ho
    · simp only [Db.exec, herr]
      rw [hcount]

/-- The parameters of a listing for another page. -/
def QueryParams.atPage (params : QueryParams) (page : Nat) : QueryParams := { params with page := page }

variable (P db)

/-- `totalPages` of every response to a listing. -/
def totalPages (params : QueryParams) : Nat :=
  (ShipmentRepository.ceilDiv (matching P db params).length params.limit).toNat

/-- The pages 1 to `totalPages`, requested one after the other on a store that does not change, hold every matching
shipment exactly once. -/
def PagesPartition (params : QueryParams) : Prop :=
  ∀ results : Nat → PaginatedResponse Shipment,
    (∀ k, k < totalPages P db params → ListsTo P db (params.atPage (k + 1)) (results k)) →
      ((List.range (totalPages P db params)).flatMap fun k => (results k).data).Perm (matching P db params)

/-- The shipments on both sides of a boundary between two pages differ in the sort field. -/
def BoundariesUntied (params : QueryParams) : Prop :=
  ∀ k : Nat, 0 < k → k * params.limit.toNat < (matching P db params).length →
    Untied (fun s => s.sortKey params.sortBy) (SortRel P.mongo params.order) (matching P db params)
      (k * params.limit.toNat)

variable {P db}

theorem matching_nodup (params : QueryParams) : (matching P db params).Nodup :=
  (List.Nodup.of_map _ db.shipments.nodup).sublist List.filter_sublist

theorem totalPages_bounds (params : QueryParams) (hlimit : 1 ≤ params.limit) :
    (matching P db params).length ≤ totalPages P db params * params.limit.toNat := by
  unfold totalPages ShipmentRepository.ceilDiv
  generalize (matching P db params).length = n
  have hdiv : params.limit * (-(n : Int) / params.limit) ≤ -(n : Int) := Int.mul_ediv_self_le (by omega)
  have hle : (n : Int) ≤ -(-(n : Int) / params.limit) * params.limit := by
    rw [Int.neg_mul, Int.mul_comm]
    omega
  have hpos : 0 ≤ -(-(n : Int) / params.limit) := by
    have : -(n : Int) / params.limit ≤ 0 := Int.ediv_nonpos_of_nonpos_of_neg (by omega) (by omega)
    omega
  have hcast : ((-(-(n : Int) / params.limit)).toNat * params.limit.toNat : Nat) =
      -(-(n : Int) / params.limit) * params.limit := by
    rw [Int.natCast_mul, Int.toNat_of_nonneg hpos, Int.toNat_of_nonneg (by omega)]
  omega

/-- The length of the page that a number of matches calls for. -/
def pageLength (params : QueryParams) (totalItems : Int) : Int :=
  min params.limit (max 0 (totalItems - (params.page - 1) * params.limit))

theorem length_slice {α : Type} (l : List α) {skip limit : Int} (hskip : 0 ≤ skip) (hlimit : 1 ≤ limit) :
    ((slice l skip limit).length : Int) = min limit (max 0 (l.length - skip)) := by
  have hne : limit ≠ 0 := by omega
  rw [slice, if_neg hne, List.length_take, List.length_drop]
  omega

theorem slice_page {l : List Shipment} {params : QueryParams} (hlimit : 1 ≤ params.limit) (k : Nat) :
    slice l (((params.atPage (k + 1)).page - 1) * (params.atPage (k + 1)).limit) (params.atPage (k + 1)).limit =
      (l.drop (k * params.limit.toNat)).take params.limit.toNat := by
  have hskip : ((((k + 1 : Nat) : Int) - 1) * params.limit).toNat = k * params.limit.toNat := by
    have : ((k + 1 : Nat) : Int) - 1 = k := by omega
    rw [this, Int.toNat_mul (by omega) (by omega), Int.toNat_natCast]
  have hne : params.limit ≠ 0 := by omega
  show slice l ((((k + 1 : Nat) : Int) - 1) * params.limit) params.limit = _
  have habs : params.limit.natAbs = params.limit.toNat := by omega
  rw [slice, if_neg hne, hskip, habs]

private theorem skip_nonneg {params : QueryParams} (hlimit : 1 ≤ params.limit) (k : Nat) :
    0 ≤ ((params.atPage (k + 1)).page - 1) * (params.atPage (k + 1)).limit := by
  show 0 ≤ (((k + 1 : Nat) : Int) - 1) * params.limit
  exact Int.mul_nonneg (by omega) (by omega)

/-- What `list` may return for a page. -/
theorem listsTo_page_iff {params : QueryParams} (hlimit : 1 ≤ params.limit) {k : Nat}
    {result : PaginatedResponse Shipment} :
    ListsTo P db (params.atPage (k + 1)) result ↔ (listQuery P params).error? P.mongo = none ∧
      ∃ A, Arranged P.mongo params.sortBy params.order (matching P db params) A ∧
        result = ⟨(A.drop (k * params.limit.toNat)).take params.limit.toNat,
          ShipmentRepository.paginationOf (k + 1 : Nat) params.limit (matching P db params).length⟩ := by
  rw [listsTo_iff (skip_nonneg hlimit k)]
  simp only [slice_page hlimit k]
  exact Iff.rfl

/-- The results of the pages are slices of arrangements. -/
private theorem partition_iff_pages {params : QueryParams} (hlimit : 1 ≤ params.limit)
    (herr : (listQuery P params).error? P.mongo = none) :
    PagesPartition P db params ↔
      ∀ A : Nat → List Shipment,
        (∀ k, Arranged P.mongo params.sortBy params.order (matching P db params) (A k)) →
          (pages params.limit.toNat A (totalPages P db params)).Perm (matching P db params) := by
  constructor
  · intro h A hA
    exact h (fun k => ⟨((A k).drop (k * params.limit.toNat)).take params.limit.toNat,
      ShipmentRepository.paginationOf (k + 1 : Nat) params.limit (matching P db params).length⟩)
      fun k _ => (listsTo_page_iff hlimit).2 ⟨herr, A k, hA k, rfl⟩
  · intro h results hresults
    have hex : ∀ k, ∃ A, Arranged P.mongo params.sortBy params.order (matching P db params) A ∧
        (k < totalPages P db params →
          (results k).data = (A.drop (k * params.limit.toNat)).take params.limit.toNat) := by
      intro k
      by_cases hk : k < totalPages P db params
      · obtain ⟨-, A, hA, hr⟩ := (listsTo_page_iff hlimit).1 (hresults k hk)
        refine ⟨A, hA, fun _ => ?_⟩
        rw [hr]
      · obtain ⟨A, hA⟩ := exists_arrangement (fun s : Shipment => s.sortKey params.sortBy)
          (SortRel P.mongo params.order) (matching P db params)
        exact ⟨A, hA, fun h => absurd h hk⟩
    -- one arrangement for each page
    choose A hA hdata using hex
    have hpages : ((List.range (totalPages P db params)).flatMap fun k => (results k).data) =
        pages params.limit.toNat A (totalPages P db params) :=
      List.flatMap_congr fun k hk => hdata k (List.mem_range.1 hk)
    rw [hpages]
    exact h A hA

/-- Where the database rejects the filters, there is no page to look at. -/
private theorem partition_of_error {params : QueryParams} (hlimit : 1 ≤ params.limit)
    (herr : (listQuery P params).error? P.mongo ≠ none) : PagesPartition P db params := by
  intro results hresults
  rcases Nat.eq_zero_or_pos (totalPages P db params) with hzero | hpos
  · have hlen : (matching P db params).length ≤ totalPages P db params * params.limit.toNat :=
      totalPages_bounds params hlimit
    rw [hzero, Nat.zero_mul] at hlen
    have hnil : matching P db params = [] := List.eq_nil_of_length_eq_zero (by omega)
    rw [hzero, hnil]
    exact List.Perm.refl _
  · exact absurd ((listsTo_page_iff hlimit).1 (hresults 0 hpos)).1 herr

/-- Walking the pages yields every matching shipment exactly once, whatever order the database returns shipments in that
agree on the sort field, exactly when no two of them are on both sides of a boundary between pages. -/
theorem pages_partition_iff (P : Platform) (db : Db) (q : ListQuery) :
    PagesPartition P db q.params ↔
      ((listQuery P q.params).error? P.mongo = none → BoundariesUntied P db q.params) := by
  have hlimit : 1 ≤ q.params.limit := q.pageSize_bounds.1
  by_cases herr : (listQuery P q.params).error? P.mongo = none
  · rw [partition_iff_pages hlimit herr, pages_perm_iff (matching_nodup _) (by omega) (totalPages_bounds _ hlimit)]
    exact ⟨fun h _ => h, fun h => h herr⟩
  · exact ⟨fun _ h => absurd h herr, fun _ => partition_of_error hlimit herr⟩

/-- A listing by status, one shipment a page. -/
def byStatus : ListQuery where
  page := none
  limit := some 1
  sortBy := some (js "status")
  order := none
  status := none
  origin := none
  destination := none
  search := none
  startDate := none
  endDate := none
  page_safe := by simp
  limit_safe := by simp
  sortBy_mem := by
    intro t ht
    cases ht
    decide
  order_mem := by simp
  status_mem := by simp
  origin_text := by simp
  destination_text := by simp
  search_text := by simp
  range := by simp

/-- Two shipments with the same status. -/
def twoPending : Db := storeOf [sampleShipment 1 .pending, sampleShipment 2 .pending] (by decide)

/-- Two pages of one shipment each can both show the same one. -/
theorem pages_partition_fails :
    ¬ ∀ (P : Platform) (db : Db) (q : ListQuery), PagesPartition P db q.params := by
  intro h
  have hlimit : 1 ≤ byStatus.params.limit := byStatus.pageSize_bounds.1
  have herr : (listQuery referencePlatform byStatus.params).error? referenceMongo = none := by decide
  have hresults := h referencePlatform twoPending byStatus (fun k =>
    ⟨(((Choice.oracle { reversed := k = 1 } twoPending).arrange byStatus.params.sortBy byStatus.params.order
        (matching referencePlatform twoPending byStatus.params)).drop (k * byStatus.params.limit.toNat)).take
        byStatus.params.limit.toNat,
      ShipmentRepository.paginationOf (k + 1 : Nat) byStatus.params.limit
        (matching referencePlatform twoPending byStatus.params).length⟩)
    fun k _ => (listsTo_page_iff hlimit).2 ⟨herr, _, Oracle.arranged _ _, rfl⟩
  have hsame := hresults.nodup_iff.2 (matching_nodup _)
  revert hsame
  decide

end ShipmentManager
