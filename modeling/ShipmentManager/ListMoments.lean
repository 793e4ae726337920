import ShipmentManager.Responses

/-!
# Listings beside writes

`list` issues its two reads in parallel, and each of them sees the store of its own moment.  The page describes the one
store and the pagination the other; the length of the page misses the one that `totalItems` calls for by at most the
number of writes between the two moments (`list_describes_two_moments`).
-/

namespace ShipmentManager

open Interleaving Paging

/-! ### The number of matches -/

section Matches

variable (q : Shipment → Bool)

/-- The number of documents that satisfy `q`. -/
def Db.count (db : Db) : Int := Int.ofNat (db.docs.countP q)

private theorem count_cons (s : Shipment) (l : List Shipment) :
    l.countP q ≤ (s :: l).countP q ∧ (s :: l).countP q ≤ l.countP q + 1 := by
  rw [List.countP_cons]
  split <;> omega

/-- A step moves the number of matches only when it writes, and by at most one. -/
theorem Effect.count_le {c : Command} {r : c.Answer} {db db' : Db} (h : Effect c r db db') :
    (db'.count q - db.count q).natAbs ≤ if isWrite c r then 1 else 0 := by
  unfold Db.count
  cases h with
  | inserted data s _ _ fresh times sent body h =>
    have hwrite : isWrite (.save data) (.ok s) = true := rfl
    rw [hwrite, h.docs, List.countP_append, List.countP_singleton]
    split <;> simp only [Int.ofNat_eq_natCast, if_true] <;> omega
  | updated id data u s _ _ sent body h =>
    have hwrite : isWrite (.findByIdAndUpdate id data) (.ok (some (u.apply s))) = true := rfl
    have hs : db.shipments.get? (hexValue id) = some s := h.present
    -- all documents but one are the same before and after
    have hbefore := (Collection.docs_perm hs).countP_eq q
    have hafter := (Collection.modify_docs_perm u.apply_id hs).countP_eq q
    have hdocs : db'.docs = (db.shipments.modify (hexValue id) u.apply u.apply_id).docs := h.docs
    have h₁ := count_cons q s (db.shipments.erase (hexValue id)).docs
    have h₂ := count_cons q (u.apply s) (db.shipments.erase (hexValue id)).docs
    rw [hwrite, hdocs, hafter]
    show (Int.ofNat _ - Int.ofNat (db.shipments.docs.countP q)).natAbs ≤ _
    rw [hbefore]
    simp only [Int.ofNat_eq_natCast, if_true]
    omega
  | deleted id s _ _ h =>
    have hwrite : isWrite (.findByIdAndDelete id) (.ok (some s)) = true := rfl
    have hs : db.shipments.get? (hexValue id) = some s := h.present
    have hbefore := (Collection.docs_perm hs).countP_eq q
    have hdocs : db'.docs = (db.shipments.erase (hexValue id)).docs := h.docs
    have h₁ := count_cons q s (db.shipments.erase (hexValue id)).docs
    rw [hwrite, hdocs]
    show (Int.ofNat _ - Int.ofNat (db.shipments.docs.countP q)).natAbs ≤ _
    rw [hbefore]
    simp only [Int.ofNat_eq_natCast, if_true]
    omega
  | _ => simp

end Matches

/-! ### The two moments -/

variable {P : Platform}

theorem pageLength_sub_le (params : QueryParams) (a b : Int) :
    (pageLength params a - pageLength params b).natAbs ≤ (a - b).natAbs := by
  unfold pageLength
  generalize (params.page - 1) * params.limit = skip
  omega

variable (P) in
/-- The number of shipments that match the filters. -/
def matchCount (params : QueryParams) (db : Db) : Int := db.count fun s => (listQuery P params).matches P.mongo s

theorem matchCount_eq (params : QueryParams) (db : Db) :
    matchCount P params db = ((matching P db params).length : Int) :=
  congrArg Int.ofNat List.countP_eq_length_filter

variable (P) in
/-- The page of a listing is one of the store `found`, and its pagination is that of the store `counted`. -/
structure ListedAt (params : QueryParams) (data : List ShipmentResponse) (pagination : PaginationMeta)
    (found counted : Db) : Prop where
  page : ∃ A, Arranged P.mongo params.sortBy params.order (matching P found params) A ∧
    data = (slice A ((params.page - 1) * params.limit) params.limit).map ShipmentService.toResponse
  length : (data.length : Int) = pageLength params (matchCount P params found)
  pagination : pagination = ShipmentRepository.paginationOf params.page params.limit (matchCount P params counted)

theorem ListedAt.totalItems {params : QueryParams} {data : List ShipmentResponse} {pagination : PaginationMeta}
    {found counted : Db} (h : ListedAt P params data pagination found counted) :
    pagination.totalItems = matchCount P params counted := by
  rw [h.pagination]
  rfl

/-- What the two reads of a listing answer makes its response. -/
private theorem listedAt_of_reads {q : ListQuery} {found found' counted counted' : Db}
    {r₁ : Except JsError (List Shipment)} {r₂ : Except JsError Int}
    (hf : Db.Executes P.mongo P.model (.find (listQuery P q.params) q.params.sortBy q.params.order
      ((q.params.page - 1) * q.params.limit) q.params.limit) found r₁ found')
    (hc : Db.Executes P.mongo P.model (.countDocuments (listQuery P q.params)) counted r₂ counted')
    {message : Text} {data : List ShipmentResponse} {pagination : PaginationMeta}
    (h : finishList P q.params r₁ r₂ = ⟨200, .shipments message data pagination⟩) :
    ListedAt P q.params data pagination found counted := by
  have hskip : 0 ≤ (q.params.page - 1) * q.params.limit := q.skip_bounds.1
  have hlimit : 1 ≤ q.params.limit := q.pageSize_bounds.1
  rcases (executes_find hskip hf).2 with ⟨e, -, rfl⟩ | ⟨-, o, rfl⟩
  · cases congrArg HttpResponse.body h
  · rcases (executes_count hc).2 with ⟨e, -, rfl⟩ | ⟨-, rfl⟩
    · cases congrArg HttpResponse.body h
    · cases h
      have harr : Arranged P.mongo q.params.sortBy q.params.order (matching P found q.params) _ := o.arranged _
      refine ⟨⟨_, harr, rfl⟩, ?_, rfl⟩
      have hlen : (o.arrange q.params.sortBy q.params.order (matching P found q.params)).length =
          (matching P found q.params).length := harr.perm.length_eq
      rw [List.length_map]
      show ((slice (o.arrange q.params.sortBy q.params.order (matching P found q.params)) _ _).length : Int) = _
      rw [length_slice _ hskip hlimit, hlen, ← matchCount_eq]
      rfl

/-- An accepted listing reads a validated query. -/
theorem plan_list_query {a : Arrival P} {params : QueryParams} (h : plan P a = .ok (.list params)) :
    ∃ q : ListQuery, params = q.params := by
  cases plan_checked h with
  | list text query _ route valid parsed =>
    obtain ⟨body, hbody, -⟩ := bind_ok h
    obtain ⟨-, hr, hplan⟩ := plan_list hbody route valid
    rw [h] at hplan
    cases hplan
    exact ⟨_, rfl⟩

section Run

variable {db : Db} {w : ServerWorld P}

/-- The events between two moments of a run. -/
def eventsBetween (es : List DbEvent) (m n : Nat) : List DbEvent := (es.take (max m n)).drop (min m n)

/-- The number of matches moves between two moments by at most the number of writes. -/
theorem Reachable.matchCount_sub_le (hw : Reachable P db w) (params : QueryParams) (m n : Nat) :
    (matchCount P params (stateAt db w.events m) - matchCount P params (stateAt db w.events n)).natAbs ≤
      writeCount (eventsBetween w.events m n) := by
  have hbound : ∀ m n, m ≤ n →
      (matchCount P params (stateAt db w.events n) - matchCount P params (stateAt db w.events m)).natAbs ≤
        writeCount ((w.events.take n).drop m) := fun m n hmn =>
    (Interleaving.Reachable.sound hw).chained.natAbs_sub_le (matchCount P params) (fun e => isWrite e.cmd e.answer)
      (fun e he => (Reachable.effect hw he).count_le _) hmn
  unfold eventsBetween
  -- the find may come before the count or after it
  rcases Nat.le_total m n with hmn | hmn
  · have hle := hbound m n hmn
    rw [Nat.max_eq_right hmn, Nat.min_eq_left hmn]
    omega
  · have hle := hbound n m hmn
    rw [Nat.max_eq_left hmn, Nat.min_eq_right hmn]
    omega

/-- The listing of the task `i` has made its two reads, each at its own moment, and the length of its page misses the
one that its `totalItems` calls for by at most the number of writes in between. -/
def DescribesTwoMoments (P : Platform) (db : Db) (w : ServerWorld P) (i : Nat) (params : QueryParams)
    (data : List ShipmentResponse) (pagination : PaginationMeta) : Prop :=
  ∃ m n e₁ e₂, w.log[m]? = some (i, e₁) ∧ w.log[n]? = some (i, e₂) ∧
    e₁.cmd = .find (listQuery P params) params.sortBy params.order ((params.page - 1) * params.limit) params.limit ∧
    e₂.cmd = .countDocuments (listQuery P params) ∧
    ListedAt P params data pagination (stateAt db w.events m) (stateAt db w.events n) ∧
    ((data.length : Int) - pageLength params pagination.totalItems).natAbs ≤ writeCount (eventsBetween w.events m n)

section Answered

variable {i : Nat} {t : Task Command Command.Answer (Arrival P) HttpResponse} {params : QueryParams} {message : Text}
  {data : List ShipmentResponse} {pagination : PaginationMeta}

/-- An answered listing has made its two reads. -/
theorem exists_reads (hw : Reachable P db w) (ht : w.tasks[i]? = some t) (hplan : plan P t.origin = .ok (.list params))
    (hdone : t.prog = .done ⟨200, .shipments message data pagination⟩) :
    ∃ (m n : Nat) (e₁ e₂ : DbEvent), w.log[m]? = some (i, e₁) ∧ w.log[n]? = some (i, e₂) ∧
      e₁.cmd = .find (listQuery P params) params.sortBy params.order ((params.page - 1) * params.limit) params.limit ∧
      e₂.cmd = .countDocuments (listQuery P params) := by
  have hruns := (Interleaving.Reachable.sound hw).runs i t ht
  rw [app_eq, hplan, hdone] at hruns
  obtain ⟨r₁, r₂, s₁, s₁', s₂, s₂', rest, hown, -⟩ := Prog.runs_both hruns
  obtain ⟨hmem₁, hmem₂⟩ := Prog.mem_of_both hown
  obtain ⟨m, hm⟩ := List.getElem?_of_mem (World.mem_own.1 hmem₁)
  obtain ⟨n, hn⟩ := List.getElem?_of_mem (World.mem_own.1 hmem₂)
  exact ⟨m, n, _, _, hm, hn, rfl, rfl⟩

/-- The response to a listing describes the stores of the two moments at which its find and its count were made. -/
theorem listedAt_of_log (hw : Reachable P db w) (ht : w.tasks[i]? = some t)
    (hplan : plan P t.origin = .ok (.list params))
    (hdone : t.prog = .done ⟨200, .shipments message data pagination⟩) {m n : Nat} {e₁ e₂ : DbEvent}
    (hm : w.log[m]? = some (i, e₁)) (hn : w.log[n]? = some (i, e₂))
    (hfind : e₁.cmd = .find (listQuery P params) params.sortBy params.order ((params.page - 1) * params.limit)
      params.limit) (hcount : e₂.cmd = .countDocuments (listQuery P params)) :
    ListedAt P params data pagination (stateAt db w.events m) (stateAt db w.events n) := by
  obtain ⟨q, rfl⟩ := plan_list_query hplan
  have hsound := Interleaving.Reachable.sound hw
  have hruns := hsound.runs i t ht
  rw [app_eq, hplan, hdone] at hruns
  obtain ⟨r₁, r₂, s₁, s₁', s₂, s₂', rest, hown, hrest⟩ := Prog.runs_both hruns
  obtain ⟨rfl, hfinish⟩ := Prog.runs_done hrest
  have hmem₁ : e₁ ∈ w.own i := World.mem_own.2 (List.mem_of_getElem? hm)
  have hmem₂ : e₂ ∈ w.own i := World.mem_own.2 (List.mem_of_getElem? hn)
  -- the two steps of the request are one of each kind
  have hreads : e₁ = ⟨_, r₁, s₁, s₁'⟩ ∧ e₂ = ⟨_, r₂, s₂, s₂'⟩ := by
    rcases hown with hown | hown <;> rw [hown] at hmem₁ hmem₂ <;>
      simp only [List.mem_cons, List.not_mem_nil, or_false] at hmem₁ hmem₂
    · refine ⟨hmem₁.resolve_right ?_, hmem₂.resolve_left ?_⟩
      · rintro rfl
        cases hfind
      · rintro rfl
        cases hcount
    · refine ⟨hmem₁.resolve_left ?_, hmem₂.resolve_right ?_⟩
      · rintro rfl
        cases hfind
      · rintro rfl
        cases hcount
  obtain ⟨rfl, rfl⟩ := hreads
  rw [(hsound.chained.stateAt_getElem (World.events_getElem? hm)).1,
    (hsound.chained.stateAt_getElem (World.events_getElem? hn)).1]
  exact listedAt_of_reads (hsound.executed _ (World.mem_events (World.mem_own.1 hmem₁)))
    (hsound.executed _ (World.mem_events (World.mem_own.1 hmem₂))) (Prog.done.inj hfinish).symm

end Answered

/-- A listing that is answered with a page describes the store at the moments of its two reads, in either order. -/
theorem list_describes_two_moments (hw : Reachable P db w) {i : Nat}
    {t : Task Command Command.Answer (Arrival P) HttpResponse} (ht : w.tasks[i]? = some t) {params : QueryParams}
    (hplan : plan P t.origin = .ok (.list params)) {message : Text} {data : List ShipmentResponse}
    {pagination : PaginationMeta} (hdone : t.prog = .done ⟨200, .shipments message data pagination⟩) :
    DescribesTwoMoments P db w i params data pagination := by
  obtain ⟨m, n, e₁, e₂, hm, hn, hfind, hcount⟩ := exists_reads hw ht hplan hdone
  have hlisted := listedAt_of_log hw ht hplan hdone hm hn hfind hcount
  refine ⟨m, n, e₁, e₂, hm, hn, hfind, hcount, hlisted, ?_⟩
  have hlip := pageLength_sub_le params (matchCount P params (stateAt db w.events m))
    (matchCount P params (stateAt db w.events n))
  have hcount := Reachable.matchCount_sub_le hw params m n
  rw [hlisted.length, hlisted.totalItems]
  omega

end Run

/-- What a task has answered a listing with. -/
def listing? (t : Task Command Command.Answer (Arrival referencePlatform) HttpResponse) :
    Option (QueryParams × Text × List ShipmentResponse × PaginationMeta) :=
  match plan referencePlatform t.origin, t.prog with
  | .ok (.list params), .done ⟨200, .shipments message data pagination⟩ => some (params, message, data, pagination)
  | _, _ => none

private theorem of_listing? {t : Task Command Command.Answer (Arrival referencePlatform) HttpResponse}
    {params : QueryParams} {message : Text} {data : List ShipmentResponse} {pagination : PaginationMeta}
    (h : listing? t = some (params, message, data, pagination)) :
    plan referencePlatform t.origin = .ok (.list params) ∧
      t.prog = .done ⟨200, .shipments message data pagination⟩ := by
  unfold listing? at h
  split at h
  · rename_i hplan hprog
    cases h
    exact ⟨hplan, hprog⟩
  · cases h

/-- A deletion between the two reads of a listing. -/
def racingListing : List (Move (Arrival referencePlatform) Choice) :=
  [.arrive (listRequest ""), .arrive (deleteRequest 1), .perform 0 false {}, .perform 1 false {}, .perform 0 false {}]

set_option maxRecDepth 4000 in
private theorem exists_racingListing : ∃ w t params message data pagination,
    Reachable referencePlatform (sampleStore .pending) w ∧ w.tasks[0]? = some t ∧
      plan referencePlatform t.origin = .ok (.list params) ∧
        t.prog = .done ⟨200, .shipments message data pagination⟩ ∧
          (data.length : Int) ≠ pageLength params pagination.totalItems := by
  obtain ⟨w, hw, hq⟩ := exists_run (sampleStore .pending) racingListing (fun w =>
    (w.tasks[0]?.bind listing?).any fun x => (x.2.2.1.length : Int) ≠ pageLength x.1 x.2.2.2.totalItems) (by decide)
  obtain ⟨⟨params, message, data, pagination⟩, ha, hne⟩ := (Option.any_eq_true _ _).1 hq
  obtain ⟨t, ht, ha⟩ := Option.bind_eq_some_iff.1 ha
  obtain ⟨hplan, hdone⟩ := of_listing? ha
  exact ⟨w, t, params, message, data, pagination, hw, ht, hplan, hdone, by simpa using hne⟩

theorem list_describes_two_moments_racing : ∃ w params data pagination,
    Reachable referencePlatform (sampleStore .pending) w ∧
      DescribesTwoMoments referencePlatform (sampleStore .pending) w 0 params data pagination := by
  obtain ⟨w, t, params, message, data, pagination, hw, ht, hplan, hdone, -⟩ := exists_racingListing
  exact ⟨w, params, data, pagination, hw, list_describes_two_moments hw ht hplan hdone⟩

/-- The page holds the shipment that the pagination no longer counts. -/
theorem list_agrees_fails :
    ¬ ∀ (P : Platform) (db : Db) (w : ServerWorld P), Reachable P db w →
      ∀ (i : Nat) (t : Task Command Command.Answer (Arrival P) HttpResponse) (params : QueryParams) (message : Text)
        (data : List ShipmentResponse) (pagination : PaginationMeta), w.tasks[i]? = some t →
          plan P t.origin = .ok (.list params) → t.prog = .done ⟨200, .shipments message data pagination⟩ →
            (data.length : Int) = pageLength params pagination.totalItems := by
  intro h
  obtain ⟨w, t, params, message, data, pagination, hw, ht, hplan, hdone, hne⟩ := exists_racingListing
  exact hne (h referencePlatform (sampleStore .pending) w hw 0 t params message data pagination ht hplan hdone)

end ShipmentManager
