import ShipmentManager.Invariants

/-!
# Deletion

Once a shipment is deleted it stays deleted: its identifier was given out, so no later insertion can use it, and neither
an update nor a deletion brings a document back.  So of all deletions of one shipment exactly one finds it, and every
later step on it finds nothing (`Effect.missing`), which its request answers with not found (`OwnStep.missing`).
-/

namespace ShipmentManager

open Interleaving

/-- The response to a request for a shipment that does not exist. -/
def notFoundResponse : HttpResponse := ⟨404, .error (js "Shipment not found") .resourceNotFound none⟩

theorem errorHandler_notFound (b : Bool) : errorHandler b ShipmentService.notFound = notFoundResponse := by
  cases b <;> decide

/-- The identifier that a command on one shipment names. -/
def Command.target? : Command → Option ObjectId
  | .save _ => none
  | .findById id => some (hexValue id)
  | .findOne _ => none
  | .find _ _ _ _ _ => none
  | .countDocuments _ => none
  | .findByIdAndUpdate id _ => some (hexValue id)
  | .findByIdAndDelete id => some (hexValue id)

/-- The identifier that a deletion names. -/
def Command.deletes? : Command → Option ObjectId
  | .findByIdAndDelete id => some (hexValue id)
  | _ => none

/-- The command found no shipment. -/
def Missing : (c : Command) → c.Answer → Prop
  | .findById _, .ok none => True
  | .findByIdAndUpdate _ _, .ok none => True
  | .findByIdAndDelete _, .ok none => True
  | _, _ => False

/-- A command on a shipment that is not there finds nothing. -/
theorem Effect.missing {c : Command} {r : c.Answer} {db db' : Db} (h : Effect c r db db') {id : ObjectId}
    (hc : c.target? = some id) (hg : db.get? id = none) : Missing c r := by
  cases h with
  | found id' =>
    cases hc
    rw [hg]
    trivial
  | listed => cases hc
  | counted => cases hc
  | insertFailed => cases hc
  | inserted => cases hc
  | updateMissing => trivial
  | updateFailed id' data value s d _ present hd distinct clash =>
    cases hc
    rw [present] at hg
    cases hg
  | updated id' data u s _ _ sent body hu =>
    cases hc
    rw [hu.present] at hg
    cases hg
  | deleteMissing => trivial
  | deleted id' s _ _ hd =>
    cases hc
    rw [hd.present] at hg
    cases hg

/-- A command after which a shipment is gone has deleted it. -/
theorem Effect.deletes {c : Command} {r : c.Answer} {db db' : Db} (h : Effect c r db db') {id : ObjectId}
    (hg : db.get? id ≠ none) (hg' : db'.get? id = none) : Deletes c r id := by
  cases h with
  | inserted data s _ _ fresh times sent body hi =>
    rw [hi.get?] at hg'
    split at hg'
    · cases hg'
    · exact absurd hg' hg
  | updated id' data u s _ _ sent body hu =>
    rw [hu.get?] at hg'
    split at hg'
    · cases hg'
    · exact absurd hg' hg
  | deleted id' s _ _ hd =>
    rw [hd.get?] at hg'
    split at hg'
    · rename_i hid
      exact (Db.id_of_get? hd.present).trans hid
    · exact absurd hg' hg
  | found => exact absurd hg' hg
  | listed => exact absurd hg' hg
  | counted => exact absurd hg' hg
  | insertFailed => exact absurd hg' hg
  | updateMissing => exact absurd hg' hg
  | updateFailed => exact absurd hg' hg
  | deleteMissing => exact absurd hg' hg

/-- After a deletion the shipment is gone, whether the deletion found it or not. -/
theorem Effect.gone_of_deletion {c : Command} {r : c.Answer} {db db' : Db} (h : Effect c r db db') {id : ObjectId}
    (hc : c.deletes? = some id) : db'.get? id = none := by
  cases h with
  | deleteMissing text _ absent => exact Option.some.inj hc ▸ absent
  | deleted text s _ _ h => rw [h.get?, if_pos (Option.some.inj hc)]
  | _ => cases hc

/-- A deletion names the shipment, finds it, and removes it. -/
theorem Effect.of_deletes {c : Command} {r : c.Answer} {db db' : Db} (h : Effect c r db db') {id : ObjectId}
    (hd : Deletes c r id) : c.target? = some id ∧ db.get? id ≠ none ∧ db'.get? id = none := by
  cases h with
  | deleted text s _ _ h =>
    have hid : hexValue text = id := (Db.id_of_get? h.present).symm.trans hd
    subst hid
    refine ⟨rfl, ?_, ?_⟩
    · rw [h.present]
      simp
    · rw [h.get?, if_pos rfl]
  | _ => exact False.elim hd

variable {P : Platform}

/-- A request whose step finds nothing is answered with not found. -/
theorem OwnStep.missing {p : Plan} {c : Command} {r : c.Answer} {q : Prog Command Command.Answer HttpResponse}
    (h : OwnStep P p c r q) (hr : Missing c r) : q = .done notFoundResponse := by
  have hfinish : ∀ status message, finish P status message (.ok none) = notFoundResponse :=
    fun _ _ => errorHandler_notFound _
  cases h with
  | find => cases hr
  | count => cases hr
  | create => cases hr
  | readFailed => cases hr
  | readFound => cases hr
  | readMissing => exact congrArg _ (errorHandler_notFound _)
  | get id r =>
    rcases r with e | _ | s
    · cases hr
    · exact congrArg Prog.done (hfinish _ _)
    · cases hr
  | write id data r =>
    rcases r with e | _ | s
    · cases hr
    · exact congrArg Prog.done (hfinish _ _)
    · cases hr
  | delete id r =>
    rcases r with e | _ | s
    · cases hr
    · exact congrArg Prog.done (hfinish _ _)
    · cases hr

/-- A request that deletes a shipment is answered with it. -/
theorem OwnStep.deletes {p : Plan} {c : Command} {r : c.Answer} {q : Prog Command Command.Answer HttpResponse}
    (h : OwnStep P p c r q) {id : ObjectId} (hc : c.target? = some id) (hd : Deletes c r id) :
    ∃ text s, p = .delete text ∧ hexValue text = id ∧ s._id = id ∧
      q = .done (answer 200 "Shipment deleted successfully" s) := by
  cases h with
  | delete text r =>
    rcases r with e | _ | s
    · cases hd
    · cases hd
    · exact ⟨text, s, rfl, Option.some.inj hc, hd, rfl⟩
  | find => cases hd
  | count => cases hd
  | get => cases hd
  | create => cases hc
  | readFailed => cases hd
  | readMissing => cases hd
  | readFound => cases hd
  | write => cases hd

section Run

variable {db : Db} {w : ServerWorld P}

/-- A shipment that is gone at one moment of a run is gone at every later one. -/
theorem Reachable.stays_gone (hw : Reachable P db w) {id : ObjectId} {k m n : Nat} (hkm : k ≤ m) (hmn : m ≤ n)
    (hk : (stateAt db w.events k).get? id ≠ none) (hm : (stateAt db w.events m).get? id = none) :
    (stateAt db w.events n).get? id = none := by
  obtain ⟨s, hs⟩ := Option.ne_none_iff_exists'.1 hk
  have hissued := (Reachable.evolves hw hkm).issued id (Db.issued_of_get? hs)
  exact (Reachable.evolves hw hmn).gone id hissued hm

/-- The store before and after a logged event. -/
theorem Reachable.around (hw : Reachable P db w) {n i : Nat} {e : DbEvent} (h : w.log[n]? = some (i, e)) :
    stateAt db w.events n = e.before ∧ stateAt db w.events (n + 1) = e.after ∧
      Effect e.cmd e.answer e.before e.after := by
  have he := World.events_getElem? h
  obtain ⟨h₁, h₂⟩ := (Interleaving.Reachable.sound hw).chained.stateAt_getElem he
  exact ⟨h₁, h₂, Reachable.effect hw (List.mem_of_getElem? he)⟩

/-- A shipment is deleted at most once in a run. -/
theorem Reachable.deletes_unique (hw : Reachable P db w) {id : ObjectId} {m n i j : Nat} {e e' : DbEvent}
    (hm : w.log[m]? = some (i, e)) (hn : w.log[n]? = some (j, e')) (hd : Deletes e.cmd e.answer id)
    (hd' : Deletes e'.cmd e'.answer id) : m = n := by
  have key : ∀ {m n i j : Nat} {e e' : DbEvent}, w.log[m]? = some (i, e) → w.log[n]? = some (j, e') →
      Deletes e.cmd e.answer id → Deletes e'.cmd e'.answer id → ¬ m < n := by
    intro m n i j e e' hm hn hd hd' hlt
    obtain ⟨hb, ha, heff⟩ := Reachable.around hw hm
    obtain ⟨hb', -, heff'⟩ := Reachable.around hw hn
    obtain ⟨-, hp, hg⟩ := heff.of_deletes hd
    have hgone := Reachable.stays_gone hw (Nat.le_succ m) hlt (hb ▸ hp) (ha ▸ hg)
    rw [hb'] at hgone
    exact (heff'.of_deletes hd').2.1 hgone
  have h₁ := key hm hn hd hd'
  have h₂ := key hn hm hd' hd
  omega

/-- The request is an accepted deletion of the shipment. -/
def Deleting (id : ObjectId) (a : Arrival P) : Prop := ∃ text, plan P a = .ok (.delete text) ∧ hexValue text = id

variable (P) in
/-- The step `k` of a run, a step of the task `j`, deletes the shipment for good. -/
structure DeletedOnce (db : Db) (w : ServerWorld P) (id : ObjectId) (k j : Nat) : Prop where
  /-- The deletion that succeeds. -/
  winner : ∃ t s e, w.log[k]? = some (j, e) ∧ Deletes e.cmd e.answer id ∧ w.tasks[j]? = some t ∧
    Deleting id t.origin ∧ s._id = id ∧ t.prog = .done (answer 200 "Shipment deleted successfully" s)
  others : ∀ i t response, i ≠ j → w.tasks[i]? = some t → Deleting id t.origin → t.prog = .done response →
    response = notFoundResponse
  gone : ∀ n, k < n → (stateAt db w.events n).get? id = none
  /-- Later steps on the shipment, of whatever request. -/
  late : ∀ n i e, k < n → w.log[n]? = some (i, e) → e.cmd.target? = some id →
    ∃ t, w.tasks[i]? = some t ∧ t.prog = .done notFoundResponse

/-- Of the deletions of one shipment exactly one succeeds, and from its step on the shipment is gone. -/
theorem delete_once (hw : Reachable P db w) {id : ObjectId} (hpresent : db.get? id ≠ none) {n i : Nat} {e : DbEvent}
    (hlog : w.log[n]? = some (i, e)) (hcmd : e.cmd.deletes? = some id) :
    ∃ k j, k ≤ n ∧ DeletedOnce P db w id k j := by
  have hchain := (Interleaving.Reachable.sound hw).chained
  have hgone : (stateAt db w.events (n + 1)).get? id = none := by
    obtain ⟨-, ha, heff⟩ := Reachable.around hw hlog
    rw [ha]
    exact heff.gone_of_deletion hcmd
  -- the first step after which the shipment is gone is a deletion that found it
  obtain ⟨k, e₀, hk, he₀, hp, hg⟩ := hchain.exists_change (fun s => s.get? id ≠ none) hpresent (by simpa using hgone)
  obtain ⟨j, hj⟩ := World.log_getElem? he₀
  obtain ⟨hb, ha, heff⟩ := Reachable.around hw hj
  have hd : Deletes e₀.cmd e₀.answer id := heff.deletes hp (by simpa using hg)
  have hafter : ∀ m, k < m → (stateAt db w.events m).get? id = none := fun m hm =>
    Reachable.stays_gone hw (Nat.le_succ k) hm (hb ▸ hp) (ha ▸ by simpa using hg)
  refine ⟨k, j, by omega, ?_, ?_, hafter, ?_⟩
  · obtain ⟨t, p, ht, hplan, -, -, hstep⟩ := Reachable.task_step hw (List.mem_of_getElem? hj)
    obtain ⟨text', s, rfl, hid', hs, hq⟩ := hstep.deletes (heff.of_deletes hd).1 hd
    exact ⟨t, s, e₀, hj, hd, ht, ⟨text', hplan, hid'⟩, hs, hq⟩
  · rintro i' t response hne ht ⟨text', hplan, hid'⟩ hdone
    have hruns := (Interleaving.Reachable.sound hw).runs i' t ht
    rw [app_eq, hplan, hdone] at hruns
    rcases runs_delete hruns with ⟨-, hp⟩ | ⟨r, s, s', hown, hp⟩
    · cases hp
    · cases hp
      have hmem : (i', (⟨.findByIdAndDelete text', r, s, s'⟩ : DbEvent)) ∈ w.log :=
        World.mem_own.1 (hown ▸ List.mem_singleton_self _)
      obtain ⟨m, hm⟩ := List.getElem?_of_mem hmem
      obtain ⟨-, -, heff'⟩ := Reachable.around hw hm
      rcases r with e' | _ | x
      · cases heff'
      · exact errorHandler_notFound _
      -- a second deletion that finds the shipment would be the same step, so the same task
      · have hd' : Deletes (.findByIdAndDelete text') (.ok (some x)) id := by
          cases heff' with
          | deleted _ _ _ _ h => exact (Db.id_of_get? h.present).trans hid'
        have hkm := Reachable.deletes_unique hw hj hm hd hd'
        subst hkm
        rw [hj] at hm
        cases hm
        exact absurd rfl hne
  · intro m i' e' hm hlog' htarget
    obtain ⟨hb', -, heff'⟩ := Reachable.around hw hlog'
    obtain ⟨t, p, ht, -, -, -, hstep⟩ := Reachable.task_step hw (List.mem_of_getElem? hlog')
    exact ⟨t, ht, hstep.missing (heff'.missing htarget (hb' ▸ hafter m hm))⟩

end Run

/-- An update whose write comes after the first of two deletions. -/
def racingDeletions : List (Move (Arrival referencePlatform) Choice) :=
  [.arrive (putStatus 1 .cancelled), .arrive (deleteRequest 1), .arrive (deleteRequest 1), .perform 0 false {},
    .perform 1 false {}, .perform 2 false {}, .perform 0 false {}]

set_option maxRecDepth 4000 in
theorem delete_once_racing : ∃ w, Reachable referencePlatform (sampleStore .pending) w ∧ w.events.length = 4 ∧
    ∃ k j, k ≤ 1 ∧ DeletedOnce referencePlatform (sampleStore .pending) w 1 k j := by
  obtain ⟨w, hw, hq⟩ := exists_run (sampleStore .pending) racingDeletions (fun w =>
    w.events.length = 4 ∧ (w.log[1]?.bind fun p => p.2.cmd.deletes?) = some 1) (by decide)
  simp only [decide_eq_true_eq] at hq
  obtain ⟨⟨i, e⟩, hlog, hcmd⟩ := Option.bind_eq_some_iff.1 hq.2
  exact ⟨w, hw, hq.1, delete_once hw (by decide) hlog hcmd⟩

end ShipmentManager
