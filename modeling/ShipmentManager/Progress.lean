import ShipmentManager.Lib.Progress
import ShipmentManager.Responses

/-!
# Every request can be answered

A request sends at most two commands, whatever the database answers and whatever other requests do in between.  So a run
with `n` requests has at most `2 n` commands, and at any moment any request can be answered by its own steps alone.
-/

namespace ShipmentManager

open Interleaving

variable {P : Platform}

private theorem serve_bounded (p : Plan) : (serve P p).Bounded 2 := by
  cases p with
  | list params => exact Prog.Bounded.both fun _ _ => Prog.Bounded.done _ _
  | get id => exact Prog.Bounded.call fun _ => Prog.Bounded.done _ _
  | create data => exact Prog.Bounded.call fun _ => Prog.Bounded.done _ _
  | update id data =>
    refine Prog.Bounded.call fun r => ?_
    rcases r with e | _ | existing
    · exact Prog.Bounded.done _ _
    · exact Prog.Bounded.done _ _
    · show (serveWrite P id data existing).Bounded 1
      unfold serveWrite
      split
      · exact Prog.Bounded.done _ _
      · exact Prog.Bounded.call fun _ => Prog.Bounded.done _ _
  | delete id => exact Prog.Bounded.call fun _ => Prog.Bounded.done _ _

/-- A request sends at most two commands. -/
theorem app_bounded (a : Arrival P) : (app P a).Bounded 2 := by
  rw [app_eq]
  cases plan P a with
  | error e => exact Prog.Bounded.done _ _
  | ok p => exact serve_bounded p

/-- Every command can be executed on every store. -/
theorem exists_executes (c : Command) (db : Db) : ∃ r db', Db.Executes P.mongo P.model c db r db' := by
  obtain ⟨o⟩ := exists_oracle_any P.mongo db
  exact ⟨_, _, o, rfl⟩

/-- The requests of a run send at most two commands each, and any of them, at any moment, can be answered by its own
steps alone, while every other request stays where it is. -/
theorem wait_free {db : Db} {w : ServerWorld P} (hw : Reachable P db w) :
    w.log.length ≤ 2 * w.tasks.length ∧
      ∀ i t, w.tasks[i]? = some t → ∃ (w' : ServerWorld P) (es : List DbEvent) (response : HttpResponse),
        Relation.ReflTransGen (Step (Db.Executes P.mongo P.model) (app P)) w w' ∧
          w'.tasks = w.tasks.set i { t with prog := .done response } ∧ w'.log = w.log ++ es.map (fun e => (i, e)) ∧
            (w.own i).length + es.length ≤ 2 := by
  refine ⟨Interleaving.Reachable.log_length_le app_bounded hw, fun i t ht => ?_⟩
  obtain ⟨m, hm, hb⟩ := Interleaving.Reachable.own_length app_bounded hw ht
  obtain ⟨w', es, response, hrun, htasks, hlog, hlength⟩ := World.exists_finish exists_executes ht hb
  exact ⟨w', es, response, hrun, htasks, hlog, by omega⟩

set_option maxRecDepth 4000 in
theorem wait_free_racing : ∃ w, Reachable referencePlatform (sampleStore .pending) w ∧ w.events.length = 4 ∧
    (w.log.length ≤ 2 * w.tasks.length ∧
      ∀ i t, w.tasks[i]? = some t → ∃ (w' : ServerWorld referencePlatform) (es : List DbEvent)
        (response : HttpResponse),
          Relation.ReflTransGen (Step (Db.Executes referencePlatform.mongo referencePlatform.model)
            (app referencePlatform)) w w' ∧
            w'.tasks = w.tasks.set i { t with prog := .done response } ∧
              w'.log = w.log ++ es.map (fun e => (i, e)) ∧ (w.own i).length + es.length ≤ 2) := by
  obtain ⟨w, hw, hq⟩ := exists_run (sampleStore .pending) racingDeletions (fun w => w.events.length = 4) (by decide)
  exact ⟨w, hw, by simpa using hq, wait_free hw⟩

end ShipmentManager
