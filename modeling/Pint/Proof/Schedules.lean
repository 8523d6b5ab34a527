import Pint.Lib.Polling
import Pint.Program.ArtPot
import Pint.Program.Mapper
import Pint.Proof.Exact
import Pint.Proof.Maps

/-!
# What a controller writes and when it wakes up

A controller that looks at two pipes is a `Process`: one pass of its `enterLoop` takes a message
from each pipe that has one, in the order of the code. Each of the three loops handles what it
takes one after the other (`ArtPot.splits`, `AStar.splits`, `Mapper.splits`), so the state at the
end depends on the order in which the messages were taken and on nothing else.

For a Mapper even that does not matter, as it does nothing with an acknowledgement. For an ArtPot
and an AStar it does (`Proof.MessageOrder`). But an AStar acknowledges the updates and nothing
but the updates, in the order in which they come: what its acknowledgements are made of
(`AStar.Acking`) is changed by an update alone, and by neither the map, the goal nor the path.
-/

namespace Pint

open Prog Polling

variable {R : Type} [Double R]

omit [Double R] in
theorem execute_bind {σ : Type} {x : Program σ Fault Unit} {y : Unit → Program σ Fault Unit}
    {s s' : σ} : execute (x >>= y) s = .ok s' ↔
      ∃ t, execute x s = .ok t ∧ execute (y ()) t = .ok s' := by
  unfold execute
  rw [StateT.run_bind]
  cases x.run s with
  | error e =>
    constructor
    · intro h
      cases h
    · rintro ⟨t, h, -⟩
      cases h
  | ok r =>
    constructor
    · exact fun h => ⟨r.2, rfl, h⟩
    · rintro ⟨t, h, h'⟩
      cases h
      exact h'

/-- The messages are read whole. -/
def ArtPot.process : Process (CommRangePoseData R) (CommWayRes R) (ArtPot R) Fault where
  second s := s.pipeCount = 4
  turn data wayRes := execute (ArtPot.turn (data.map .whole) (wayRes.map .whole))

def ArtPot.handle : CommRangePoseData R ⊕ CommWayRes R → ArtPot R → Except Fault (ArtPot R)
  | .inl data => execute (ArtPot.onData (.whole data))
  | .inr wayRes => execute (ArtPot.onWayRes (.whole wayRes))

omit [Double R] in
/-- A pass goes on exactly if no fault is injected. -/
theorem execute_guard {σ : Type} (cfe : σ → Bool) {x : σ → Program σ Fault Unit} {s s' : σ} :
    execute (do
      let s ← get
      if cfe s then throw .hung
      x s) s = .ok s' ↔ cfe s = false ∧ execute (x s) s = .ok s' := by
  cases hcfe : cfe s with
  | true =>
    have hbad : execute (do
        let s ← get
        if cfe s then throw .hung
        x s) s = .error .hung := by
      simp only [execute, StateT.run_bind, StateT.run_get, pure_bind, hcfe, if_true]
      rfl
    rw [hbad]
    simp
  | false =>
    have hgo : execute (do
        let s ← get
        if cfe s then throw .hung
        x s) s = execute (x s) s := by
      simp only [execute, StateT.run_bind, StateT.run_get, pure_bind, hcfe, Bool.false_eq_true,
        if_false]
    rw [hgo]
    simp

/-- The end of a pass of an ArtPot, which takes a waypoint where there is a pipe for it. -/
def ArtPot.onWaypoint (s : ArtPot R) (wayRes : Option (Received (CommWayRes R))) :
    ArtPot.M R Unit :=
  if s.pipeCount = 4 then
    match wayRes with
    | some got => ArtPot.onWayRes got
    | none => pure ()
  else pure ()

theorem ArtPot.splits : Splits (ArtPot.process (R := R)) ArtPot.handle := by
  intro data wayRes s s' hsecond hturn
  have hgo := ((execute_guard ArtPot.insertCFE).mp hturn).2
  have hrest : ∀ t t' : ArtPot R, execute (s.onWaypoint (wayRes.map .whole)) t = .ok t' →
      runAll ArtPot.handle (wayRes.toList.map .inr) t = .ok t' := by
    intro t t' h
    cases wayRes with
    | none =>
      have hpure : execute (pure () : ArtPot.M R Unit) t = .ok t' := by
        simpa [ArtPot.onWaypoint] using h
      exact hpure
    | some w =>
      have hfour : s.pipeCount = 4 := by simpa [ArtPot.process] using hsecond rfl
      unfold ArtPot.onWaypoint at h
      rw [if_pos hfour] at h
      exact runAll_cons.mpr ⟨t', h, rfl⟩
  cases data with
  | none => exact hrest s s' hgo
  | some d =>
    obtain ⟨t, ht, ht'⟩ := execute_bind.mp hgo
    exact runAll_cons.mpr ⟨t, ht, hrest t s' ht'⟩

/-- The bytes of a `struct comm_way_req`, which is one `int`. -/
def wayReqSize : Int := 4

def AStar.process : Process CommMapUpdate Unit (AStar R) Fault where
  second _ := true
  turn update wayReq := execute (AStar.turn
    (update.map fun u => mapUpdateReads (wireBytes u.wire)) (wayReq.map fun _ => wayReqSize))

def AStar.handle : CommMapUpdate ⊕ Unit → AStar R → Except Fault (AStar R)
  | .inl u => execute (AStar.onUpdate (mapUpdateReads (wireBytes u.wire)).1
      (mapUpdateReads (wireBytes u.wire)).2)
  | .inr _ => execute (AStar.onWayReq wayReqSize)

theorem AStar.splits : Splits (AStar.process (R := R)) AStar.handle := by
  intro update wayReq s s' _ hturn
  have hgo := ((execute_guard AStar.insertCFE).mp hturn).2
  have hrest : ∀ t t' : AStar R,
      execute (AStar.onRequest (wayReq.map fun _ => wayReqSize)) t = .ok t' →
      runAll AStar.handle (wayReq.toList.map .inr) t = .ok t' := by
    intro t t' h
    cases wayReq with
    | none => exact h
    | some w => exact runAll_cons.mpr ⟨t', h, rfl⟩
  cases update with
  | none => exact hrest s s' hgo
  | some u =>
    obtain ⟨t, ht, ht'⟩ := execute_bind.mp hgo
    exact runAll_cons.mpr ⟨t, ht, hrest t s' ht'⟩

def Mapper.process : Process (CommRangePoseData R) CommAck (Mapper R) Fault where
  second _ := true
  turn data ack := execute (Mapper.turn (data.map .whole) (ack.map .whole))

def Mapper.handle : CommRangePoseData R ⊕ CommAck → Mapper R → Except Fault (Mapper R)
  | .inl data => execute (Mapper.updateMap data)
  | .inr _ => .ok

omit [Double R] in
/-- The end of a pass of a Mapper, which takes an acknowledgement and does nothing with it. -/
def Mapper.onAck : Option (Received CommAck) → Mapper.M R Unit
  | some (.whole _) => pure ()
  | some (.part _) => pure ()
  | none => pure ()

theorem Mapper.splits : Splits (Mapper.process (R := R)) Mapper.handle := by
  intro data ack s s' _ hturn
  have hgo := ((execute_guard Mapper.insertCFE).mp hturn).2
  have hrest : ∀ t t' : Mapper R, execute (Mapper.onAck (ack.map .whole)) t = .ok t' →
      runAll Mapper.handle (ack.toList.map .inr) t = .ok t' := by
    intro t t' h
    cases ack with
    | none => exact h
    | some a => exact runAll_cons.mpr ⟨t', h, rfl⟩
  cases data with
  | none => exact hrest s s' hgo
  | some d =>
    obtain ⟨t, ht, ht'⟩ := execute_bind.mp hgo
    exact runAll_cons.mpr ⟨t, ht, hrest t s' ht'⟩

/-! ## The acknowledgements of a planner -/

namespace AStar

/-- What an update does to what the acknowledgements depend on. -/
def Acking.update (header : ReadResult) (obstacles : Int → ReadResult) (t : Acking) : Acking :=
  match t.pipes.pipes.get t.pipes.updatesIndex >>= fun pipe =>
      commRecvMapUpdate pipe t.recvMapUpdate header obstacles with
  | .error _ => t
  | .ok (readRet, recvMapUpdate) =>
    if readRet > 0 then
      let fakeHash := if t.insertSDC then t.fakeHash + 1 else t.fakeHash
      match t.pipes.pipes.get t.pipes.ackIndex with
      | .error _ => t
      | .ok pipe => { t with
        recvMapUpdate
        fakeHash
        insertSDC := false
        acks := t.acks ++ Writes.acks (commSendAck (R := Unit) pipe fakeHash) }
    else { t with recvMapUpdate }

omit [Double R] in
theorem acks_commSendAck (pipe : TypedPipe) (hash : Int) :
    Writes.acks (commSendAck pipe hash : Writes R)
      = Writes.acks (commSendAck pipe hash : Writes Unit) := by
  unfold commSendAck sendOn
  split <;> rfl

/-- The map, the goal and the path have no part in it. -/
theorem onUpdate_acking (header : ReadResult) (obstacles : Int → ReadResult) (a : AStar R) :
    wp (onUpdate header obstacles) (fun _ a' => a'.acking = a.acking.update header obstacles)
      (fun _ => True) a := by
  unfold onUpdate
  rw [wp_bind, wp_get, wp_bind]
  refine wp_lift (fun pipe hpipe => ?_) fun _ _ => trivial
  rw [wp_bind]
  refine wp_lift (fun received hrecv => ?_) fun _ _ => trivial
  -- What is read depends on the part that is projected, and on nothing else.
  have hreceived : (a.acking.pipes.pipes.get a.acking.pipes.updatesIndex >>= fun pipe =>
      commRecvMapUpdate pipe a.acking.recvMapUpdate header obstacles) = .ok received := by
    change (a.pipes.get a.updatesIndex >>= _) = _
    rw [hpipe]
    exact hrecv
  unfold Acking.update
  rw [hreceived, wp_bind, wp_set, wp_ite]
  dsimp only
  split
  · rename_i hread
    rw [wp_bind, wp_modify, wp_bind]
    refine wp_lift (fun obstacleMap _ => ?_) fun _ _ => trivial
    rw [wp_bind, wp_modify, wp_bind, wp_get, wp_bind]
    apply wp.imp (send_writes _ _ _)
    rintro _ b ⟨ackPipe, hack, hb⟩
    have hget : a.acking.pipes.pipes.get a.acking.pipes.ackIndex = .ok ackPipe := hack
    have hacking : b.acking = { a.acking with
        recvMapUpdate := received.2
        fakeHash := if a.insertSDC then a.fakeHash + 1 else a.fakeHash
        insertSDC := false
        acks := a.acking.acks ++ Writes.acks (commSendAck (R := Unit) ackPipe
          (if a.insertSDC then a.fakeHash + 1 else a.fakeHash)) } := by
      rw [hb]
      unfold acking
      rw [Writes.acks_append, acks_commSendAck]
    rw [hget, wp_ite]
    split
    · exact (command_kept b).imp fun _ c hc => hc.acking.trans hacking
    · exact hacking
  · rfl

/-- So of what it is sent, only the updates count. -/
theorem seen : Seen (handle (R := R)) acking fun u t =>
    t.update (mapUpdateReads (wireBytes u.wire)).1 (mapUpdateReads (wireBytes u.wire)).2 := by
  constructor
  · intro u a a' h
    exact execute_spec (onUpdate_acking _ _ a) h
  · intro b a a' h
    exact (execute_spec (onWayReq_kept wayReqSize a) h).acking

end AStar

/-! ## Two schedules -/

/-- The messages on one pipe. -/
def streamOn (fd : Int) (writes : Writes R) : List (Comm R) :=
  (writes.filter fun w => w.1 = fd).map Prod.snd

omit [Double R] in
/-- The acknowledgements on one pipe. -/
theorem streamOn_acks (fd : Int) (writes : Writes R) :
    (streamOn fd writes).filterMap Comm.ack
      = (writes.acks.filter fun w => w.1 = fd).map Prod.snd := by
  induction writes with
  | nil => rfl
  | cons w writes ih =>
    obtain ⟨fd', msg⟩ := w
    unfold streamOn Writes.acks at ih ⊢
    by_cases hfd : fd' = fd
    · cases hack : msg.ack <;> simp_all
    · cases hack : msg.ack <;> simp_all

/-- **Schedules.** Two Mappers that start alike and are sent the same messages write the same
streams, whenever they wake up. So do two ArtPots and two AStars, if their wake-ups take the
messages in the same order. What an AStar acknowledges does not depend on that either: an
acknowledgement is the answer to an update, and neither the requests nor the plans have a part
in it. -/
theorem replicas_agree :
    (∀ (s : Mapper R) msgs ms ms' f f', Consumes Mapper.process msgs s ms f →
      Consumes Mapper.process msgs s ms' f' →
      ∀ fd, streamOn fd f.state.writes = streamOn fd f'.state.writes) ∧
    (∀ (s : ArtPot R) msgs ms ms' f f', Consumes ArtPot.process msgs s ms f →
      Consumes ArtPot.process msgs s ms' f' → AlikeOrdered ArtPot.process msgs s ms ms' f f' →
      ∀ fd, streamOn fd f.state.writes = streamOn fd f'.state.writes) ∧
    (∀ (s : AStar R) msgs ms ms' f f', Consumes AStar.process msgs s ms f →
      Consumes AStar.process msgs s ms' f' → AlikeOrdered AStar.process msgs s ms ms' f f' →
      ∀ fd, streamOn fd f.state.writes = streamOn fd f'.state.writes) ∧
    (∀ (s : AStar R) msgs ms ms' f f', Consumes AStar.process msgs s ms f →
      Consumes AStar.process msgs s ms' f' →
      ∀ fd, (streamOn fd f.state.writes).filterMap Comm.ack
        = (streamOn fd f'.state.writes).filterMap Comm.ack) := by
  refine ⟨?_, ?_, ?_, ?_⟩
  · intro s msgs ms ms' f f' h h' fd
    rw [agree_of_quiet Mapper.splits (fun _ _ => rfl) h h']
  · intro s msgs ms ms' f f' h h' ho fd
    rw [agree ArtPot.splits h h' (ho.taken h h')]
  · intro s msgs ms ms' f f' h h' ho fd
    rw [agree AStar.splits h h' (ho.taken h h')]
  · intro s msgs ms ms' f f' h h' fd
    have hacks : f.state.writes.acks = f'.state.writes.acks :=
      congrArg AStar.Acking.acks (AStar.seen.agree AStar.splits h h')
    rw [streamOn_acks, streamOn_acks, hacks]

/-! ### A planner beside its goal

It is asked, gets an update, and is asked again. The Mapper gets a scan and an acknowledgement. -/

/-- An update from the cell before `(40, 40)`. All other cells around are obstacles, so no two
scores are compared. -/
def corneredUpdate : CommMapUpdate where
  poseX := 39
  poseY := 40
  obsCount := 7
  obsX := ⟨7, fun i => if i < 3 then 38 else if i < 5 then 39 else 40⟩
  obsY := ⟨7, fun i => if i = 1 then 40 else if i = 0 ∨ i = 3 ∨ i = 5 then 39 else 41⟩

/-- A request, the update, and another request. -/
def corneredMsgs : List (CommMapUpdate ⊕ Unit) := [.inr (), .inl corneredUpdate, .inr ()]

/-- The planner after a pass. -/
noncomputable def passed (update : Option CommMapUpdate) (wayReq : Option Unit) (a : AStar ℝ) :
    AStar ℝ :=
  ended (AStar.process.turn update wayReq a) a

/-- It has answered the first request. -/
noncomputable def askedPlanner : AStar ℝ := passed none (some ()) restPlanner

/-- And has taken the update. -/
noncomputable def plannedPlanner : AStar ℝ := passed (some corneredUpdate) none askedPlanner

theorem turn_passed {update : Option CommMapUpdate} {wayReq : Option Unit} {a : AStar ℝ}
    (h : (AStar.process.turn update wayReq a).isOk = true) :
    AStar.process.turn update wayReq a = .ok (passed update wayReq a) := eq_ended h

theorem asked_turn : AStar.process.turn none (some ()) restPlanner = .ok askedPlanner :=
  turn_passed (by decide +kernel)

/-- One message in each pass. -/
theorem one_by_one : ∃ state, Consumes AStar.process corneredMsgs (restPlanner (R := ℝ))
    [.write, .wake, .write, .wake, .write, .wake] ⟨[], [], corneredMsgs, state⟩ := by
  have hplanned : AStar.process.turn (some corneredUpdate) none askedPlanner
      = .ok plannedPlanner := turn_passed (by decide +kernel)
  have hlast : AStar.process.turn none (some ()) plannedPlanner
      = .ok (passed none (some ()) plannedPlanner) := turn_passed (by decide +kernel)
  generalize passed none (some ()) plannedPlanner = last at hlast
  generalize plannedPlanner = planned at hplanned hlast
  refine ⟨last, ?_, rfl, rfl⟩
  refine runAll_cons.mpr ⟨_, rfl, runAll_cons.mpr ⟨_, Process.wake_ok asked_turn, ?_⟩⟩
  refine runAll_cons.mpr ⟨_, rfl, runAll_cons.mpr ⟨_, Process.wake_ok hplanned, ?_⟩⟩
  exact runAll_cons.mpr ⟨_, rfl, runAll_cons.mpr ⟨_, Process.wake_ok hlast, rfl⟩⟩

/-- The update and the second request in one pass. -/
theorem two_at_once : ∃ state, Consumes AStar.process corneredMsgs (restPlanner (R := ℝ))
    [.write, .wake, .write, .write, .wake] ⟨[], [], corneredMsgs, state⟩ := by
  have hboth : AStar.process.turn (some corneredUpdate) (some ()) askedPlanner
      = .ok (passed (some corneredUpdate) (some ()) askedPlanner) := turn_passed (by decide +kernel)
  refine ⟨passed (some corneredUpdate) (some ()) askedPlanner, ?_, rfl, rfl⟩
  refine runAll_cons.mpr ⟨_, rfl, runAll_cons.mpr ⟨_, Process.wake_ok asked_turn, ?_⟩⟩
  refine runAll_cons.mpr ⟨_, rfl, runAll_cons.mpr ⟨_, rfl, ?_⟩⟩
  exact runAll_cons.mpr ⟨_, Process.wake_ok hboth, rfl⟩

/-- The update and the first request in one pass, so the update is taken first. -/
theorem update_overtakes : ∃ state, Consumes AStar.process corneredMsgs (restPlanner (R := ℝ))
    [.write, .write, .wake, .write, .wake]
    ⟨[], [], [.inl corneredUpdate, .inr (), .inr ()], state⟩ := by
  have hboth : AStar.process.turn (some corneredUpdate) (some ()) restPlanner
      = .ok (passed (some corneredUpdate) (some ()) restPlanner) := turn_passed (by decide +kernel)
  have hlast :
      AStar.process.turn none (some ()) (passed (some corneredUpdate) (some ()) restPlanner)
      = .ok (passed none (some ()) (passed (some corneredUpdate) (some ()) restPlanner)) :=
    turn_passed (by decide +kernel)
  generalize passed (some corneredUpdate) (some ()) restPlanner = both at hboth hlast
  generalize passed none (some ()) both = last at hlast
  refine ⟨last, ?_, rfl, rfl⟩
  refine runAll_cons.mpr ⟨_, rfl, runAll_cons.mpr ⟨_, rfl, ?_⟩⟩
  refine runAll_cons.mpr ⟨_, Process.wake_ok hboth, runAll_cons.mpr ⟨_, rfl, ?_⟩⟩
  exact runAll_cons.mpr ⟨_, Process.wake_ok hlast, rfl⟩

/-- A Mapper does the same with an acknowledgement in the same pass and without. -/
theorem scan_and_ack : ∃ state, ∀ ack : Option CommAck,
    Mapper.process.turn (some restScan) ack (restMapper (R := ℝ)) = .ok state := by
  have hwired : Mapper.Wired (restMapper (R := ℝ)).toMapperPipes 4 :=
    ⟨⟨.mapUpdate, 0, 4⟩, rfl, rfl, rfl, by decide⟩
  obtain ⟨_, s, hrun, -⟩ := (Mapper.updateMap_spec (Mapper.sound_start hwired)
    (restScan (R := ℝ))).exists_run
  have hscan : execute (Mapper.updateMap restScan) (restMapper (R := ℝ)) = .ok s := by
    unfold execute
    rw [show (Mapper.updateMap restScan).run restMapper = .ok (_, s) from hrun]
  refine ⟨s, fun ack => (execute_guard Mapper.insertCFE).mpr ⟨rfl, ?_⟩⟩
  refine execute_bind.mpr ⟨s, hscan, ?_⟩
  cases ack with
  | none => rfl
  | some ack => rfl

theorem replicas_agree_asked :
    (∃ f f', Consumes AStar.process corneredMsgs (restPlanner (R := ℝ))
        [.write, .wake, .write, .wake, .write, .wake] f ∧
      Consumes AStar.process corneredMsgs (restPlanner (R := ℝ))
        [.write, .wake, .write, .write, .wake] f' ∧
      ∀ fd, streamOn fd f.state.writes = streamOn fd f'.state.writes) ∧
    (∃ f f', Consumes AStar.process corneredMsgs (restPlanner (R := ℝ))
        [.write, .wake, .write, .wake, .write, .wake] f ∧
      Consumes AStar.process corneredMsgs (restPlanner (R := ℝ))
        [.write, .write, .wake, .write, .wake] f' ∧
      ∀ fd, (streamOn fd f.state.writes).filterMap Comm.ack
        = (streamOn fd f'.state.writes).filterMap Comm.ack) ∧
    ∃ f f', Consumes Mapper.process [.inr ⟨42⟩, .inl restScan] (restMapper (R := ℝ))
        [.write, .wake, .write, .wake] f ∧
      Consumes Mapper.process [.inr ⟨42⟩, .inl restScan] (restMapper (R := ℝ))
        [.write, .write, .wake] f' ∧
      ∀ fd, streamOn fd f.state.writes = streamOn fd f'.state.writes := by
  obtain ⟨one, hone⟩ := one_by_one
  obtain ⟨two, htwo⟩ := two_at_once
  obtain ⟨overtaken, hovertaken⟩ := update_overtakes
  obtain ⟨scanned, hscanned⟩ := scan_and_ack
  have hapart : Consumes Mapper.process [.inr ⟨42⟩, .inl restScan] (restMapper (R := ℝ))
      [.write, .wake, .write, .wake] ⟨[], [], [.inr ⟨42⟩, .inl restScan], scanned⟩ := by
    refine ⟨?_, rfl, rfl⟩
    refine runAll_cons.mpr ⟨_, rfl, runAll_cons.mpr ⟨_, rfl, ?_⟩⟩
    exact runAll_cons.mpr ⟨_, rfl, runAll_cons.mpr ⟨_, Process.wake_ok (hscanned none), rfl⟩⟩
  have htogether : Consumes Mapper.process [.inr ⟨42⟩, .inl restScan] (restMapper (R := ℝ))
      [.write, .write, .wake] ⟨[], [], [.inl restScan, .inr ⟨42⟩], scanned⟩ := by
    refine ⟨?_, rfl, rfl⟩
    refine runAll_cons.mpr ⟨_, rfl, runAll_cons.mpr ⟨_, rfl, ?_⟩⟩
    exact runAll_cons.mpr ⟨_, Process.wake_ok (hscanned (some ⟨42⟩)), rfl⟩
  obtain ⟨hmapper, -, hplanner, hacks⟩ := replicas_agree (R := ℝ)
  exact ⟨⟨_, _, hone, htwo, hplanner _ _ _ _ _ _ hone htwo (Or.inl rfl)⟩,
    ⟨_, _, hone, hovertaken, hacks _ _ _ _ _ _ hone hovertaken⟩,
    ⟨_, _, hapart, htogether, hmapper _ _ _ _ _ _ hapart htogether⟩⟩

end Pint
