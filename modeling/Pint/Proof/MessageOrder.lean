import Pint.Proof.Waypoints

/-!
# Where the order of the messages matters

`replicas_agree` asks of an ArtPot and of an AStar that the wake-ups take the messages in one
order. Each looks at its pipes in the order of its code, so a message that was written later may
be taken first if both are there. Here this makes a difference, from the state that `main` sets
up: for an ArtPot with a waypoint and a scan, over the reals, and for an AStar with a request and
an update, over an arithmetic that can be run.

Both examples are two schedules of the same two writes. In the first the controller wakes up
behind each of them, in the second it wakes up once, behind both. An ArtPot that sees its scan
first is still at its old goal and asks for another waypoint. An AStar that sees the update first
has a plan when the request comes, and answers with cells of that plan.
-/

namespace Pint

open Prog Polling

variable {R : Type} [Double R]

/-! ## A waypoint and a scan -/

section

variable {s : ArtPot R} {way out : TypedPipe}

omit [Double R] in
theorem ArtPot.send_spec {index : Int} {msg : TypedPipe → Writes R} {pipe : TypedPipe}
    (hpipe : s.pipes.get index = .ok pipe) :
    wp (ArtPot.send index msg) (fun _ s' => s' = { s with writes := s.writes ++ msg pipe })
      (fun _ => False) s := by
  unfold ArtPot.send
  rw [wp_bind, wp_get, wp_bind, wp_lift_ok hpipe, wp_modify]

/-- What a scan makes it write: a request if the goal is near, and a move. -/
theorem ArtPot.onData_spec (data : CommRangePoseData R)
    (hway : s.pipes.get s.wayReqIndex = .ok way) (hout : s.pipes.get s.outIndex = .ok out) :
    wp (ArtPot.onData (.whole data)) (fun _ s' => s'.toArtPotPipes = s.toArtPotPipes ∧
      s'.insertCFE = s.insertCFE ∧ ∃ vel0 vel1, s'.writes =
        s.writes ++ (if ArtPot.goalDist s.goal data.pose ≤ ArtPot.distEpsilon then
          commSendWaypointRequest way else []) ++ commSendMoveCommand out vel0 vel1)
      (fun _ => False) s := by
  unfold ArtPot.onData ArtPot.command
  dsimp only
  rw [wp_bind, wp_modify, wp_bind, wp_get, wp_bind, wp_set]
  by_cases hnear : ArtPot.goalDist s.goal data.pose ≤ ArtPot.distEpsilon
  · simp only [hnear, decide_true, if_true]
    rw [wp_bind]
    refine wp.imp (ArtPot.send_spec (by exact hway)) fun _ t ht => ?_
    subst ht
    refine wp.imp (ArtPot.send_spec (by exact hout)) fun _ t ht => ?_
    subst ht
    exact ⟨rfl, rfl, _, _, rfl⟩
  · simp only [hnear, decide_false, if_false, Bool.false_eq_true, List.append_nil]
    refine wp.imp (ArtPot.send_spec (by exact hout)) fun _ t ht => ?_
    subst ht
    exact ⟨rfl, rfl, _, _, rfl⟩

/-- The requests for a waypoint among what a scan makes it write. -/
theorem ArtPot.turn_scan (data : CommRangePoseData R) (hfour : s.pipeCount = 4)
    (hcfe : s.insertCFE = false) (hway : s.pipes.get s.wayReqIndex = .ok ⟨.wayReq, 0, 6⟩)
    (hout : s.pipes.get s.outIndex = .ok ⟨.movCmd, 0, 4⟩) (wayRes : Option (CommWayRes R)) :
    ∃ s', ArtPot.process.turn (some data) wayRes s = .ok s' ∧
      streamOn 6 s'.writes = streamOn 6 s.writes ++
        if ArtPot.goalDist s.goal data.pose ≤ ArtPot.distEpsilon then [.wayReq] else [] := by
  obtain ⟨_, t, hrun, -, -, vel0, vel1, hwrites⟩ := (ArtPot.onData_spec data hway hout).exists_run
  have hdata : execute (ArtPot.onData (.whole data)) s = .ok t := by
    unfold execute
    rw [hrun]
  have hrest : ∃ s', execute (s.onWaypoint (wayRes.map .whole)) t = .ok s' ∧
      s'.writes = t.writes := by
    unfold ArtPot.onWaypoint
    rw [if_pos hfour]
    cases wayRes with
    | none => exact ⟨t, rfl, rfl⟩
    | some w => exact ⟨_, rfl, rfl⟩
  obtain ⟨s', hrest, hsame⟩ := hrest
  refine ⟨s', ?_, ?_⟩
  · exact (execute_guard ArtPot.insertCFE).mpr ⟨hcfe, execute_bind.mpr ⟨t, hdata, hrest⟩⟩
  · rw [hsame, hwrites]
    by_cases hnear : ArtPot.goalDist s.goal data.pose ≤ ArtPot.distEpsilon
    · simp [streamOn, hnear, commSendWaypointRequest, commSendMoveCommand, sendOn]
    · simp [streamOn, hnear, commSendMoveCommand, sendOn]

end

/-- The four pipes of an ArtPot. -/
def artPotPipes : CArray TypedPipe :=
  ⟨4, fun i => if i = 0 then ⟨.rangePoseData, 3, 0⟩ else if i = 1 then ⟨.movCmd, 0, 4⟩
    else if i = 2 then ⟨.wayReq, 0, 6⟩ else ⟨.wayRes, 5, 0⟩⟩

/-- A waypoint seven metres away. -/
def farWaypoint : CommWayRes ℝ := ⟨![7, 0, 0], ![7, 0, 0]⟩

/-- A scan at the origin. -/
def originScan : CommRangePoseData ℝ := ⟨fun _ => 0, fun _ => 0⟩

theorem goalDist_far : ¬ ArtPot.goalDist ![7, 0, 0] originScan.pose ≤ (ArtPot.distEpsilon : ℝ) := by
  show ¬ Real.sqrt (((7 : ℝ) - 0) ^ (((2 : Int) : ℝ)) + ((0 : ℝ) - 0) ^ (((2 : Int) : ℝ))) ≤ 0.6
  rw [show ((7 : ℝ) - 0) ^ ((2 : Int) : ℝ) + ((0 : ℝ) - 0) ^ ((2 : Int) : ℝ) = 7 * 7 by norm_num]
  rw [Real.sqrt_mul_self (by norm_num)]
  norm_num

theorem goalDist_near :
    ArtPot.goalDist (fun _ => 0.0) originScan.pose ≤ (ArtPot.distEpsilon : ℝ) := by
  show Real.sqrt (((0.0 : ℝ) - 0) ^ (((2 : Int) : ℝ)) + ((0.0 : ℝ) - 0) ^ (((2 : Int) : ℝ))) ≤ 0.6
  norm_num

/-- An ArtPot that waits for its first waypoint. -/
noncomputable def waitingArtPot : ArtPot ℝ where
  pipes := artPotPipes
  outIndex := 1
  wayReqIndex := 2
  wayResIndex := 3
  goal := fun _ => 0.0
  nextGoal := fun _ => 0.0
  pos := fun _ => 0.0
  ranges := fun _ => 0.0
  writes := [(6, .wayReq)]

/-- It has its waypoint when the scan comes: no other request. -/
theorem waypoint_first : ∃ f, Consumes ArtPot.process [.inr farWaypoint, .inl originScan]
    waitingArtPot [.write, .wake, .write, .wake] f ∧ streamOn 6 f.state.writes = [.wayReq] := by
  obtain ⟨s', hturn, hstream⟩ := ArtPot.turn_scan
    (s := { waitingArtPot with goal := ![7, 0, 0], nextGoal := ![7, 0, 0] }) originScan rfl rfl
    rfl rfl none
  rw [if_neg goalDist_far] at hstream
  refine ⟨⟨[], [], [.inr farWaypoint, .inl originScan], s'⟩, ⟨?_, rfl, rfl⟩, hstream⟩
  refine runAll_cons.mpr ⟨_, rfl, runAll_cons.mpr ⟨_, rfl, runAll_cons.mpr ⟨_, rfl,
    runAll_cons.mpr ⟨_, Process.wake_ok hturn, rfl⟩⟩⟩⟩

/-- It takes both in one pass, the scan first: another request. -/
theorem scan_first : ∃ f, Consumes ArtPot.process [.inr farWaypoint, .inl originScan]
    waitingArtPot [.write, .write, .wake] f ∧
      streamOn 6 f.state.writes = [.wayReq, .wayReq] := by
  obtain ⟨s', hturn, hstream⟩ := ArtPot.turn_scan (s := waitingArtPot) originScan rfl rfl
    rfl rfl (some farWaypoint)
  have hnear : ArtPot.goalDist waitingArtPot.goal originScan.pose ≤ ArtPot.distEpsilon :=
    goalDist_near
  rw [if_pos hnear] at hstream
  refine ⟨⟨[], [], [.inl originScan, .inr farWaypoint], s'⟩, ⟨?_, rfl, rfl⟩, hstream⟩
  exact runAll_cons.mpr ⟨_, rfl, runAll_cons.mpr ⟨_, rfl,
    runAll_cons.mpr ⟨_, Process.wake_ok hturn, rfl⟩⟩⟩

/-! ## A request and an update -/

/-- An update from a cell that is three cells before the goal, with one obstacle. -/
def distantUpdate : CommMapUpdate where
  poseX := 72
  poseY := 75
  obsCount := 1
  obsX := .filled 1 0
  obsY := .filled 1 0

/-- A planner as `main` sets it up. -/
def freshPlanner : AStar ℚ := .start AStar.plannerPipes ⟨0, 0⟩

/-- Where the waypoints on a pipe are, each message with its two points. -/
def waypointsOn (fd : Int) (writes : Writes ℚ) : List (ℚ × ℚ × ℚ × ℚ) :=
  (streamOn fd writes).filterMap fun msg => match msg with
    | .wayRes msg => some (msg.point 0, msg.point 1, msg.nPoint 0, msg.nPoint 1)
    | _ => none

/-- What it has answered by the end of a schedule, and whether it has taken all messages. -/
def answersUnder (ms : List Polling.Move) : Except Fault (Bool × List (ℚ × ℚ × ℚ × ℚ)) :=
  (runAll AStar.process.step ms ⟨[.inr (), .inl distantUpdate], [], [], freshPlanner⟩).map
    fun f => (f.unwritten.isEmpty && f.unread.isEmpty, waypointsOn 6 f.state.writes)

theorem consumes_of_answers {ms : List Polling.Move} {answers : List (ℚ × ℚ × ℚ × ℚ)}
    (h : answersUnder ms = .ok (true, answers)) :
    ∃ f, Consumes AStar.process [.inr (), .inl distantUpdate] freshPlanner ms f ∧
      waypointsOn 6 f.state.writes = answers := by
  unfold answersUnder at h
  cases hrun : runAll AStar.process.step ms
      ⟨[.inr (), .inl distantUpdate], [], [], freshPlanner⟩ with
  | error e =>
    rw [hrun] at h
    cases h
  | ok f =>
    rw [hrun] at h
    obtain ⟨hall, hanswers⟩ := Prod.mk.inj (Except.ok.inj h)
    rw [Bool.and_eq_true, List.isEmpty_iff, List.isEmpty_iff] at hall
    exact ⟨f, ⟨hrun, hall.1, hall.2⟩, hanswers⟩

/-- It is asked first, and answers with the goal; then it sends the first two cells of its plan. -/
theorem request_first : answersUnder [.write, .wake, .write, .wake]
    = .ok (true, [(7, 7, 7, 7), (13/2, 71/10, 67/10, 71/10)]) := by decide +kernel

/-- It takes both in one pass, the update first: the request is answered with the next two. -/
theorem update_first : answersUnder [.write, .write, .wake]
    = .ok (true, [(13/2, 71/10, 67/10, 71/10), (69/10, 71/10, 71/10, 71/10)]) := by
  decide +kernel

/-! ## Neither may be dropped -/

/-- If both are there when it wakes up, an ArtPot takes the scan before the waypoint that was
written earlier, and asks for another waypoint. An AStar takes the update before the request that
was written earlier, and answers the request with cells of its plan instead of the goal. -/
theorem schedules_matter :
    (¬ ∀ (s : ArtPot ℝ), ArtPot.start artPotPipes 4 = .ok s →
      ∀ msgs ms ms' f f', Consumes ArtPot.process msgs s ms f →
        Consumes ArtPot.process msgs s ms' f' →
        ∀ fd, streamOn fd f.state.writes = streamOn fd f'.state.writes) ∧
    ¬ ∀ (pose : PointI) msgs ms ms' f f',
      Consumes AStar.process msgs (AStar.start AStar.plannerPipes pose : AStar ℚ) ms f →
      Consumes AStar.process msgs (AStar.start AStar.plannerPipes pose : AStar ℚ) ms' f' →
      ∀ fd, streamOn fd f.state.writes = streamOn fd f'.state.writes := by
  constructor
  · intro h
    have hstart : ArtPot.start artPotPipes 4 = .ok waitingArtPot := rfl
    obtain ⟨f, hf, hone⟩ := waypoint_first
    obtain ⟨f', hf', htwo⟩ := scan_first
    have hsame := h waitingArtPot hstart _ _ _ f f' hf hf' 6
    rw [hone, htwo] at hsame
    exact absurd (congrArg List.length hsame) (by decide)
  · intro h
    obtain ⟨f, hf, hanswers⟩ := consumes_of_answers request_first
    obtain ⟨f', hf', hanswers'⟩ := consumes_of_answers update_first
    have hsame := h ⟨0, 0⟩ _ _ _ f f' hf hf' 6
    have hpoints : waypointsOn 6 f.state.writes = waypointsOn 6 f'.state.writes := by
      unfold waypointsOn
      rw [hsame]
    rw [hanswers, hanswers'] at hpoints
    exact absurd hpoints (by norm_num)

end Pint
