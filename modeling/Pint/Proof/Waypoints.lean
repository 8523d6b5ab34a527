import Pint.Proof.GoalPath
import Pint.Proof.Schedules
import Pint.Proof.Search

/-!
# The waypoints of a plan

`sendWaypoints` takes the next two cells off `goal_path` and puts them into one message. It is
called after a plan and for each request, and it is short of a cell when only one is left: it
takes that cell and writes nothing, though the comment there says that the same goal is sent
twice.

`Journal` runs a planner and keeps a record beside it: how each request was answered, the
cells of the last plan, and the messages since then. `Journal.Good` says that the record is as it
should be, and it is the invariant at the same time, as its last part ties the record to the
state: what is left on `goal_path` is the plan without two cells for each message. From there a
request is easy. It finds an even number of cells, or an odd number that is more than one, or
none, and in each of these cases it is answered by the message that comes next
(`Journal.Good.next`).

A plan starts the record anew, so the question there is when a plan has one cell. Its path is
read off the back links from the goal to a node that has none, and the only such node is the one
at which the search started (`Rooted`). So it has one cell if and only if the robot is on the goal
(`plannedCells_one`, `plannedCells_at_goal`), whatever the map and however the search ran.

`waypoints_in_order_iff` puts both together: the record is good in every state of a run exactly
if no request meets a path of one cell, and no plan is made on the goal. The condition is about
the state in front of each event. A run whose search leaves the map has no record, and nothing is
said about it; `Proof.OnTheMap` is about these.
-/

namespace Pint

open Prog

variable {R : Type}

/-! ## Paths as lists of cells -/

/-- `pop` of a path. -/
theorem PathList.pop_cells [Double R] {l : LList R} (h : PathList l) :
    ∃ n l', Pint.pop l = .ok (n, l') ∧ PathList l' ∧
      pathCells l = n.toList.map Node.cell ++ pathCells l' ∧
      (n = none → pathCells l' = []) := by
  cases h with
  | empty v => exact ⟨none, Pint.newList, rfl, .newList, rfl, fun _ => rfl⟩
  | push n v hl =>
    cases hl with
    | empty w => exact ⟨some n, [⟨none, w⟩], rfl, .empty w, rfl, by simp⟩
    | push n' w hl' => exact ⟨some n, _, rfl, .push n' w hl', rfl, by simp⟩

/-- `head == NULL` is an empty path. -/
theorem PathList.head_isNone [Double R] {l : LList R} (h : PathList l) :
    ∃ c cs, l = c :: cs ∧ (c.head.isNone = true ↔ pathCells l = []) := by
  cases h with
  | empty v => exact ⟨_, _, rfl, by simp [pathCells, entries]⟩
  | push n v hl => exact ⟨_, _, rfl, by simp [pathCells, entries, Entry.cell]⟩

/-- A path of one cell has no second node. -/
theorem PathList.peek_one [Double R] {l : LList R} (h : PathList l)
    (hone : (pathCells l).length = 1) :
    peek l 1 = none := by
  cases h with
  | empty v => rfl
  | push n v hl =>
    cases hl with
    | empty w => rfl
    | push n' w hl' => simp [pathCells, entries, Entry.cell] at hone

variable [Double R]

/-- `extractPath` puts the nodes on the way back in front of the list, the start first. -/
theorem pathCells_extractPath (l : LList R) :
    ∀ n : Node R, ∃ cells, pathCells (extractPath l n) = cells ++ n.cell :: pathCells l ∧
      (cells = [] ↔ n.backLink = none)
  | ⟨x, y, g, none⟩ => ⟨[], rfl, by simp⟩
  | ⟨x, y, g, some node⟩ => by
    obtain ⟨cells, hcells, -⟩ := pathCells_extractPath (push l ⟨x, y, g, some node⟩) node
    refine ⟨cells ++ [node.cell], ?_, by simp⟩
    rw [extractPath, hcells]
    simp [pathCells, entries, Entry.cell, push]

/-! ## Where a path starts -/

section Rooted

variable {l l' : LList R} {node : Node R} {pose goal : PointI}

/-- The nodes in a list. -/
def heads (l : LList R) : List (Node R) := l.filterMap ListCell.head

/-- A node without a back link is at the start of the search. Every pass keeps this of the open
set: what it puts in has the node that it popped as its back link. -/
def Rooted (pose : PointI) (l : LList R) : Prop :=
  ∀ n ∈ heads l, n.backLink = none → n.cell = pose

omit [Double R] in
theorem Rooted.mono (h : Rooted pose l) (hsub : heads l' ⊆ heads l) : Rooted pose l' :=
  fun n hn => h n (hsub hn)

omit [Double R] in
theorem mem_heads {n : Node R} : n ∈ heads l ↔ ∃ c ∈ l, c.head = some n := List.mem_filterMap

omit [Double R] in
theorem heads_removeNode (l : LList R) (node : Node R) : heads (removeNode l node) ⊆ heads l := by
  have hsub : removeNode l node ⊆ l := by
    induction l with
    | nil => exact List.Subset.refl _
    | cons c cs ih =>
      unfold removeNode
      split
      · exact List.Subset.refl _
      · split
        · exact List.subset_cons_self c cs
        · exact List.cons_subset_cons c ih
  intro n hn
  obtain ⟨c, hc, hhead⟩ := mem_heads.mp hn
  exact mem_heads.mpr ⟨c, hsub hc, hhead⟩

/-- An insertion adds its node. The cases are those of the loop: the empty list, a place in front
of the first cell, a place behind the last, and a place further on. -/
theorem heads_addNode {v : R} (h : addNode l node v = .ok l') : heads l' ⊆ node :: heads l := by
  induction l generalizing l' with
  | nil => cases h
  | cons c cs ih =>
    intro n hn
    unfold addNode at h
    cases hc : c.head with
    | none =>
      rw [hc] at h
      obtain rfl := Except.ok.inj h
      simpa [heads, hc] using hn
    | some m =>
      rw [hc] at h
      dsimp only at h
      split at h
      · obtain rfl := Except.ok.inj h
        simpa [heads, hc] using hn
      · cases cs with
        | nil =>
          obtain rfl := Except.ok.inj h
          simpa [heads, hc, or_comm] using hn
        | cons d ds =>
          dsimp only at h
          cases hadd : addNode (d :: ds) node v with
          | error e =>
            rw [hadd] at h
            cases h
          | ok t =>
            rw [hadd] at h
            obtain rfl := Except.ok.inj h
            have ht := ih hadd
            simp only [heads, List.filterMap_cons, hc, List.mem_cons] at hn ⊢
            rcases hn with rfl | hn
            · exact Or.inr (Or.inl rfl)
            · rcases List.mem_cons.mp (ht hn) with rfl | hmem
              · exact Or.inl rfl
              · exact Or.inr (Or.inr hmem)

theorem heads_pop {n : Option (Node R)} (h : pop l = .ok (n, l')) :
    heads l' ⊆ heads l ∧ ∀ m, n = some m → m ∈ heads l := by
  unfold pop at h
  split at h
  · cases h
  · obtain ⟨rfl, rfl⟩ := Prod.mk.inj (Except.ok.inj h)
    refine ⟨by simp [heads, newList], ?_⟩
    intro m hm
    simp [heads, hm]
  · obtain ⟨rfl, rfl⟩ := Prod.mk.inj (Except.ok.inj h)
    rename_i c d cs
    refine ⟨?_, ?_⟩
    · intro m hm
      obtain ⟨x, hx, hhead⟩ := mem_heads.mp hm
      exact mem_heads.mpr ⟨x, List.mem_cons_of_mem c hx, hhead⟩
    · intro m hm
      exact mem_heads.mpr ⟨c, List.mem_cons_self, hm⟩

/-- What is put into the open set for a neighbour has a back link. -/
theorem Rooted.visitNeighbor {closedSet : LList R} {current currNeigh : Node R}
    (hl : Rooted pose l)
    (h : visitNeighbor goal closedSet current currNeigh l = .ok l') : Rooted pose l' := by
  have hput : ∀ (n : Node R) (v : R), n.backLink ≠ none →
      addNode (removeNode l n) n v = .ok l' → Rooted pose l' := by
    intro n v hlink hadd m hm hback
    rcases List.mem_cons.mp (heads_addNode hadd hm) with rfl | hmem
    · exact absurd hback hlink
    · exact hl m (heads_removeNode l n hmem) hback
  unfold Pint.visitNeighbor at h
  cases hclosed : findNode closedSet currNeigh with
  | some n =>
    rw [hclosed] at h
    obtain rfl := Except.ok.inj h
    exact hl
  | none =>
    rw [hclosed] at h
    dsimp only at h
    generalize findNode l currNeigh = found at h
    cases found with
    | none => exact hput _ _ (by simp) h
    | some n =>
      dsimp only at h
      split at h
      · exact hput _ _ (by simp) h
      · obtain rfl := Except.ok.inj h
        exact hl

theorem Rooted.visitNeighbors {closedSet neighbors : LList R} {current : Node R} {k : Nat}
    (hl : Rooted pose l)
    (h : visitNeighbors goal closedSet current k neighbors l = .ok l') : Rooted pose l' := by
  induction k generalizing neighbors l with
  | zero =>
    obtain rfl := Except.ok.inj h
    exact hl
  | succ k ih =>
    rw [Pint.visitNeighbors] at h
    cases hpop : pop neighbors with
    | error e =>
      rw [hpop] at h
      cases h
    | ok r =>
      obtain ⟨n, rest⟩ := r
      rw [hpop] at h
      cases n with
      | none =>
        obtain rfl := Except.ok.inj h
        exact hl
      | some currNeigh =>
        simp only [bind, Except.bind] at h
        cases hvisit : Pint.visitNeighbor goal closedSet current currNeigh l with
        | error e =>
          rw [hvisit] at h
          cases h
        | ok t =>
          rw [hvisit] at h
          exact ih (hl.visitNeighbor hvisit) h

/-- A pass of the search. If it ends at the goal, the node there came from the open set. -/
theorem searchTurn_rooted {obs : Obstacles} {s : Search R} {turn : SearchTurn R}
    (hs : Rooted pose s.openSet) (h : searchTurn obs goal s = .ok turn) :
    match turn with
    | .solved n => (n.backLink = none → n.cell = pose) ∧ n.cell = goal
    | .failed => True
    | .next s' => Rooted pose s'.openSet := by
  by_cases hnil : s.openSet = []
  · unfold searchTurn at h
    rw [hnil] at h
    obtain rfl := Except.ok.inj h
    trivial
  · rw [searchTurn_pop hnil] at h
    cases hpop : pop s.openSet with
    | error e =>
      rw [hpop] at h
      cases h
    | ok r =>
      obtain ⟨n, rest⟩ := r
      obtain ⟨hrest, hhead⟩ := heads_pop hpop
      rw [hpop] at h
      cases n with
      | none =>
        obtain rfl := Except.ok.inj h
        trivial
      | some current =>
        simp only [bind, Except.bind] at h
        split at h
        · rename_i heq
          obtain rfl := Except.ok.inj h
          exact ⟨hs current (hhead current rfl), (nodeEqauls_iff _ _).mp heq⟩
        · split at h
          · cases h
          · split at h
            · cases h
            · split at h
              · cases h
              · rename_i hvisit
                obtain rfl := Except.ok.inj h
                exact (hs.mono hrest).visitNeighbors hvisit

theorem searchLoop_rooted {obs : Obstacles} {s : Search R} {k : Nat} {n : Node R}
    (hs : Rooted pose s.openSet) (h : searchLoop obs goal k s = .ok (some (some n))) :
    (n.backLink = none → n.cell = pose) ∧ n.cell = goal := by
  induction k generalizing s with
  | zero => cases h
  | succ k ih =>
    rw [searchLoop] at h
    cases hturn : searchTurn obs goal s with
    | error e =>
      rw [hturn] at h
      cases h
    | ok turn =>
      have hrooted := searchTurn_rooted hs hturn
      rw [hturn] at h
      cases turn with
      | solved m =>
        obtain rfl : m = n := by simpa [bind, Except.bind, pure, Except.pure] using h
        exact hrooted
      | failed => simp [bind, Except.bind, pure, Except.pure] at h
      | next s' => exact ih hrooted h

end Rooted

/-! ## Messages -/

/-- The message with these two waypoints. -/
def wayRes (c n : PointI) : CommWayRes R :=
  let goalP : PointD R := degridify c.x c.y
  let nGoalP : PointD R := degridify n.x n.y
  { point := ![goalP.x, goalP.y, 0.0], nPoint := ![nGoalP.x, nGoalP.y, 0.0] }

/-- The answer when there is no path: the goal, twice. -/
def goalRes : CommWayRes R := { point := ![7.0, 7.0, 0.0], nPoint := ![7.0, 7.0, 0.0] }

/-- What one `sendWaypoints` writes with this path. -/
def handedOut : List PointI → List (CommWayRes R)
  | [] => [goalRes]
  | [_] => []
  | c :: n :: _ => [wayRes c n]

/-- The `WAY_RES` messages among writes. -/
def Writes.wayRess (writes : Writes R) : List (CommWayRes R) :=
  writes.filterMap fun w =>
    match w.2 with
    | .wayRes msg => some msg
    | _ => none

omit [Double R] in
theorem wayRess_map (fd : Int) (msgs : List (CommWayRes R)) :
    Writes.wayRess (msgs.map fun m => (fd, Comm.wayRes m)) = msgs := by
  simp [Writes.wayRess, List.filterMap_map]

namespace AStar

/-- What the search and the waypoints leave alone, besides the map. -/
structure Steady (a a' : AStar R) : Prop where
  pipes : a'.toAStarPipes = a.toAStarPipes
  goal : a'.goal = a.goal

/-- The pipe for waypoints that writes to the descriptor `fd`. -/
def wayResPipe (fd : Int) : TypedPipe := { type := .wayRes, fdOut := fd }

/-- Waypoints are written to the descriptor `fd`. -/
def AnswersOn (a : AStar R) (fd : Int) : Prop :=
  fd ≠ 0 ∧ a.pipes.get a.wayResIndex = .ok (wayResPipe fd)

omit [Double R] in
theorem Steady.answersOn {a a' : AStar R} {fd : Int} (h : Steady a a') (ha : AnswersOn a fd) :
    AnswersOn a' fd := by
  unfold AnswersOn
  rw [h.pipes]
  exact ha

omit [Double R] in
theorem wp_send {a : AStar R} {index : Int} {msg : TypedPipe → Writes R} (pipe : TypedPipe)
    {Q : Unit → AStar R → Prop} {E : Fault → Prop} (h : a.pipes.get index = .ok pipe) :
    wp (send index msg) Q E a ↔ Q () { a with writes := a.writes ++ msg pipe } := by
  unfold send
  rw [wp_bind, wp_get, wp_bind, wp_lift_ok h, wp_modify]

/-- Messages with waypoints were written, and the path has these cells. -/
structure Handed (fd : Int) (cells : List PointI) (msgs : List (CommWayRes R))
    (a a' : AStar R) : Prop where
  steady : Steady a a'
  path : HasPath a'
  cells : pathCells a'.goalPath = cells
  writes : a'.writes = a.writes ++ msgs.map fun m => (fd, .wayRes m)

/-- **`sendWaypoints` takes two cells**, and writes one message unless there is one cell: the
second `pop` answers `NULL` then, and the function returns with the first node in its hands. -/
theorem sendWaypoints_spec {a : AStar R} (fd : Int) (h : HasPath a) (hfd : AnswersOn a fd) :
    wp sendWaypoints (fun _ a' => Handed fd ((pathCells a.goalPath).drop 2)
      (handedOut (pathCells a.goalPath)) a a') (fun _ => False) a := by
  obtain ⟨n, l, hpop, hl, hcells, hnone⟩ := PathList.pop_cells h
  unfold sendWaypoints
  rw [wp_bind, wp_modify, wp_bind, wp_get, wp_bind, wp_lift_ok hpop, wp_bind, wp_set]
  cases n with
  | none =>
    refine (wp_send (wayResPipe fd) ?_).mpr ?_
    · exact hfd.2
    have hnil := hnone rfl
    rw [hnil] at hcells
    refine ⟨⟨rfl, rfl⟩, hl, ?_, ?_⟩
    · simpa [hcells] using hnil
    · simp [hcells, handedOut, commSendWaypoints, sendOn, wayResPipe, hfd.1, goalRes]
  | some current =>
    obtain ⟨n', l', hpop', hl', hcells', hnone'⟩ := PathList.pop_cells hl
    dsimp only
    rw [wp_bind, wp_lift_ok hpop', wp_bind, wp_modify]
    cases n' with
    | none =>
      -- One cell: it is taken off the path, and nothing is written.
      have hnil := hnone' rfl
      rw [hnil] at hcells'
      refine ⟨⟨rfl, rfl⟩, hl', ?_, ?_⟩
      · simpa [hcells, hcells'] using hnil
      · simp [hcells, hcells', handedOut]
    | some next =>
      refine (wp_send (wayResPipe fd) ?_).mpr ?_
      · exact hfd.2
      refine ⟨⟨rfl, rfl⟩, hl', ?_, ?_⟩
      · simp [hcells, hcells']
      · simp [hcells, hcells', handedOut, commSendWaypoints, sendOn, wayResPipe, hfd.1, wayRes,
          Node.cell]

/-- The node at which the search ends, if it finds one. -/
def findGoal (pose goal : PointI) (map : Grid Bool) : Except Fault (Option (Option (Node R))) :=
  searchStart pose goal >>= searchLoop map.get goal searchBound

/-- The cells of the path that `command` finds, if it finds one. -/
def plannedCells (R : Type) [Double R] (pose goal : PointI) (map : Grid Bool) :
    Option (List PointI) :=
  match (findGoal pose goal map : Except Fault (Option (Option (Node R)))) with
  | .ok (some (some goalNode)) => some (pathCells (extractPath newList goalNode))
  | _ => none

theorem findGoal_rooted {pose goal : PointI} {map : Grid Bool} {n : Node R}
    (h : findGoal pose goal map = .ok (some (some n))) :
    (n.backLink = none → n.cell = pose) ∧ n.cell = goal := by
  unfold findGoal at h
  cases hstart : (searchStart pose goal : Except Fault (Search R)) with
  | error e =>
    rw [hstart] at h
    cases h
  | ok s =>
    rw [hstart] at h
    refine @searchLoop_rooted R _ pose goal _ s _ n ?_ h
    obtain ⟨s', hs', hholds⟩ := searchStart_eq (R := R) pose goal
    obtain rfl := Except.ok.inj (hstart.symm.trans hs')
    intro m hm _
    have hentries := hholds.openSet.entries
    obtain ⟨c, hc, hhead⟩ := mem_heads.mp hm
    have hmem : (⟨m, c.sortVal⟩ : Entry R) ∈ entries s.openSet :=
      List.mem_filterMap.mpr ⟨c, hc, by simp [hhead]⟩
    rw [hentries] at hmem
    obtain rfl : m = newNode pose.x pose.y 0.0 := by
      simpa using congrArg Entry.node (List.mem_singleton.mp hmem)
    rfl

/-- **A path of one cell** is what there is to plan at the goal. -/
theorem plannedCells_one {pose goal : PointI} {map : Grid Bool} {cells : List PointI}
    (h : plannedCells R pose goal map = some cells) :
    cells ≠ [] ∧ (cells.length = 1 → pose = goal) := by
  unfold plannedCells at h
  split at h
  · rename_i n hgoal
    obtain rfl := Option.some.inj h
    obtain ⟨hlink, hcell⟩ := findGoal_rooted hgoal
    obtain ⟨cells, hcells, hone⟩ := pathCells_extractPath newList n
    have hnil : pathCells (newList : LList R) = [] := rfl
    rw [hcells, hnil]
    refine ⟨by simp, ?_⟩
    intro hlen
    have hempty : cells = [] := by simpa using hlen
    rw [← hlink (hone.mp hempty), hcell]
  · cases h

/-- At the goal there is one cell to plan, whatever the map. -/
theorem plannedCells_at_goal (goal : PointI) (map : Grid Bool) :
    plannedCells R goal goal map = some [goal] := by
  obtain ⟨s, hs, hholds⟩ := searchStart_eq (R := R) goal goal
  have hsolved : searchTurn map.get goal s = .ok (.solved (newNode goal.x goal.y 0.0)) :=
    searchTurn_solved hholds rfl
  have hfind : findGoal (R := R) goal goal map = .ok (some (some (newNode goal.x goal.y 0.0))) := by
    unfold findGoal
    rw [hs]
    simp only [bind, Except.bind, searchBound, searchLoop, hsolved]
    rfl
  unfold plannedCells
  rw [hfind]
  rfl

/-- What `command` does with the path it found. It sends nothing if the path begins with the
waypoints that it sent last, and takes nothing off it then; this needs a second cell. -/
def Planned (fd : Int) (path : Option (List PointI)) (a a' : AStar R) : Prop :=
  match path with
  | none => a' = a
  | some cells =>
    (1 < cells.length ∧ Handed fd cells [] a a') ∨ Handed fd (cells.drop 2) (handedOut cells) a a'

/-- `command` plans from `pose` to `goal` and hands out the first waypoints. A search that leaves
the map or does not end is not spoken of. -/
theorem command_spec {a : AStar R} (fd : Int) (h : HasPath a) (hfd : AnswersOn a fd) :
    wp command (fun _ a' => Planned fd (plannedCells R a.pose a.goal a.obstacleMap) a a')
      (fun _ => True) a := by
  unfold command
  rw [wp_bind, wp_get, wp_bind]
  refine wp_lift (fun search hsearch => ?_) fun _ _ => trivial
  rw [wp_bind]
  refine wp_lift (fun found hfound => ?_) fun _ _ => trivial
  have hfind : findGoal a.pose a.goal a.obstacleMap = .ok found := by
    unfold findGoal
    rw [hsearch]
    exact hfound
  cases found with
  | none => trivial
  | some found =>
    cases found with
    | none =>
      have hnone : plannedCells R a.pose a.goal a.obstacleMap = none := by
        unfold plannedCells
        rw [hfind]
      rw [hnone]
      exact rfl
    | some goalNode =>
      have hsome : plannedCells R a.pose a.goal a.obstacleMap
          = some (pathCells (extractPath newList goalNode)) := by
        unfold plannedCells
        rw [hfind]
      obtain ⟨hne, -⟩ := plannedCells_one hsome
      have hpath : PathList (extractPath newList goalNode) := PathList.newList.extractPath goalNode
      rw [hsome]
      dsimp only
      rw [wp_bind, wp_lift_ok h.eraseList, wp_bind, wp_set, wp_ite]
      split
      · -- The second test is of the second node, and `NULL` equals no node.
        rename_i hsame
        refine Or.inl ⟨?_, ⟨rfl, rfl⟩, hpath, rfl, by simp⟩
        by_contra hone
        have hlen : (pathCells (extractPath newList goalNode)).length = 1 := by
          have := List.length_pos_of_ne_nil hne
          omega
        rw [hpath.peek_one hlen] at hsame
        simp [nodeEqaulsPtr] at hsame
      · refine wp.mono (sendWaypoints_spec fd ?_ ?_) ?_ ?_
        · exact hpath
        · exact hfd
        · intro _ a' ha'
          exact Or.inr ⟨⟨ha'.steady.pipes, ha'.steady.goal⟩, ha'.path, ha'.cells, ha'.writes⟩
        · intro _ _
          trivial

/-! ## One event -/

/-- What `enterLoop` reads at once. -/
inductive Event where
  | update (header : ReadResult) (obstacles : Int → ReadResult)
  | wayReq (readRet : Int)

def handleEvent : Event → AStar R → Except Fault (AStar R)
  | .update header obstacles => execute (onUpdate header obstacles)
  | .wayReq readRet => execute (onWayReq readRet)

/-- A `WAY_REQ` message was read. -/
def Event.isRequest : Event → Bool
  | .update _ _ => false
  | .wayReq readRet => decide (readRet > 0)

/-- The plan that an event leads to, if it leads to one. -/
def planOf (a : AStar R) : Event → Option (List PointI)
  | .wayReq _ => none
  | .update header obstacles =>
    let read := do
      let (readRet, msg) ← commRecvMapUpdate (← a.pipes.get a.updatesIndex) a.recvMapUpdate header
        obstacles
      return (readRet, msg, ← applyObstacles msg msg.obsCount.toNat 0 a.obstacleMap)
    match read with
    | .ok (readRet, msg, obstacleMap) =>
      if readRet > 0 ∧ msg.obsCount > 0 then
        plannedCells R ⟨msg.poseX, msg.poseY⟩ a.goal obstacleMap
      else none
    | .error _ => none

theorem planOf_ne_nil {a : AStar R} {e : Event} {cells : List PointI}
    (h : planOf a e = some cells) : cells ≠ [] := by
  cases e with
  | wayReq readRet => cases h
  | update header obstacles =>
    unfold planOf at h
    dsimp only at h
    split at h
    · split at h
      · exact (plannedCells_one h).1
      · cases h
    · cases h

/-- No cell is left over: a request does not find a path of one cell, and no plan is made at
the goal. -/
def Event.Pairs (a : AStar R) : Event → Prop
  | .wayReq readRet => readRet > 0 → (pathCells a.goalPath).length ≠ 1
  | .update header obstacles => ∀ pipe readRet msg, a.pipes.get a.updatesIndex = .ok pipe →
      commRecvMapUpdate pipe a.recvMapUpdate header obstacles = .ok (readRet, msg) →
      readRet > 0 → msg.obsCount > 0 → (⟨msg.poseX, msg.poseY⟩ : PointI) ≠ a.goal

/-- **A request** is answered with the next two cells. The test for an empty path in
`enterLoop` comes to the same as the one in `sendWaypoints`. -/
theorem onWayReq_spec {a : AStar R} {fd readRet : Int} (h : HasPath a) (hfd : AnswersOn a fd)
    (hread : readRet > 0) :
    wp (onWayReq readRet) (fun _ a' => Handed fd ((pathCells a.goalPath).drop 2)
      (handedOut (pathCells a.goalPath)) a a') (fun _ => False) a := by
  obtain ⟨c, cs, hcs, hhead⟩ := PathList.head_isNone h
  unfold onWayReq
  rw [wp_ite, if_pos hread, wp_bind, wp_get, hcs]
  dsimp only
  rw [wp_ite]
  split
  · rename_i hnone
    refine (wp_send (wayResPipe fd) hfd.2).mpr ⟨⟨rfl, rfl⟩, h, ?_, ?_⟩
    · rw [← hcs, hhead.mp hnone]
      rfl
    · rw [← hcs, hhead.mp hnone]
      simp [handedOut, commSendWaypoints, sendOn, wayResPipe, hfd.1, goalRes]
  · rw [← hcs]
    exact sendWaypoints_spec fd h hfd

/-- The waypoints and the path are as they were: all that was written is an acknowledgement. -/
structure Acked (a b : AStar R) : Prop where
  steady : Steady a b
  path : HasPath b
  goalPath : b.goalPath = a.goalPath
  writes : ∃ acks, b.writes = a.writes ++ acks ∧ acks.wayRess = []

omit [Double R] in
theorem wayRess_commSendAck (pipe : TypedPipe) (hash : Int) :
    (commSendAck pipe hash : Writes R).wayRess = [] := by
  unfold commSendAck sendOn
  split <;> rfl

section Update

variable {a : AStar R} {header : ReadResult} {obstacles : Int → ReadResult} {pipe : TypedPipe}
  {readRet : Int} {msg : CommMapUpdate}

omit [Double R] in
theorem pairs_update (hpipe : a.pipes.get a.updatesIndex = .ok pipe)
    (hrecv : commRecvMapUpdate pipe a.recvMapUpdate header obstacles = .ok (readRet, msg)) :
    (Event.update header obstacles).Pairs a ↔
      (readRet > 0 → msg.obsCount > 0 → (⟨msg.poseX, msg.poseY⟩ : PointI) ≠ a.goal) := by
  constructor
  · intro hall
    exact hall pipe readRet msg hpipe hrecv
  · intro hone pipe' readRet' msg' hpipe' hrecv'
    obtain rfl := Except.ok.inj (hpipe.symm.trans hpipe')
    obtain ⟨rfl, rfl⟩ := Prod.mk.inj (Except.ok.inj (hrecv.symm.trans hrecv'))
    exact hone

omit header obstacles readRet msg pipe in
instance (a : AStar R) : DecidablePred (Event.Pairs a)
  | .wayReq readRet =>
    inferInstanceAs (Decidable (readRet > 0 → (pathCells a.goalPath).length ≠ 1))
  | .update header obstacles =>
    match hpipe : a.pipes.get a.updatesIndex with
    | .error _ => .isTrue fun pipe _ _ hp => nomatch hpipe.symm.trans hp
    | .ok pipe =>
      match hrecv : commRecvMapUpdate pipe a.recvMapUpdate header obstacles with
      | .error _ => .isTrue fun pipe' readRet msg hp hr => by
        obtain rfl := Except.ok.inj (hpipe.symm.trans hp)
        cases hrecv.symm.trans hr
      | .ok (readRet, msg) =>
        decidable_of_iff (readRet > 0 → msg.obsCount > 0 →
          (⟨msg.poseX, msg.poseY⟩ : PointI) ≠ a.goal) (pairs_update hpipe hrecv).symm

theorem planOf_update {obstacleMap : Grid Bool} (hpipe : a.pipes.get a.updatesIndex = .ok pipe)
    (hrecv : commRecvMapUpdate pipe a.recvMapUpdate header obstacles = .ok (readRet, msg))
    (happly : applyObstacles msg msg.obsCount.toNat 0 a.obstacleMap = .ok obstacleMap)
    (hread : readRet > 0) :
    planOf a (.update header obstacles) = if msg.obsCount > 0 then
      plannedCells R ⟨msg.poseX, msg.poseY⟩ a.goal obstacleMap else none := by
  simp only [planOf, hpipe, hrecv, happly, bind, Except.bind, pure, Except.pure]
  simp [hread]

/-- There is no plan where nothing was read. -/
theorem planOf_unread (hpipe : a.pipes.get a.updatesIndex = .ok pipe)
    (hrecv : commRecvMapUpdate pipe a.recvMapUpdate header obstacles = .ok (readRet, msg))
    (hread : ¬ readRet > 0) : planOf a (.update header obstacles) = none := by
  simp only [planOf, hpipe, hrecv, bind, Except.bind, pure, Except.pure]
  split
  · rename_i r happly
    split at happly
    · cases happly
    · obtain ⟨rfl, rfl, rfl⟩ := Except.ok.inj happly
      simp [hread]
  · rfl

end Update

/-- **An update** leads to its plan, and then the plan has one cell exactly at the goal. The state
`b` is the one in which `command` is called: the acknowledgement is written, the map is marked,
and the waypoints are as they were. -/
theorem onUpdate_planned {a : AStar R} {fd : Int} (h : HasPath a) (hfd : AnswersOn a fd)
    (header : ReadResult) (obstacles : Int → ReadResult) :
    wp (onUpdate header obstacles) (fun _ a' => ∃ b, Acked a b ∧
        Planned fd (planOf a (.update header obstacles)) b a' ∧
        ((Event.update header obstacles).Pairs a ↔
          ∀ cells, planOf a (.update header obstacles) = some cells → cells.length ≠ 1))
      (fun _ => True) a := by
  unfold onUpdate
  rw [wp_bind, wp_get, wp_bind]
  refine wp_lift (fun pipe hpipe => ?_) fun _ _ => trivial
  rw [wp_bind]
  refine wp_lift (fun received hrecv => ?_) fun _ _ => trivial
  obtain ⟨readRet, msg⟩ := received
  have hpairs := pairs_update hpipe hrecv
  rw [wp_bind, wp_set, wp_ite]
  split
  · rename_i hread
    rw [wp_bind, wp_modify, wp_bind]
    refine wp_lift (fun obstacleMap happly => ?_) fun _ _ => trivial
    have hplan := planOf_update hpipe hrecv happly hread
    rw [wp_bind, wp_modify, wp_bind, wp_get, wp_bind]
    apply wp.imp (send_writes _ _ _)
    rintro _ b ⟨ackPipe, -, hb⟩
    have hacked : Acked a b := by
      refine ⟨?_, ?_, ?_, commSendAck ackPipe b.fakeHash, ?_, wayRess_commSendAck ackPipe _⟩
      · rw [hb]
        exact ⟨rfl, rfl⟩
      · rw [hb]
        exact h
      · rw [hb]
      · rw [hb]
    rw [wp_ite]
    split
    · -- There is a new obstacle, so a plan is made with the pose that came with it.
      rename_i hcount
      rw [if_pos hcount] at hplan
      have hfind : plannedCells R b.pose b.goal b.obstacleMap
          = planOf a (.update header obstacles) := by
        rw [hplan, hb]
      apply (command_spec fd hacked.path (hacked.steady.answersOn hfd)).imp
      intro _ a' ha'
      rw [hfind] at ha'
      refine ⟨b, hacked, ha', ?_⟩
      rw [hpairs, hplan]
      constructor
      · intro hne cells hcells hone
        exact hne hread hcount ((plannedCells_one hcells).2 hone)
      · intro hall _ _ hgoal
        rw [hgoal] at hall
        exact hall [a.goal] (plannedCells_at_goal a.goal obstacleMap) rfl
    · rename_i hcount
      rw [if_neg hcount] at hplan
      refine ⟨b, hacked, ?_, ?_⟩
      · rw [hplan]
        exact rfl
      · rw [hpairs, hplan]
        simp [hcount]
  · rename_i hread
    have hplan := planOf_unread hpipe hrecv hread
    refine ⟨{ a with recvMapUpdate := msg }, ⟨⟨rfl, rfl⟩, h, rfl, [], by simp, rfl⟩, ?_, ?_⟩
    · rw [hplan]
      exact rfl
    · rw [hpairs, hplan]
      simp [hread]

/-! ## A record of a run -/

/-- The message number `i` for a plan: the cells in order, two in a message, the last one
twice if it is alone; then the goal. The last one alone is what the comment in `sendWaypoints`
promises and its code never sends. -/
def waypoints (plan : List PointI) (i : Nat) : CommWayRes R :=
  match plan.drop (2 * i) with
  | [] => goalRes
  | [c] => wayRes c c
  | c :: n :: _ => wayRes c n

structure Journal (R : Type) where
  state : AStar R
  /-- For each request that was read, the number of messages that answered it. -/
  answers : List Nat := []
  /-- The cells of the last plan. -/
  plan : List PointI := []
  /-- The messages with waypoints since then. -/
  since : List (CommWayRes R) := []

/-- One event, and its record. The messages are read off what was written, and the plan is
computed from the state in front of the event, apart from the code. -/
def Journal.step (e : Event) (j : Journal R) : Except Fault (Journal R) := do
  let state ← handleEvent e j.state
  let msgs := Writes.wayRess (state.writes.drop j.state.writes.length)
  return {
    state
    answers := if e.isRequest then j.answers ++ [msgs.length] else j.answers
    plan := (planOf j.state e).getD j.plan
    since := if (planOf j.state e).isSome then msgs else j.since ++ msgs }

/-- Every request was answered by one message, the messages are those for the plan, and the
cells that were not sent are still there. The last is what an answer depends on, and with it the
other two are kept by every event that leaves no cell over. -/
structure Journal.Good (j : Journal R) : Prop where
  answered : ∀ n ∈ j.answers, n = 1
  inOrder : j.since = (List.range j.since.length).map (waypoints j.plan)
  rest : pathCells j.state.goalPath = j.plan.drop (2 * j.since.length)

theorem Journal.step_ok {e : Event} {j j' : Journal R} (h : j.step e = .ok j') :
    ∃ state, handleEvent e j.state = .ok state ∧
      j' = {
        state
        answers := if e.isRequest then
            j.answers ++ [(Writes.wayRess (state.writes.drop j.state.writes.length)).length]
          else j.answers
        plan := (planOf j.state e).getD j.plan
        since := if (planOf j.state e).isSome then
            Writes.wayRess (state.writes.drop j.state.writes.length)
          else j.since ++ Writes.wayRess (state.writes.drop j.state.writes.length) } := by
  unfold Journal.step at h
  cases hstate : handleEvent e j.state with
  | error err =>
    rw [hstate] at h
    cases h
  | ok state =>
    rw [hstate] at h
    exact ⟨state, rfl, (Except.ok.inj h).symm⟩

omit [Double R] in
theorem Handed.msgs {fd : Int} {cells : List PointI} {msgs : List (CommWayRes R)} {a b a' : AStar R}
    (hb : ∃ acks, b.writes = a.writes ++ acks ∧ acks.wayRess = [])
    (h : Handed fd cells msgs b a') :
    Writes.wayRess (a'.writes.drop a.writes.length) = msgs := by
  obtain ⟨acks, hacks, hnone⟩ := hb
  rw [h.writes, hacks, List.append_assoc, List.drop_left]
  unfold Writes.wayRess at hnone ⊢
  rw [List.filterMap_append, hnone, List.nil_append]
  exact wayRess_map fd msgs

/-- The next two cells of the path, in a record that is as it should be. With one cell left there
is no message, and the answer is recorded as none. -/
theorem Journal.Good.next {j : Journal R} (h : j.Good) (a' : AStar R)
    (hcells : pathCells a'.goalPath = (pathCells j.state.goalPath).drop 2) :
    Journal.Good
        { state := a'
          answers := j.answers ++ [(handedOut (R := R) (pathCells j.state.goalPath)).length]
          plan := j.plan
          since := j.since ++ handedOut (pathCells j.state.goalPath) } ↔
      (pathCells j.state.goalPath).length ≠ 1 := by
  obtain ⟨hanswered, horder, hrest⟩ := h
  constructor
  · rintro ⟨hall, -, -⟩ hone
    obtain ⟨c, hc⟩ := List.length_eq_one_iff.mp hone
    have := hall (handedOut (R := R) (pathCells j.state.goalPath)).length (by simp)
    rw [hc] at this
    cases this
  · intro hmore
    -- What is left is the plan from the next message on, so this is that message.
    have hmsg : handedOut (pathCells j.state.goalPath)
        = [waypoints (R := R) j.plan j.since.length] := by
      unfold waypoints
      rw [← hrest]
      match hc : pathCells j.state.goalPath with
      | [] => rfl
      | [c] => simp [hc] at hmore
      | c :: n :: cs => rfl
    rw [hmsg]
    refine ⟨?_, ?_, ?_⟩
    · intro n hn
      rcases List.mem_append.mp hn with hn | hn
      · exact hanswered n hn
      · simpa using hn
    · dsimp only
      rw [List.length_append, List.length_singleton, List.range_succ, List.map_append, ← horder]
      rfl
    · dsimp only
      rw [hcells, hrest, List.drop_drop, List.length_append, List.length_singleton]
      congr 1

theorem Planned.handed {fd : Int} {cells : List PointI} {b a' : AStar R}
    (h : Planned fd (some cells) b a') : ∃ rest msgs, Handed fd rest msgs b a' := by
  rcases h with ⟨-, h⟩ | h
  · exact ⟨_, _, h⟩
  · exact ⟨_, _, h⟩

/-- The record after a new plan, of which the first waypoints were sent or are still there. The
messages before it are forgotten, and the answers are not. -/
theorem Journal.Good.planned {j : Journal R} {fd : Int} {cells : List PointI} {b a' : AStar R}
    (h : j.Good) (hcells : cells ≠ [])
    (hb : ∃ acks, b.writes = j.state.writes ++ acks ∧ acks.wayRess = [])
    (hplanned : Planned fd (some cells) b a') :
    Journal.Good { j with
        state := a'
        plan := cells
        since := Writes.wayRess (a'.writes.drop j.state.writes.length) } ↔ cells.length ≠ 1 := by
  rcases hplanned with ⟨hmore, ha'⟩ | ha'
  · rw [ha'.msgs hb]
    exact iff_of_true ⟨h.answered, rfl, ha'.cells⟩ (by omega)
  · rw [ha'.msgs hb]
    match cells, hcells, ha'.cells with
    | [c], _, hrest =>
      -- The cell is gone and no message is recorded for it.
      refine iff_of_false (fun hgood => ?_) (by simp)
      have hnone := hgood.rest
      simp [handedOut, hrest] at hnone
    | c :: n :: cs, _, hrest => exact iff_of_true ⟨h.answered, rfl, hrest⟩ (by simp)

/-- **One event in a record.** The record stays as it should be exactly if no cell is left
over. The path stays one that the functions can take apart, and the pipe of the answers where it
is, whether it does or not. -/
theorem Journal.step_good {e : Event} {j j' : Journal R} {fd : Int} (h : j.Good)
    (hpath : HasPath j.state) (hfd : AnswersOn j.state fd) (hstep : j.step e = .ok j') :
    (j'.Good ↔ e.Pairs j.state) ∧ HasPath j'.state ∧ AnswersOn j'.state fd := by
  obtain ⟨state, hstate, hj'⟩ := Journal.step_ok hstep
  cases e with
  | wayReq readRet =>
    by_cases hread : readRet > 0
    · have ha' := execute_spec (onWayReq_spec hpath hfd hread) hstate
      have hmsgs : Writes.wayRess (state.writes.drop j.state.writes.length)
          = handedOut (pathCells j.state.goalPath) := ha'.msgs ⟨[], by simp, rfl⟩
      have hnext := h.next state ha'.cells
      rw [hj', hmsgs]
      refine ⟨?_, ha'.path, ha'.steady.answersOn hfd⟩
      simpa [Event.isRequest, Event.Pairs, planOf, hread] using hnext
    · obtain rfl : j.state = state := by
        simp only [handleEvent, onWayReq, hread, if_false] at hstate
        exact Except.ok.inj hstate
      rw [hj']
      refine ⟨?_, hpath, hfd⟩
      simpa [Event.isRequest, Event.Pairs, planOf, hread, Writes.wayRess] using h
  | update header obstacles =>
    obtain ⟨b, hb, hplanned, hpairs⟩ :=
      execute_spec (onUpdate_planned hpath hfd header obstacles) hstate
    have hfd' := hb.steady.answersOn hfd
    rw [hpairs]
    cases hplan : planOf j.state (.update header obstacles) with
    | none =>
      -- No plan: nothing but an acknowledgement was written.
      rw [hplan] at hplanned
      obtain rfl : state = b := hplanned
      obtain ⟨acks, hacks, hnone⟩ := hb.writes
      have hmsgs : Writes.wayRess (state.writes.drop j.state.writes.length) = [] := by
        rw [hacks, List.drop_left]
        exact hnone
      rw [hj', hmsgs, hplan]
      refine ⟨⟨fun _ => by simp, fun _ => ?_⟩, hb.path, hfd'⟩
      refine ⟨h.answered, ?_, ?_⟩
      · simpa [Event.isRequest] using h.inOrder
      · simpa [hb.goalPath] using h.rest
    | some cells =>
      rw [hplan] at hplanned
      obtain ⟨rest, msgs, ha'⟩ := hplanned.handed
      have hgood := h.planned (planOf_ne_nil hplan) hb.writes hplanned
      rw [hj', hplan]
      refine ⟨?_, ha'.path, ha'.steady.answersOn hfd'⟩
      have hone : (∀ cells', some cells = some cells' → cells'.length ≠ 1) ↔ cells.length ≠ 1 := by
        simp
      rw [hone]
      exact hgood

/-- The record of a planner that was set up. -/
def Journal.start (pipes : CArray TypedPipe) (pose : PointI) : Journal R :=
  { state := AStar.start pipes pose }

/-- **The waypoints of a run.** They are in order throughout, and every request is answered once,
exactly if every event of the run leaves no cell over in the state that it meets. -/
theorem waypoints_in_order_iff {pipes : CArray TypedPipe} {pose : PointI} {fd : Int}
    (hfd : AnswersOn (AStar.start pipes pose : AStar R) fd) {events : List Event} {j : Journal R}
    (hrun : runAll Journal.step events (Journal.start pipes pose) = .ok j) :
    Throughout Journal.step Journal.Good events (Journal.start pipes pose : Journal R) ↔
      AllMeet Journal.step (fun e j => e.Pairs j.state) events
        (Journal.start pipes pose : Journal R) := by
  have hstart : Journal.Good (Journal.start pipes pose : Journal R) :=
    ⟨by simp [Journal.start], rfl, rfl⟩
  refine throughout_iff (I := fun j : Journal R =>
    j.Good ∧ HasPath j.state ∧ AnswersOn j.state fd) ?_
    ⟨hstart, PathList.newList, hfd⟩ hrun
  rintro e j j' ⟨hgood, hpath, hans⟩ hstep
  obtain ⟨hiff, hpath', hans'⟩ := Journal.step_good hgood hpath hans hstep
  exact ⟨hiff, fun hgood' => ⟨hgood', hpath', hans'⟩⟩

/-- What is read in one pass of the loop: the update is handled first. -/
def eventsOf (w : Wake) : List Event :=
  (w.1.map fun u => .update u.1 u.2).toList ++ (w.2.map .wayReq).toList

/-- One pass of the loop is one event for each pipe that had something. -/
theorem wake_events {w : Wake} {a a' : AStar R} (h : wake w a = .ok a') :
    runAll handleEvent (eventsOf w) a = .ok a' := by
  obtain ⟨update, wayReq⟩ := w
  have hgo := ((execute_guard AStar.insertCFE).mp h).2
  have hrest : ∀ t : AStar R, execute (onRequest wayReq) t = .ok a' →
      runAll handleEvent (wayReq.map Event.wayReq).toList t = .ok a' := by
    intro t ht
    cases wayReq with
    | none => exact ht
    | some readRet => exact runAll_cons.mpr ⟨a', ht, rfl⟩
  cases update with
  | none => exact hrest a hgo
  | some u =>
    obtain ⟨t, ht, ht'⟩ := execute_bind.mp hgo
    exact runAll_cons.mpr ⟨t, ht, hrest t ht'⟩

theorem Journal.exists_run {events : List Event} {j : Journal R} {a : AStar R}
    (h : runAll handleEvent events j.state = .ok a) :
    ∃ j', runAll Journal.step events j = .ok j' ∧ j'.state = a := by
  induction events generalizing j with
  | nil => exact ⟨j, rfl, Except.ok.inj h⟩
  | cons e es ih =>
    obtain ⟨b, hb, hrest⟩ := runAll_cons.mp h
    obtain ⟨j', hj'⟩ : ∃ j', Journal.step e j = .ok j' ∧ j'.state = b := by
      unfold Journal.step
      rw [hb]
      exact ⟨_, rfl, rfl⟩
    obtain ⟨j'', hrun, hstate⟩ := ih (j := j') (by rw [hj'.2]; exact hrest)
    exact ⟨j'', runAll_cons.mpr ⟨j', hj'.1, hrun⟩, hstate⟩

/-- Every run of the loop of `enterLoop` has a record. -/
theorem Journal.of_wakes {pipes : CArray TypedPipe} {pose : PointI} {wakes : List Wake}
    {a : AStar R} (h : runAll wake wakes (AStar.start pipes pose) = .ok a) :
    ∃ j, runAll Journal.step (wakes.flatMap eventsOf) (Journal.start pipes pose) = .ok j ∧
      j.state = a := by
  apply Journal.exists_run
  have hall : ∀ b : AStar R, runAll wake wakes b = .ok a →
      runAll handleEvent (wakes.flatMap eventsOf) b = .ok a := by
    clear h
    induction wakes with
    | nil => exact fun b hb => hb
    | cons w ws ih =>
      intro b hb
      obtain ⟨c, hc, hrest⟩ := runAll_cons.mp hb
      rw [List.flatMap_cons, runAll_append]
      exact ⟨c, wake_events hc, ih c hrest⟩
  exact hall _ h

/-! ## An even path and an odd one -/

/-- Arithmetic that can be computed. The planner uses no more of `<math.h>` than `sqrt`, which is
cut off after three digits here. -/
instance thousandths : Double ℚ where
  decLt := inferInstance
  decLe := inferInstance
  toInt x := if 0 ≤ x then ⌊x⌋ else ⌈x⌉
  sqrt x := (Nat.sqrt ⌊x * 1000000⌋.toNat : ℚ) / 1000
  fabs x := |x|
  sin _ := 0
  cos _ := 0
  atan2 _ _ := 0
  pow _ _ := 0
  pi := 355 / 113

/-- The pipes of a planner, in the order of the types in the source. -/
def plannerPipes : CArray TypedPipe where
  size := 4
  cells i :=
    if i = 0 then { type := .mapUpdate, fdIn := 3 }
    else if i = 1 then { type := .commAck, fdOut := 4 }
    else if i = 2 then { type := .wayReq, fdIn := 5 }
    else { type := .wayRes, fdOut := 6 }

/-- An update from cell `(x, y)` with one obstacle, in the corner of the map. -/
def updateFrom (x y : Int) : Event :=
  .update (.data (wireBytes [x, y, 1])) fun _ => .data (wireBytes [0, 0])

/-- An update from three cells before the goal, and two requests. The plan has four cells: the
first request is answered with its second half, and the other one with the goal. -/
def evenEvents : List Event := [updateFrom 72 75, .wayReq 4, .wayReq 4]

/-- No plan is of one cell and no request meets one, so all is in order throughout. -/
theorem waypoints_in_order_iff_short : ∃ j : Journal ℚ,
    runAll Journal.step evenEvents (Journal.start plannerPipes ⟨0, 0⟩) = .ok j ∧
      j.answers = [1, 1] ∧
      Throughout Journal.step Journal.Good evenEvents
        (Journal.start plannerPipes ⟨0, 0⟩ : Journal ℚ) := by
  have hanswers : (runAll Journal.step evenEvents
      (Journal.start plannerPipes ⟨0, 0⟩ : Journal ℚ)).map (fun j => j.answers) = .ok [1, 1] := by
    decide +kernel
  cases hj : runAll Journal.step evenEvents (Journal.start plannerPipes ⟨0, 0⟩ : Journal ℚ) with
  | error e =>
    rw [hj] at hanswers
    cases hanswers
  | ok j =>
    rw [hj] at hanswers
    have hpairs : AllMeet Journal.step (fun e j => e.Pairs j.state) evenEvents
        (Journal.start plannerPipes ⟨0, 0⟩ : Journal ℚ) := by decide +kernel
    exact ⟨j, rfl, Except.ok.inj hanswers,
      (@waypoints_in_order_iff ℚ _ plannerPipes ⟨0, 0⟩ 6 ⟨by decide, rfl⟩ _ j hj).mpr hpairs⟩

/-- A run that reads an update from two cells before the goal, and a request. -/
def shortRun : Except Fault (Journal ℚ) :=
  runAll Journal.step [updateFrom 73 75, .wayReq 4] (Journal.start plannerPipes ⟨0, 0⟩)

/-- **The last cell is not sent.** Three cells are planned, two are sent at once, and the request
for the third is not answered. -/
theorem last_cell_is_not_sent : ∃ j, shortRun = .ok j ∧ j.plan = [⟨73, 75⟩, ⟨74, 75⟩, ⟨75, 75⟩] ∧
    j.answers = [0] ∧ ¬ j.Good := by
  have hrun : shortRun.map (fun j => (j.plan, j.answers))
      = .ok ([⟨73, 75⟩, ⟨74, 75⟩, ⟨75, 75⟩], [0]) := by decide +kernel
  cases hj : shortRun with
  | error e =>
    rw [hj] at hrun
    cases hrun
  | ok j =>
    rw [hj] at hrun
    obtain ⟨hplan, hanswers⟩ := Prod.mk.inj (Except.ok.inj hrun)
    refine ⟨j, rfl, hplan, hanswers, fun hgood => ?_⟩
    have := hgood.answered 0 (by simp [hanswers])
    cases this

end AStar

end Pint
