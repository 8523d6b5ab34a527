import Pint.Lib.Run
import Pint.Program.ArtPot
import Pint.Proof.Exact
import Mathlib.Data.List.GetD
import Mathlib.Data.List.Perm.Basic

/-!
# The pipes that an ArtPot uses

Without a planner there is no pipe for requests, and its index is -1. `main` and `enterLoop` ask
for the number of pipes before they use it; `command` asks only whether the goal is near. So an
ArtPot without a planner uses its pipes as it should until it gets to its goal.

The array of the code has four places. Here it has as many as there are pipes, so an access to a
pipe that is not there is a fault, and that a run has no fault is all that has to be shown. What
`setPipeIndexes` finds depends on the types alone (`Indexed`): an index is that of a pipe of its
type, or its default, and the defaults are 0 for the first two pipes and -1 for those of the
planner. So an index can only be out of range where there is no pipe of that type
(`Located.in_range_iff`).

`Running` is what a run keeps. It has a part that is true only without a planner: the goal is the
one of `main`, because only a waypoint changes it, so whether a pass needs the missing pipe is a
question about the scan that it reads (`Suits`), and not about the passes before it.
-/

namespace Pint

open Prog

/-- The pipes of a configuration as an array. -/
def pipeArray (ps : List TypedPipe) : CArray TypedPipe := ⟨ps.length, fun i => ps.getD i.toNat {}⟩

/-! ## The indexes -/

section Indexes

variable {ps : List TypedPipe} {n : Nat} {t : CommMessage} {d i : Int}

/-- The index of a type after a loop over the first `n` pipes, where it was `d` before. -/
def Located (ps : List TypedPipe) (n : Nat) (t : CommMessage) (d i : Int) : Prop :=
  (i = d ∧ ∀ k < n, (ps.getD k {}).type ≠ t) ∨ ∃ k < n, i = (k : Int) ∧ (ps.getD k {}).type = t

theorem Located.start : Located ps 0 t d d :=
  Or.inl ⟨rfl, fun k hk => absurd hk (Nat.not_lt_zero k)⟩

theorem Located.next (h : Located ps n t d i) :
    Located ps (n + 1) t d (if (ps.getD n {}).type = t then n else i) := by
  split
  · rename_i ht
    exact Or.inr ⟨n, Nat.lt_succ_self n, rfl, ht⟩
  · rename_i ht
    rcases h with ⟨hi, hnone⟩ | ⟨k, hk, hi, hkt⟩
    · refine Or.inl ⟨hi, fun k hk => ?_⟩
      rcases Nat.lt_succ_iff_lt_or_eq.mp hk with hk | rfl
      · exact hnone k hk
      · exact ht
    · exact Or.inr ⟨k, Nat.lt_succ_of_lt hk, hi, hkt⟩

/-- An index that starts at the first pipe is always in range. -/
theorem Located.in_range (h : Located ps ps.length t 0 i) (hps : 0 < ps.length) :
    0 ≤ i ∧ i < ps.length := by
  rcases h with ⟨rfl, -⟩ | ⟨k, hk, rfl, -⟩
  · omega
  · omega

/-- One that starts at -1 is in range if there is a pipe of its type. -/
theorem Located.in_range_iff (h : Located ps ps.length t (-1) i) :
    (0 ≤ i ∧ i < ps.length) ↔ ∃ p ∈ ps, p.type = t := by
  rcases h with ⟨rfl, hnone⟩ | ⟨k, hk, rfl, ht⟩
  · refine iff_of_false (by omega) ?_
    rintro ⟨p, hp, ht⟩
    obtain ⟨k, hk, rfl⟩ := List.mem_iff_getElem.mp hp
    apply hnone k hk
    rw [List.getD_eq_getElem ps _ hk]
    exact ht
  · refine iff_of_true (by omega) ⟨ps[k], List.getElem_mem hk, ?_⟩
    rw [← List.getD_eq_getElem ps {} hk]
    exact ht

/-- Where `setPipeIndexes` has found the types among the first `n` pipes. -/
structure ArtPotPipes.Indexed (ps : List TypedPipe) (n : Nat) (c : ArtPotPipes) : Prop where
  pipes : c.pipes = pipeArray ps
  pipeCount : c.pipeCount = ps.length
  data : Located ps n .rangePoseData 0 c.dataIndex
  out : Located ps n .movCmd 0 c.outIndex
  wayReq : Located ps n .wayReq (-1) c.wayReqIndex
  wayRes : Located ps n .wayRes (-1) c.wayResIndex

theorem ArtPotPipes.setPipeIndex_eq {c : ArtPotPipes} {pipe : TypedPipe}
    (h : c.pipes.get i = .ok pipe) : c.setPipeIndex i = .ok { c with
      dataIndex := if pipe.type = .rangePoseData then i else c.dataIndex
      outIndex := if pipe.type = .movCmd then i else c.outIndex
      wayReqIndex := if pipe.type = .wayReq then i else c.wayReqIndex
      wayResIndex := if pipe.type = .wayRes then i else c.wayResIndex } := by
  unfold ArtPotPipes.setPipeIndex
  simp only [h, bind, Except.bind]
  cases pipe.type <;> rfl

theorem ArtPotPipes.Indexed.step {c : ArtPotPipes} (h : c.Indexed ps n) (hn : n < ps.length) :
    ∃ c', c.setPipeIndex n = .ok c' ∧ c'.Indexed ps (n + 1) := by
  have hget : c.pipes.get (n : Int) = .ok (ps.getD n {}) := by
    rw [h.pipes]
    exact CArray.get_ok (a := pipeArray ps) (by omega) (Int.ofNat_lt.mpr hn)
  exact ⟨_, c.setPipeIndex_eq hget, h.pipes, h.pipeCount, h.data.next, h.out.next,
    h.wayReq.next, h.wayRes.next⟩

theorem ArtPotPipes.setPipeIndexes_spec (ps : List TypedPipe) :
    ∃ c, ({ pipes := pipeArray ps, pipeCount := ps.length } : ArtPotPipes).setPipeIndexes
      = .ok c ∧ c.Indexed ps ps.length :=
  foldlM_range (fun n (c : ArtPotPipes) => c.Indexed ps n)
    ⟨rfl, rfl, .start, .start, .start, .start⟩
    fun _ _ hn h => h.step hn

end Indexes

/-! ## One pass -/

section Pass

variable {R : Type} [Double R] {s : ArtPot R}

/-- There is a pipe with this index. -/
def ArtPot.InRange (s : ArtPot R) (i : Int) : Prop := 0 ≤ i ∧ i < s.pipes.size

/-- What `select` reports, and what `read` then answers. -/
abbrev Wake (R : Type) := Option (Received (CommRangePoseData R)) × Option (Received (CommWayRes R))

/-- The goal, or what was the goal, is near. -/
def ArtPot.Near (goal : Fin 3 → R) (msg : CommRangePoseData R) : Prop :=
  goalDist goal msg.pose ≤ distEpsilon

/-- The pipes that a pass uses are there. -/
structure ArtPot.Uses (s : ArtPot R) (w : Wake R) : Prop where
  data : s.InRange s.dataIndex
  wayRes : s.pipeCount = 4 → s.InRange s.wayResIndex
  wayReq : ∀ msg, w.1 = some (.whole msg) → ArtPot.Near s.goal msg → s.InRange s.wayReqIndex
  out : ∀ msg, w.1 = some (.whole msg) → s.InRange s.outIndex

/-- What a pass leaves as it was. Without a planner the goal is one of them. -/
structure ArtPot.Keeps (s : ArtPot R) (w : Wake R) (s' : ArtPot R) : Prop where
  pipes : s'.toArtPotPipes = s.toArtPotPipes
  insertCFE : s'.insertCFE = s.insertCFE
  goal : s.pipeCount ≠ 4 → (∀ msg, w.1 = some (.whole msg) → ¬ ArtPot.Near s.goal msg) →
    s'.goal = s.goal
  writes : (∀ msg, w.1 = some (.whole msg) → ¬ ArtPot.Near s.goal msg) →
    ∀ fd, (fd, Comm.wayReq) ∈ s'.writes → (fd, Comm.wayReq) ∈ s.writes

omit [Double R] in
/-- An access to a pipe. -/
theorem wp_pipe {s : ArtPot R} {i : Int} {Q : TypedPipe → ArtPot R → Prop} {E : Fault → Prop}
    (hin : s.InRange i → Q (s.pipes.cells i) s) (hout : ¬ s.InRange i → E .outOfRange) :
    wp (liftM (s.pipes.get i)) Q E s := by
  unfold CArray.get
  split
  · rename_i h
    exact hin h
  · rename_i h
    exact hout h

omit [Double R] in
theorem send_range {i : Int} {msg : TypedPipe → Writes R} :
    wp (ArtPot.send i msg) (fun _ s' => s.InRange i ∧
        s' = { s with writes := s.writes ++ msg (s.pipes.cells i) })
      (fun _ => ¬ s.InRange i) s := by
  unfold ArtPot.send
  rw [wp_bind, wp_get, wp_bind]
  exact wp_pipe (fun hin => ⟨hin, rfl⟩) fun hout => hout

omit [Double R] in
theorem selectSet_range :
    wp (ArtPot.selectSet : ArtPot.M R _) (fun _ s' => s' = s ∧ s.InRange s.dataIndex ∧
        (s.pipeCount = 4 → s.InRange s.wayResIndex))
      (fun _ => ¬ (s.InRange s.dataIndex ∧ (s.pipeCount = 4 → s.InRange s.wayResIndex))) s := by
  unfold ArtPot.selectSet
  rw [wp_bind, wp_get, wp_bind]
  refine wp_pipe (fun hdata => ?_) fun hout h => hout h.1
  rw [wp_ite]
  split
  · rename_i hfour
    rw [wp_bind]
    exact wp_pipe (fun hway => ⟨rfl, hdata, fun _ => hway⟩) fun hout h => hout (h.2 hfour)
  · rename_i hfour
    exact ⟨rfl, hdata, fun hc => absurd hc hfour⟩

omit [Double R] in
theorem mem_sendOn {pipe : TypedPipe} {type : CommMessage} {msg : Comm R} {w : Int × Comm R}
    (h : w ∈ sendOn pipe type msg) : w.2 = msg := by
  unfold sendOn at h
  split at h
  · exact absurd h List.not_mem_nil
  · rw [List.mem_singleton.mp h]

/-- **The pipes that `command` uses**: the one for requests if the goal is near, and the one for
moves. -/
theorem command_range :
    wp (ArtPot.command : ArtPot.M R Unit) (fun _ s' =>
        ((ArtPot.goalDist s.goal s.pos ≤ ArtPot.distEpsilon → s.InRange s.wayReqIndex) ∧
          s.InRange s.outIndex) ∧
        s'.toArtPotPipes = s.toArtPotPipes ∧ s'.insertCFE = s.insertCFE ∧
        (¬ ArtPot.goalDist s.goal s.pos ≤ ArtPot.distEpsilon → s'.goal = s.goal ∧
          ∀ fd, (fd, Comm.wayReq) ∈ s'.writes → (fd, Comm.wayReq) ∈ s.writes))
      (fun _ => ¬ ((ArtPot.goalDist s.goal s.pos ≤ ArtPot.distEpsilon →
        s.InRange s.wayReqIndex) ∧ s.InRange s.outIndex)) s := by
  unfold ArtPot.command
  rw [wp_bind, wp_get, wp_bind, wp_set]
  by_cases hnear : ArtPot.goalDist s.goal s.pos ≤ ArtPot.distEpsilon
  · simp only [hnear, decide_true, if_true]
    rw [wp_bind]
    refine send_range.mono (fun _ t ht => ?_) fun _ hout h => hout (h.1 trivial)
    obtain ⟨hreq, rfl⟩ := ht
    refine send_range.mono (fun _ t ht => ?_) fun _ hout h => hout h.2
    obtain ⟨hmove, rfl⟩ := ht
    exact ⟨⟨fun _ => hreq, hmove⟩, rfl, rfl, fun hc => absurd trivial hc⟩
  · simp only [hnear, decide_false, if_false, Bool.false_eq_true]
    refine send_range.mono (fun _ t ht => ?_) fun _ hout h => hout h.2
    obtain ⟨hmove, rfl⟩ := ht
    refine ⟨⟨fun hc => absurd hc id, hmove⟩, rfl, rfl, fun _ => ⟨rfl, fun fd hfd => ?_⟩⟩
    rcases List.mem_append.mp hfd with hfd | hfd
    · exact hfd
    · cases mem_sendOn hfd

/-- What `enterLoop` does with what it reads from the first pipe. -/
theorem onData_range (data : Received (CommRangePoseData R)) :
    wp (ArtPot.onData data) (fun _ s' =>
        (∀ msg, data = .whole msg →
          (ArtPot.Near s.goal msg → s.InRange s.wayReqIndex) ∧ s.InRange s.outIndex) ∧
        s.Keeps (some data, none) s')
      (fun _ => ∃ msg, data = .whole msg ∧
        ¬ ((ArtPot.Near s.goal msg → s.InRange s.wayReqIndex) ∧ s.InRange s.outIndex)) s := by
  unfold ArtPot.onData
  cases data with
  | part readRet =>
    exact ⟨fun msg hmsg => absurd hmsg (by simp), rfl, rfl, fun _ _ => rfl, fun _ _ h => h⟩
  | whole msg =>
    dsimp only
    rw [wp_bind, wp_modify]
    refine command_range.mono (fun _ s' h => ?_) fun _ h => ⟨msg, rfl, h⟩
    obtain ⟨huses, hpipes, hcfe, hfar⟩ := h
    refine ⟨fun msg' hmsg => ?_, hpipes, hcfe, fun _ hfar' => ?_, fun hfar' => ?_⟩
    · obtain rfl := Received.whole.inj hmsg
      exact huses
    · exact (hfar (hfar' msg rfl)).1
    · exact (hfar (hfar' msg rfl)).2

omit [Double R] in
/-- The rest of a pass: with a planner a waypoint may be there. -/
theorem onWay_keeps (wayRes : Option (Received (CommWayRes R))) :
    wp (if s.pipeCount = 4 then
        match wayRes with
        | some got => ArtPot.onWayRes got
        | none => pure ()
      else pure () : ArtPot.M R Unit)
      (fun _ s' => s'.toArtPotPipes = s.toArtPotPipes ∧ s'.insertCFE = s.insertCFE ∧
        s'.writes = s.writes ∧ (s.pipeCount ≠ 4 → s'.goal = s.goal)) (fun _ => False) s := by
  split
  · rename_i hfour
    cases wayRes with
    | none => exact ⟨rfl, rfl, rfl, fun _ => rfl⟩
    | some got =>
      cases got with
      | whole msg => exact ⟨rfl, rfl, rfl, fun hc => absurd hfour hc⟩
      | part readRet => exact ⟨rfl, rfl, rfl, fun _ => rfl⟩
  · exact ⟨rfl, rfl, rfl, fun _ => rfl⟩

/-- **A pass goes wrong exactly if a pipe that it uses is not there.** -/
theorem pass_range (w : Wake R) (hcfe : s.insertCFE = false) :
    wp (ArtPot.pass w.1 w.2) (fun _ s' => s.Uses w ∧ s.Keeps w s') (fun _ => ¬ s.Uses w) s := by
  obtain ⟨data, wayRes⟩ := w
  unfold ArtPot.pass ArtPot.turn
  rw [wp_bind, wp_get, hcfe]
  simp only [Bool.false_eq_true, if_false, wp_bind, wp_discard]
  -- First the indexes that `select` is given, then the one of the output, and on the way to the
  -- planner one more.
  refine selectSet_range.mono (fun _ t ht => ?_) fun _ h hc => h ⟨hc.data, hc.wayRes⟩
  obtain ⟨rfl, hdata, hway⟩ := ht
  rw [wp_bind, wp_get, hcfe]
  simp only [Bool.false_eq_true, if_false]
  cases data with
  | none =>
    refine (onWay_keeps wayRes).mono (fun _ s' h => ?_) fun _ h => h.elim
    obtain ⟨hpipes, hcfe', hwrites, hgoal⟩ := h
    refine ⟨⟨hdata, hway, fun msg hmsg => absurd hmsg (by simp),
      fun msg hmsg => absurd hmsg (by simp)⟩, hpipes, hcfe', fun hfour _ => hgoal hfour, ?_⟩
    intro _ fd hfd
    rwa [hwrites] at hfd
  | some got =>
    rw [wp_bind]
    refine (onData_range got).mono (fun _ u h => ?_) fun _ h hc => ?_
    · obtain ⟨huses, hkeeps⟩ := h
      have hcount : u.pipeCount = t.pipeCount := congrArg ArtPotPipes.pipeCount hkeeps.pipes
      rw [← hcount]
      refine (onWay_keeps wayRes).mono (fun _ s' h => ?_) fun _ h => h.elim
      obtain ⟨hpipes, hcfe', hwrites, hgoal⟩ := h
      refine ⟨⟨hdata, hway, fun msg hmsg => (huses msg (Option.some.inj hmsg)).1,
        fun msg hmsg => (huses msg (Option.some.inj hmsg)).2⟩, hpipes.trans hkeeps.pipes,
        hcfe'.trans hkeeps.insertCFE, fun hfour hfar => ?_, fun hfar fd hfd => ?_⟩
      · exact (hgoal (by rw [hcount]; exact hfour)).trans (hkeeps.goal hfour hfar)
      · rw [hwrites] at hfd
        exact hkeeps.writes hfar fd hfd
    · obtain ⟨msg, rfl, hbad⟩ := h
      exact hbad ⟨hc.wayReq msg rfl, hc.out msg rfl⟩

end Pass

/-! ## A run -/

section Runs

variable {R : Type} [Double R] {ps : List TypedPipe} {s : ArtPot R} {w : Wake R}
  {ws : List (Wake R)}

/-- With a planner four pipes, without one these two. -/
def AcceptedPipes (ps : List TypedPipe) : Prop :=
  ps.length = 4 ∨ (ps.map TypedPipe.type).Perm [.rangePoseData, .movCmd]

theorem AcceptedPipes.length_pos (h : AcceptedPipes ps) : 0 < ps.length := by
  rcases h with h | h
  · omega
  · have := h.length_eq
    rw [List.length_map] at this
    exact this ▸ Nat.succ_pos 1

theorem AcceptedPipes.no_wayReq (h : AcceptedPipes ps) (hlen : ps.length ≠ 4) :
    ¬ ∃ p ∈ ps, p.type = .wayReq := by
  rintro ⟨p, hp, ht⟩
  have hmem := ((h.resolve_left hlen).mem_iff).mp (List.mem_map_of_mem hp)
  rw [ht] at hmem
  simp at hmem

def ArtPot.step (w : Wake R) (s : ArtPot R) : Except Fault (ArtPot R) :=
  execute (ArtPot.pass w.1 w.2) s

/-- `main`, and the loop of `enterLoop` with these passes. -/
def ArtPot.run (ps : List TypedPipe) (ws : List (Wake R)) : Except Fault (ArtPot R) := do
  runAll ArtPot.step ws (← ArtPot.start (pipeArray ps) ps.length)

/-- The goal of an ArtPot without a planner. -/
def mainGoal : Fin 3 → R := ![7.0, 7.0, 0.0]

/-- The state of a controller with these pipes. -/
structure ArtPot.Ready (ps : List TypedPipe) (s : ArtPot R) : Prop where
  indexed : s.toArtPotPipes.Indexed ps ps.length
  insertCFE : s.insertCFE = false

/-- Without a planner, the goal is the one of `main` and no waypoint was asked for. -/
structure ArtPot.Alone (s : ArtPot R) : Prop where
  goal : s.goal = mainGoal
  writes : ∀ fd, (fd, Comm.wayReq) ∉ s.writes

omit [Double R] in
theorem ArtPot.Ready.inRange_iff (h : s.Ready ps) (i : Int) :
    s.InRange i ↔ 0 ≤ i ∧ i < ps.length := by
  unfold ArtPot.InRange
  rw [h.indexed.pipes]
  rfl

theorem ArtPot.Ready.uses_iff (h : s.Ready ps) (hps : 0 < ps.length) :
    s.Uses w ↔ (ps.length = 4 → ∃ p ∈ ps, p.type = .wayRes) ∧
      ∀ msg, w.1 = some (.whole msg) → ArtPot.Near s.goal msg → ∃ p ∈ ps, p.type = .wayReq := by
  have hfour : s.pipeCount = 4 ↔ ps.length = 4 := by
    rw [h.indexed.pipeCount]
    omega
  have hway := h.indexed.wayReq.in_range_iff
  have hres := h.indexed.wayRes.in_range_iff
  constructor
  · intro hu
    refine ⟨fun hlen => ?_, fun msg hmsg hnear => ?_⟩
    · exact hres.mp ((h.inRange_iff _).mp (hu.wayRes (hfour.mpr hlen)))
    · exact hway.mp ((h.inRange_iff _).mp (hu.wayReq msg hmsg hnear))
  · rintro ⟨hlen, hnear⟩
    exact
      { data := (h.inRange_iff _).mpr (h.indexed.data.in_range hps)
        wayRes := fun hc => (h.inRange_iff _).mpr (hres.mpr (hlen (hfour.mp hc)))
        wayReq := fun msg hmsg hn => (h.inRange_iff _).mpr (hway.mpr (hnear msg hmsg hn))
        out := fun _ _ => (h.inRange_iff _).mpr (h.indexed.out.in_range hps) }

/-- One pass, as a step of a run. -/
theorem ArtPot.Ready.step (h : s.Ready ps) (w : Wake R) :
    (s.Uses w ∧ ∃ s', ArtPot.step w s = .ok s' ∧ s.Keeps w s' ∧ s'.Ready ps) ∨
      (¬ s.Uses w ∧ ∃ e, ArtPot.step w s = .error e) := by
  have hpass := pass_range w h.insertCFE
  unfold wp at hpass
  unfold ArtPot.step execute
  cases hrun : (ArtPot.pass w.1 w.2).run s with
  | ok r =>
    rw [hrun] at hpass
    refine Or.inl ⟨hpass.1, r.2, rfl, hpass.2, ?_, hpass.2.insertCFE.trans h.insertCFE⟩
    rw [hpass.2.pipes]
    exact h.indexed
  | error e =>
    rw [hrun] at hpass
    exact Or.inr ⟨hpass, e, rfl⟩

/-- **What `main` sets up**, if it has the pipe for its request. -/
theorem start_spec (ps : List TypedPipe) :
    ((ps.length = 4 → ∃ p ∈ ps, p.type = .wayReq) ∧
      ∃ s : ArtPot R, ArtPot.start (pipeArray ps) ps.length = .ok s ∧ s.Ready ps ∧
        (ps.length ≠ 4 → s.Alone)) ∨
    (¬ (ps.length = 4 → ∃ p ∈ ps, p.type = .wayReq) ∧
      ∃ e, (ArtPot.start (pipeArray ps) ps.length : Except Fault (ArtPot R)) = .error e) := by
  obtain ⟨c, hc, hset⟩ := ArtPotPipes.setPipeIndexes_spec ps
  have hway := hset.wayReq.in_range_iff
  unfold ArtPot.start
  simp only [hc, bind, Except.bind]
  -- With four pipes there is a planner, and `start` asks it for the first waypoint.
  by_cases hlen : ps.length = 4
  · have hfour : (ps.length : Int) = 4 := by omega
    rw [if_pos hfour]
    by_cases hreq : ∃ p ∈ ps, p.type = .wayReq
    · have hget : c.pipes.get c.wayReqIndex = .ok (c.pipes.cells c.wayReqIndex) := by
        refine CArray.get_ok (hway.mpr hreq).1 ?_
        rw [hset.pipes]
        exact (hway.mpr hreq).2
      simp only [hget]
      exact Or.inl ⟨fun _ => hreq, _, rfl, ⟨hset, rfl⟩, fun h => absurd hlen h⟩
    · have hget : c.pipes.get c.wayReqIndex = .error .outOfRange := by
        refine if_neg fun hc => hreq (hway.mp ?_)
        rw [hset.pipes] at hc
        exact hc
      simp only [hget]
      exact Or.inr ⟨fun h => hreq (h hlen), _, rfl⟩
  · have hfour : ¬ (ps.length : Int) = 4 := by omega
    rw [if_neg hfour]
    refine Or.inl ⟨fun h => absurd h hlen, _, rfl, ⟨hset, rfl⟩, fun _ => ⟨rfl, ?_⟩⟩
    exact fun fd => List.not_mem_nil

/-- No pipe is used that is not there, and without a planner the goal stays, and no waypoint is
asked for. -/
def KeepsToPipes (ps : List TypedPipe) (ws : List (Wake R)) : Prop :=
  ∃ s, ArtPot.run ps ws = .ok s ∧ (ps.length ≠ 4 → s.Alone)

/-- A pass that does not need a pipe which is not there. -/
def Suits (ps : List TypedPipe) (w : Wake R) : Prop :=
  if ps.length = 4 then ∃ p ∈ ps, p.type = .wayRes
  else ∀ msg, w.1 = some (.whole msg) → ¬ ArtPot.Near mainGoal msg

theorem ArtPot.Ready.suits_iff (h : s.Ready ps) (hps : 0 < ps.length)
    (hreq : (∃ p ∈ ps, p.type = .wayReq) ↔ ps.length = 4) (halone : ps.length ≠ 4 → s.Alone) :
    s.Uses w ↔ Suits ps w := by
  rw [h.uses_iff hps, hreq]
  unfold Suits
  by_cases hlen : ps.length = 4
  · rw [if_pos hlen]
    exact ⟨fun hu => hu.1 hlen, fun hres => ⟨fun _ => hres, fun _ _ _ => hlen⟩⟩
  · rw [if_neg hlen, (halone hlen).goal]
    exact ⟨fun hu msg hmsg hnear => hlen (hu.2 msg hmsg hnear),
      fun hfar => ⟨fun hc => absurd hc hlen, fun msg hmsg hnear => absurd hnear (hfar msg hmsg)⟩⟩

/-- A pass that suits the pipes keeps what is true without a planner. -/
theorem ArtPot.Keeps.alone {s' : ArtPot R} (hk : s.Keeps w s') (h : s.Ready ps)
    (hlen : ps.length ≠ 4) (ha : s.Alone) (hw : Suits ps w) : s'.Alone := by
  unfold Suits at hw
  rw [if_neg hlen, ← ha.goal] at hw
  have hfour : s.pipeCount ≠ 4 := by
    rw [h.indexed.pipeCount]
    omega
  exact ⟨(hk.goal hfour hw).trans ha.goal, fun fd hfd => ha.writes fd (hk.writes hw fd hfd)⟩

/-- What is true of the controller as it runs. -/
structure ArtPot.Running (ps : List TypedPipe) (s : ArtPot R) : Prop extends s.Ready ps where
  alone : ps.length ≠ 4 → s.Alone

/-- **A pass that suits the pipes can be made**, and no other. -/
theorem ArtPot.Running.step (h : s.Running ps) (hps : 0 < ps.length)
    (hreq : (∃ p ∈ ps, p.type = .wayReq) ↔ ps.length = 4) (w : Wake R) :
    (Suits ps w ∧ ∃ s', ArtPot.step w s = .ok s' ∧ s'.Running ps) ∨
      (¬ Suits ps w ∧ ∃ e, ArtPot.step w s = .error e) := by
  have hiff := h.toReady.suits_iff (w := w) hps hreq h.alone
  rcases h.toReady.step w with ⟨huses, s', hstep, hkeeps, hready⟩ | ⟨hbad, e, hstep⟩
  · exact Or.inl ⟨hiff.mp huses, s', hstep, hready, fun hlen =>
      hkeeps.alone h.toReady hlen (h.alone hlen) (hiff.mp huses)⟩
  · exact Or.inr ⟨fun hc => hbad (hiff.mpr hc), e, hstep⟩

/-- With a planner, the two pipes to it are among the four. Without one, no scan is from near the
goal. -/
def StaysAway (ps : List TypedPipe) (ws : List (Wake R)) : Prop :=
  (ps.length = 4 → ∃ p ∈ ps, p.type = .wayReq) ∧ ∀ w ∈ ws, Suits ps w

/-- **The runs that can be made.** What is true without a planner is true at their end. -/
theorem run_iff (hps : AcceptedPipes ps) :
    ((∃ s, ArtPot.run ps ws = .ok s) ↔ StaysAway ps ws) ∧
      ∀ s, ArtPot.run ps ws = .ok s → s.Running ps := by
  unfold ArtPot.run StaysAway
  rcases start_spec (R := R) ps with ⟨hstart, s, hs, hready, halone⟩ | ⟨hstart, e, hs⟩
  · have hreq : (∃ p ∈ ps, p.type = .wayReq) ↔ ps.length = 4 :=
      ⟨fun h => Classical.byContradiction fun hlen => hps.no_wayReq hlen h, hstart⟩
    have hrunning : s.Running ps := ⟨hready, halone⟩
    have hstep := fun (w : Wake R) (s : ArtPot R) (h : s.Running ps) =>
      h.step hps.length_pos hreq w
    rw [hs]
    refine ⟨(runAll.completes_iff_forall hstep hrunning).trans ?_, fun s' hrun => ?_⟩
    · exact (and_iff_right hstart).symm
    · refine runAll.invariant (fun w s t h ht => ?_) hrunning hrun
      rcases hstep w s h with ⟨-, t', ht', h'⟩ | ⟨-, e, he⟩
      · obtain rfl := Except.ok.inj (ht.symm.trans ht')
        exact h'
      · rw [he] at ht
        cases ht
  · rw [hs]
    refine ⟨iff_of_false ?_ fun h => hstart h.1, fun s hrun => ?_⟩
    · rintro ⟨s, hrun⟩
      cases hrun
    · cases hrun

/-- **ArtPot uses only the pipes that it has exactly if it stays away from its goal**, where there
is no planner. With one it depends on the types alone: the two pipes to the planner have to be
among the four. The passes may be any list of what `select` finds. -/
theorem keepsToPipes_iff (hps : AcceptedPipes ps) : KeepsToPipes ps ws ↔ StaysAway ps ws := by
  obtain ⟨hiff, hrunning⟩ : ((∃ s, ArtPot.run ps ws = .ok s) ↔ StaysAway ps ws) ∧
      ∀ s, ArtPot.run ps ws = .ok s → s.Running ps := run_iff hps
  rw [← hiff]
  constructor
  · rintro ⟨s, hrun, -⟩
    exact ⟨s, hrun⟩
  · rintro ⟨s, hrun⟩
    exact ⟨s, hrun, (hrunning s hrun).alone⟩

end Runs

/-! ## At the goal -/

/-- The two pipes of an ArtPot without a planner. -/
def twoPipes : List TypedPipe :=
  [{ type := .rangePoseData, fdIn := 3 }, { type := .movCmd, fdOut := 4 }]

/-- A scan from here, that sees nothing. -/
noncomputable def scanFrom (x y : ℝ) : Wake ℝ :=
  (some (.whole { ranges := fun _ => 10, pose := ![x, y, 0] }), none)

theorem scanFrom_suits {x y : ℝ} (hx : x < 6) : Suits twoPipes (scanFrom x y) := by
  unfold Suits
  rw [if_neg (by decide)]
  rintro msg hmsg hnear
  obtain rfl := Received.whole.inj (Option.some.inj hmsg)
  have hle : Real.sqrt ((7.0 - x) ^ (((2 : Int) : ℝ)) + (7.0 - y) ^ (((2 : Int) : ℝ)))
      ≤ (0.6 : ℝ) := hnear
  rw [Real.rpow_intCast, Real.rpow_intCast, Real.sqrt_le_left (by norm_num)] at hle
  rw [show (7.0 : ℝ) = 7 by norm_num] at hle
  have hother : 0 ≤ (7 - y) ^ 2 := sq_nonneg _
  have hfar : 1 * 1 < (7 - x) * (7 - x) := by
    apply mul_lt_mul'' <;> linarith
  norm_num at hle
  linarith [pow_two (7 - x)]

/-- It is far away from its goal in both passes. -/
theorem keepsToPipes_iff_two : KeepsToPipes twoPipes [scanFrom 0 0, scanFrom 1 7] := by
  have haway : StaysAway twoPipes [scanFrom 0 0, scanFrom 1 7] := by
    refine ⟨fun h => absurd h (by decide), fun w hw => ?_⟩
    rcases List.mem_pair.mp hw with rfl | rfl
    · exact scanFrom_suits (by norm_num)
    · exact scanFrom_suits (by norm_num)
  exact (keepsToPipes_iff (Or.inr (List.Perm.refl _))).mpr haway

/-- **At its goal an ArtPot without a planner asks for a waypoint**, on pipe -1. -/
theorem request_at_goal : ¬ KeepsToPipes twoPipes [scanFrom 7 7] := by
  rintro ⟨s, hrun, -⟩
  have haway := (run_iff (Or.inr (List.Perm.refl _))).1.mp ⟨s, hrun⟩
  have hfar := haway.2 _ List.mem_cons_self
  unfold Suits at hfar
  rw [if_neg (by decide)] at hfar
  refine hfar _ rfl ?_
  show Real.sqrt ((7.0 - 7) ^ (((2 : Int) : ℝ)) + (7.0 - 7) ^ (((2 : Int) : ℝ))) ≤ (0.6 : ℝ)
  norm_num

end Pint
