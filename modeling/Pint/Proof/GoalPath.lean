import Pint.Proof.Maps
import Pint.Proof.NodeList

/-!
# The path of the planner

`goal_path` is the empty list of `newList` with nodes pushed in front of it. It is only ever
popped, and erased before a new path is pushed; so it keeps this form, and erasing it leaves
the empty list.

The form matters to `eraseList`, which pops until `pop` answers that there is no node. It stops at
the first cell without one, and in this form that is the last cell, so nothing is left behind.
-/

namespace Pint

open Prog

variable {R : Type} [Double R]

/-- Nodes in front of one empty cell. -/
inductive PathList : LList R → Prop where
  | empty (v : R) : PathList [⟨none, v⟩]
  | push {l : LList R} (n : Node R) (v : R) (hl : PathList l) : PathList (⟨some n, v⟩ :: l)

theorem PathList.newList : PathList (newList : LList R) := .empty _

theorem PathList.pop {l : LList R} (h : PathList l) :
    ∃ n l', pop l = .ok (n, l') ∧ PathList l' := by
  cases h with
  | empty v => exact ⟨none, Pint.newList, rfl, .newList⟩
  | push n v hl =>
    cases hl with
    | empty w => exact ⟨some n, [⟨none, w⟩], rfl, .empty w⟩
    | push n' w hl' => exact ⟨some n, _, rfl, .push n' w hl'⟩

theorem PathList.eraseList {l : LList R} (h : PathList l) :
    eraseList l = .ok Pint.newList := by
  induction h with
  | empty v => rfl
  | push n v hl ih =>
    cases hl with
    | empty w => rfl
    | push n' w hl' => exact ih

theorem PathList.extractPath {l : LList R} (hl : PathList l) :
    ∀ n : Node R, PathList (extractPath l n)
  | ⟨x, y, g, none⟩ => .push ⟨x, y, g, none⟩ 0.0 hl
  | ⟨x, y, g, some node⟩ =>
    have hpush : PathList (Pint.push l ⟨x, y, g, some node⟩) := .push _ 0.0 hl
    hpush.extractPath node

namespace AStar

/-- The planner's path is a path. -/
def HasPath (a : AStar R) : Prop := PathList a.goalPath

omit [Double R] in
theorem send_hasPath (index : Int) (msg : TypedPipe → Writes R) (a : AStar R) (h : HasPath a) :
    wp (send index msg) (fun _ a' => HasPath a') (fun _ => True) a := by
  unfold send
  rw [wp_bind, wp_get, wp_bind]
  exact wp_lift (fun pipe _ => h) fun _ _ => trivial

theorem sendWaypoints_hasPath {a : AStar R} (h : HasPath a) :
    wp sendWaypoints (fun _ a' => HasPath a') (fun _ => True) a := by
  obtain ⟨n, l, hpop, hl⟩ := h.pop
  unfold sendWaypoints
  rw [wp_bind, wp_modify, wp_bind, wp_get, wp_bind, wp_lift_ok hpop, wp_bind, wp_set]
  cases n with
  | none => exact send_hasPath _ _ _ hl
  | some current =>
    obtain ⟨n', l', hpop', hl'⟩ := hl.pop
    dsimp only
    rw [wp_bind, wp_lift_ok hpop', wp_bind, wp_modify]
    cases n' with
    | none => exact hl'
    | some next => exact send_hasPath _ _ _ hl'

theorem command_hasPath {a : AStar R} (h : HasPath a) :
    wp command (fun _ a' => HasPath a') (fun _ => True) a := by
  unfold command
  rw [wp_bind, wp_get, wp_bind]
  refine wp_lift (fun search _ => ?_) fun _ _ => trivial
  rw [wp_bind]
  refine wp_lift (fun found _ => ?_) fun _ _ => trivial
  match found with
  | none => trivial
  | some none => exact h
  | some (some goalNode) =>
    dsimp only
    have hpath : PathList (extractPath newList goalNode) := PathList.newList.extractPath goalNode
    rw [wp_bind, wp_lift_ok h.eraseList, wp_bind, wp_set, wp_ite]
    split
    · exact hpath
    · exact sendWaypoints_hasPath hpath

theorem onUpdate_hasPath (header : ReadResult) (obstacles : Int → ReadResult) {a : AStar R}
    (h : HasPath a) :
    wp (onUpdate header obstacles) (fun _ a' => HasPath a') (fun _ => True) a := by
  unfold onUpdate
  rw [wp_bind, wp_get, wp_bind]
  refine wp_lift (fun pipe _ => ?_) fun _ _ => trivial
  rw [wp_bind]
  refine wp_lift (fun received _ => ?_) fun _ _ => trivial
  rw [wp_bind, wp_set, wp_ite]
  split
  · rw [wp_bind, wp_modify, wp_bind]
    refine wp_lift (fun obstacleMap _ => ?_) fun _ _ => trivial
    rw [wp_bind, wp_modify, wp_bind, wp_get, wp_bind]
    apply wp.imp (send_hasPath _ _ _ (by exact h))
    intro _ b hb
    rw [wp_ite]
    split
    · exact command_hasPath hb
    · exact hb
  · exact h

theorem onWayReq_hasPath (readRet : Int) {a : AStar R} (h : HasPath a) :
    wp (onWayReq readRet) (fun _ a' => HasPath a') (fun _ => True) a := by
  unfold onWayReq
  rw [wp_ite]
  split
  · rw [wp_bind, wp_get]
    split
    · trivial
    · rw [wp_ite]
      split
      · exact send_hasPath _ _ _ h
      · exact sendWaypoints_hasPath h
  · exact h

theorem wake_hasPath {w : Wake} {a a' : AStar R} (h : HasPath a) (hw : wake w a = .ok a') :
    HasPath a' := by
  refine execute_spec (Q := fun _ b => HasPath b) (E := fun _ => True) ?_ hw
  unfold turn
  rw [wp_bind, wp_get, wp_ite]
  split
  · trivial
  · have hrequest : ∀ b : AStar R, HasPath b →
        wp (onRequest w.2) (fun _ b' => HasPath b') (fun _ => True) b := by
      intro b hb
      cases w.2 with
      | none => exact hb
      | some readRet => exact onWayReq_hasPath readRet hb
    cases hupdate : w.1 with
    | none => exact hrequest a h
    | some update =>
      dsimp only
      rw [wp_bind]
      exact (onUpdate_hasPath update.1 update.2 h).imp fun _ b hb => hrequest b hb

/-- In every state that a planner gets into, whatever it reads, its path is a path. -/
theorem hasPath_reached {pipes : CArray TypedPipe} {pose : PointI} {wakes : List Wake}
    {a : AStar R} (h : runAll wake wakes (start pipes pose) = .ok a) : HasPath a := by
  have hstart : HasPath (start pipes pose : AStar R) := PathList.newList
  exact runAll.invariant (fun _ _ _ ha hw => wake_hasPath ha hw) hstart h

end AStar

end Pint
