import Pint.Proof.Runs

/-!
# What a restart does to unread input

`restart_prep` takes the input of the restarter away, so that it does not go on while it is
cloned, and gives it to both replicas afterwards. It takes with one `read` for each pipe. What
that `read` leaves behind stays in the restarter's pipe, in front of what is given back, and
the clone never gets it. `restartPrep_backlogs` is the whole effect. Of an input pipe that held
`l`, and of which the `read` took the first `k` bytes,

* the restarter has `l.drop k ++ l.take k` to read: the two parts, the other way round;
* the restartee has `l.take k`, in a new pipe.

So whether the input is kept is a question about lists, and `turned_iff` answers it: a list that
is cut and turned is itself, and its first part is all of it, only where nothing was left
behind. `restartPrep_keeps_input` is that, with what makes a `read` take all there is
(`Voter.FitsOneRead`): the voter's buffer is as long as the input, and the system does not cut the
`read` short.

The state before the restart is any sound one, so this is about every restart of every run.
-/

namespace Pint

open Prog

/-- On every input pipe, both replicas have to read what the restarter had to read before. -/
def InputsKept (cfg : Config) (v v' : Voter) (e r : Nat) : Prop :=
  ∀ p, p < cfg.pipeCount → (v.extPipes p).fdIn ≠ 0 →
    v'.backlog r p = v.backlog r p ∧ v'.backlog e p = v.backlog r p

/-- One `read` takes all that replica `r` has not read of pipe `p`: the voter's buffer is large
enough, and the system does not cut the `read` short. -/
def Voter.FitsOneRead (v : Voter) (env : Env) (r p : Nat) : Prop :=
  (v.backlog r p).length ≤ maxVotePipeBuff ∧
    ¬ (1 ≤ env.readCount (v.stealTick r p) ∧
      env.readCount (v.stealTick r p) < (v.backlog r p).length)

/-- When a `read` takes everything. -/
theorem Env.taken_eq_length_iff (env : Env) (t n : Nat) (bytes : List Byte) :
    env.taken t n bytes = bytes.length ↔
      bytes.length ≤ n ∧ ¬ (1 ≤ env.readCount t ∧ env.readCount t < bytes.length) := by
  have hle := env.taken_le t n bytes
  constructor
  · intro h
    refine ⟨h ▸ hle.1, ?_⟩
    rintro ⟨hpos, hlt⟩
    have hmin : env.readCount t ≤ min n bytes.length := Nat.le_min.mpr ⟨by omega, Nat.le_of_lt hlt⟩
    unfold Env.taken at h
    rw [if_pos ⟨hpos, hmin⟩] at h
    exact absurd h (Nat.ne_of_lt hlt)
  · rintro ⟨hfit, hwhole⟩
    unfold Env.taken
    rw [Nat.min_eq_right hfit]
    split
    · rename_i hc
      by_contra hne
      exact hwhole ⟨hc.1, Nat.lt_of_le_of_ne hc.2 hne⟩
    · rfl

/-- A list cut in two and put together the other way round. -/
theorem turned_iff {α : Type} (l : List α) {k : Nat} (hk : k ≤ l.length) :
    (l.drop k ++ l.take k = l ∧ l.take k = l) ↔ k = l.length := by
  constructor
  · rintro ⟨-, h⟩
    have hlen := congrArg List.length h
    rw [List.length_take, Nat.min_eq_left hk] at hlen
    exact hlen
  · intro h
    rw [h, List.drop_length, List.take_length, List.nil_append]
    exact ⟨rfl, rfl⟩

section Backlog

variable {cfg : Config} {env : Env} {plan : Plan} {id : Nat → Nat → Nat} {v : Voter} {e r : Nat}

/-- **The input of both replicas after a restart.** `restart_prep` returns. On each input pipe
the clone has what one `read` took from the restarter's, and the restarter has the same, after
what the `read` did not take. -/
theorem restartPrep_backlogs (h : Sound cfg plan id v) (he : e < cfg.repCount)
    (hr : r < cfg.repCount) (hne : r ≠ e) :
    ∃ v', exec (restartPrep cfg env e r) v = .ok v' ∧
      ∀ p, p < cfg.pipeCount → (v.extPipes p).fdIn ≠ 0 →
        v'.backlog r p = (v.backlog r p).drop (v.stolen env r p)
          ++ (v.backlog r p).take (v.stolen env r p) ∧
        v'.backlog e p = (v.backlog r p).take (v.stolen env r p) := by
  obtain ⟨_, v', hrun, hs, hf⟩ :=
    (restartPrep_full h.wired h.lockstep he hr hne : wp (restartPrep cfg env e r) _ _ v).exists_run
  refine ⟨v', exec_of_run hrun, fun p hp hin => ?_⟩
  have hin' : v'.IsInput p := by
    unfold Voter.IsInput
    rw [hs.extPipes]
    exact hin
  have hbr := hs.wired.backlog_eq ⟨hr, hp⟩ hin'
  have hbe := hs.wired.backlog_eq ⟨he, hp⟩ hin'
  rw [refilled_of_ne hne] at hbr
  rw [refilled_self] at hbe
  exact ⟨hbr.trans (hf.restarter p hp hin), hbe.trans (hf.restartee p hp hin)⟩

/-- **When a restart keeps the unread input.** Both replicas have to read what the restarter
had to read before exactly when, on every input pipe, one `read` takes all of that. What is left
behind stays with the restarter alone, in front of what it is given back. -/
theorem restartPrep_keeps_input (h : Sound cfg plan id v) (he : e < cfg.repCount)
    (hr : r < cfg.repCount) (hne : r ≠ e) :
    ∃ v', exec (restartPrep cfg env e r) v = .ok v' ∧ (InputsKept cfg v v' e r ↔
      ∀ p, p < cfg.pipeCount → (v.extPipes p).fdIn ≠ 0 → v.FitsOneRead env r p) := by
  obtain ⟨v', hrun, hb⟩ : ∃ v', exec (restartPrep cfg env e r) v = .ok v' ∧ _ :=
    restartPrep_backlogs h he hr hne
  refine ⟨v', hrun, forall_congr' fun p => forall_congr' fun hp => forall_congr' fun hin => ?_⟩
  obtain ⟨hbr, hbe⟩ := hb p hp hin
  have hle := (env.taken_le (v.stealTick r p) maxVotePipeBuff (v.backlog r p)).2
  rw [hbr, hbe]
  exact (turned_iff _ hle).trans (env.taken_eq_length_iff _ _ _)

/-- The voter once `bytes` were written to a kernel pipe. -/
def Voter.delivered (v : Voter) (k : Nat) (bytes : List Byte) : Voter :=
  { v with kernel := v.kernel.deliver k bytes }

theorem delivered_extPipes (v : Voter) (k : Nat) (bytes : List Byte) :
    (v.delivered k bytes).extPipes = v.extPipes := rfl

/-- What was written to a replica's input pipe is behind what it had to read. -/
theorem delivered_backlog {i p k : Nat}
    (hl : v.kernel.lookup ((v.replicas i).repPipes p).fdIn = some (.readEnd k))
    (bytes : List Byte) : (v.delivered k bytes).backlog i p = v.kernel.unread k ++ bytes := by
  have hl' : (v.delivered k bytes).kernel.lookup
      (((v.delivered k bytes).replicas i).repPipes p).fdIn = some (.readEnd k) := hl
  unfold Voter.backlog
  rw [Kernel.waiting_readEnd hl']
  exact Function.update_self _ _ _

/-- `Filter` as it starts. -/
def filterAtStart : Voter := filterPipes.start (filterPipes.config .tmr 400 80) .steady

/-- The same, with these bytes unread by its first replica. -/
def unreadByFirst (bytes : List Byte) : Voter := filterAtStart.delivered 3 bytes

theorem unreadByFirst_sound (bytes : List Byte) :
    ∃ plan id, Sound (filterPipes.config .tmr 400 80) plan id (unreadByFirst bytes) := by
  obtain ⟨plan, id, h⟩ := (filterPipes.started : Started (filterPipes.config .tmr 400 80)
    .steady filterAtStart).fresh.sound
  exact ⟨plan, id, h.still (still_deliver _ 3 bytes)⟩

theorem unreadByFirst_backlog (bytes : List Byte) : (unreadByFirst bytes).backlog 0 0 = bytes := by
  have hlook : filterAtStart.kernel.lookup ((filterAtStart.replicas 0).repPipes 0).fdIn
      = some (.readEnd 3) := by decide +kernel
  have hnone : filterAtStart.kernel.unread 3 = [] := by decide +kernel
  unfold unreadByFirst
  rw [delivered_backlog hlook, hnone, List.nil_append]

/-- The first pipe of `Filter` is its only input. -/
theorem unreadByFirst_input (bytes : List Byte) {p : Nat} (hp : p < 3) :
    ((unreadByFirst bytes).extPipes p).fdIn ≠ 0 ↔ p = 0 := by
  have hstart : ∀ p, p < 3 → ((filterAtStart.extPipes p).fdIn ≠ 0 ↔ p = 0) := by decide +kernel
  unfold unreadByFirst
  rw [delivered_extPipes]
  exact hstart p hp

/-- The first replica of `Filter` has two bytes to read when the second is made anew. -/
theorem restartPrep_keeps_input_filter :
    ∃ v', exec (restartPrep (filterPipes.config .tmr 400 80) .steady 1 0) (unreadByFirst [7, 8])
        = .ok v' ∧
      InputsKept (filterPipes.config .tmr 400 80) (unreadByFirst [7, 8]) v' 1 0 := by
  obtain ⟨plan, id, h⟩ := unreadByFirst_sound [7, 8]
  obtain ⟨v', hrun, hiff⟩ : ∃ v',
      exec (restartPrep (filterPipes.config .tmr 400 80) .steady 1 0) (unreadByFirst [7, 8])
        = .ok v' ∧ _ :=
    restartPrep_keeps_input h (by decide) (by decide) (by decide)
  refine ⟨v', hrun, hiff.mpr fun p hp hin => ?_⟩
  rw [(unreadByFirst_input _ hp).mp hin]
  unfold Voter.FitsOneRead
  rw [unreadByFirst_backlog]
  exact ⟨by decide, fun hc => absurd hc.1 (by decide)⟩

/-- The first replica of `Filter` has one byte more to read than the voter takes. When the
second is made anew, that byte comes first in the one and is missing in the other. -/
theorem restart_turns_input :
    ∃ v', exec (restartPrep (filterPipes.config .tmr 400 80) .steady 1 0)
        (unreadByFirst (List.replicate 4096 0 ++ [1])) = .ok v' ∧
      v'.backlog 0 0 = [1] ++ List.replicate 4096 0 ∧ v'.backlog 1 0 = List.replicate 4096 0 ∧
      ¬ InputsKept (filterPipes.config .tmr 400 80)
        (unreadByFirst (List.replicate 4096 0 ++ [1])) v' 1 0 := by
  -- The 4096 bytes get a name, so that no step computes with them.
  obtain ⟨bytes, hbytes⟩ : ∃ bytes : List Byte, bytes = List.replicate 4096 0 := ⟨_, rfl⟩
  have hlen : bytes.length = 4096 := by
    rw [hbytes]
    exact List.length_replicate
  rw [← hbytes]
  obtain ⟨plan, id, h⟩ := unreadByFirst_sound (bytes ++ [1])
  obtain ⟨v', hrun, hb⟩ : ∃ v',
      exec (restartPrep (filterPipes.config .tmr 400 80) .steady 1 0)
        (unreadByFirst (bytes ++ [1])) = .ok v' ∧ _ :=
    restartPrep_backlogs h (by decide) (by decide) (by decide)
  have hstolen : (unreadByFirst (bytes ++ [1])).stolen .steady 0 0 = 4096 := by
    unfold Voter.stolen Env.taken
    rw [unreadByFirst_backlog, List.length_append, hlen]
    rfl
  have hp : 0 < (filterPipes.config .tmr 400 80).pipeCount := by decide
  have hin := (unreadByFirst_input (bytes ++ [1]) hp).mpr rfl
  obtain ⟨hbr, hbe⟩ := hb 0 hp hin
  rw [unreadByFirst_backlog, hstolen, List.take_left' hlen] at hbr hbe
  rw [List.drop_left' hlen] at hbr
  -- The clone is short of the byte that the one `read` left behind.
  refine ⟨v', hrun, hbr, hbe, fun hkept => ?_⟩
  have hclone := (hkept 0 hp hin).2
  rw [hbe, unreadByFirst_backlog] at hclone
  have hlonger := congrArg List.length hclone
  rw [List.length_append, hlen] at hlonger
  exact absurd hlonger (by decide)

end Backlog

end Pint
