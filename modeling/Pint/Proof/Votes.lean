import Pint.Lib.Voting
import Pint.Proof.VoteBuff
import Pint.Proof.Refill
import Pint.Proof.Stealing

/-!
# What a vote does

`Voter.queue` is what the voter holds of one replica on one pipe. `InStep` says that the
replicas' buffers on a pipe are at the same position, which is what makes a comparison of
two buffers a comparison of two queues.

`Sent` says what `sendPipe` does: the front of one queue, as long as the shortest, goes out
and every queue loses as much. Only the pipe voted on is concerned. The loop of `sendPipe` goes
over the replicas and writes when it comes to the one that won, so half way through some queues
are shorter already: `Sending` says which, and that the bytes are those from before the loop.
-/

namespace Pint

open Prog Voting

/-- What the voter has accepted from replica `i` on pipe `p` and not forwarded. -/
def Voter.queue (v : Voter) (i p : Nat) : List Byte := (v.vot i p).content

/-- The buffers of the replicas in `A` on pipe `p` are at one position. -/
structure InStep (A : Nat → Prop) (v : Voter) (p : Nat) : Prop where
  wf : ∀ i, A i → (v.vot i p).Wf
  index : ∀ i j, A i → A j → (v.vot i p).buffIndex = (v.vot j p).buffIndex

/-- Nothing queued is nothing to be out of step with. -/
theorem InStep.of_zero {A : Nat → Prop} {v : Voter} {p : Nat}
    (h : ∀ i, A i → (v.vot i p).buffCount = 0 ∧ (v.vot i p).buffIndex = 0) : InStep A v p where
  wf i hi := .of_zero (h i hi)
  index i j hi hj := by rw [(h i hi).2, (h j hj).2]

/-- All replicas are in step on all pipes, and nothing is ever queued on an input pipe. -/
structure Lockstep (cfg : Config) (v : Voter) : Prop where
  inStep : ∀ p, p < cfg.pipeCount → InStep (· < cfg.repCount) v p
  input : ∀ i p, cfg.Slot i p → v.IsInput p →
    (v.vot i p).buffCount = 0 ∧ (v.vot i p).buffIndex = 0

/-- How many bytes all replicas have delivered on pipe `p`. -/
def Voter.ready (v : Voter) (cfg : Config) (p : Nat) : Nat :=
  Voting.ready maxVotePipeBuff cfg.repCount fun i => v.queue i p

section Queues

variable {cfg : Config} {A : Nat → Prop} {v v' : Voter} {p : Nat}

theorem Still.queue (h : Still v v') (i p : Nat) : v'.queue i p = v.queue i p := by
  unfold Voter.queue
  rw [h.vot]

theorem InStep.congr (h : InStep A v p) (hvot : ∀ i, A i → v'.vot i p = v.vot i p) :
    InStep A v' p where
  wf i hi := by
    rw [hvot i hi]
    exact h.wf i hi
  index i j hi hj := by
    rw [hvot i hi, hvot j hj]
    exact h.index i j hi hj

theorem Lockstep.still (hl : Lockstep cfg v) (h : Still v v') : Lockstep cfg v' where
  inStep p hp := (hl.inStep p hp).congr fun i _ => h.vot i p
  input i p hs hin := by
    rw [h.vot]
    exact hl.input i p hs ((h.isInput p).mp hin)

/-- The same replicas and external pipes, whatever else changed. -/
theorem Lockstep.of_same (hl : Lockstep cfg v) (he : v'.extPipes = v.extPipes)
    (hr : v'.replicas = v.replicas) : Lockstep cfg v' := by
  have hvot : ∀ i p, v'.vot i p = v.vot i p := by
    intro i p
    unfold Voter.vot
    rw [hr]
  refine ⟨fun p hp => (hl.inStep p hp).congr fun i _ => hvot i p, ?_⟩
  intro i p hs hin
  unfold Voter.IsInput at hin
  rw [he] at hin
  rw [hvot]
  exact hl.input i p hs hin

/-- `bytesReady` is the length of the shortest queue. -/
theorem bytesReady_eq (h : InStep (· < cfg.repCount) v p) :
    bytesReady v.replicas cfg.repCount p = (v.ready cfg p : Int) := by
  have hstep : ∀ n, n ≤ cfg.repCount → bytesReady v.replicas n p
      = (Voting.ready maxVotePipeBuff n fun i => v.queue i p : Nat) := by
    intro n
    induction n with
    | zero => exact fun _ => rfl
    | succ n ih =>
      intro hn
      have hsucc : bytesReady v.replicas (n + 1) p
          = if (v.vot n p).buffCount < bytesReady v.replicas n p then (v.vot n p).buffCount
            else bytesReady v.replicas n p := by
        unfold bytesReady
        rw [List.range_succ, List.foldl_append]
        rfl
      have hcount : (v.vot n p).buffCount = ((v.queue n p).length : Int) :=
        (h.wf n hn).count_eq
      rw [hsucc, hcount, ih (Nat.le_of_succ_le hn), ready_succ]
      split <;> omega
  exact hstep _ (Nat.le_refl _)

theorem ready_le_queue {i : Nat} (hi : i < cfg.repCount) :
    v.ready cfg p ≤ (v.queue i p).length :=
  ready_le (q := fun i => v.queue i p) hi

end Queues

/-! ## `sendPipe` -/

/-- `sendPipe p r` forwards from replica `r` what all replicas have. -/
structure Sent (cfg : Config) (p r : Nat) (v v' : Voter) : Prop where
  kept : Kept v v'
  watchdog : v'.watchdog = v.watchdog
  extPipes : v'.extPipes = v.extPipes
  timerStarted : v'.timerStarted =
    if p = cfg.timerStopIndex ∧ v.ready cfg p ≠ 0 then false else v.timerStarted
  inStep : InStep (· < cfg.repCount) v' p
  queue : ∀ i, i < cfg.repCount → v'.queue i p = (v.queue i p).drop (v.ready cfg p)
  vot_ne : ∀ i q, q ≠ p → v'.vot i q = v.vot i q
  log : v'.log = { v.log with
    sent := Function.update v.log.sent p
      (v.log.sent p ++ (v.queue r p).take (v.ready cfg p)) }
  wrote : OnlyWrote (· = (v.extPipes p).fdOut) v v'

section SendPipe

variable {cfg : Config} {v v' : Voter} {p r : Nat} {E : Stop → Prop}

theorem Sent.outside_of (h : Sent cfg p r v v') (ht : v.timerStarted = false) :
    v'.timerStarted = false := by
  rw [h.timerStarted]
  split
  · rfl
  · exact ht

@[simp] theorem say_nil (v : Voter) : v.say [] = v := by
  unfold Voter.say
  rw [List.append_nil]

/-- Replacing a vote pipe by one with the same descriptors. -/
theorem kept_setVot {i : Nat} {pipe : VotePipe} (hin : pipe.fdIn = (v.vot i p).fdIn)
    (hout : pipe.fdOut = (v.vot i p).fdOut) : Kept v (v.setVot i p pipe) := by
  have hrep : ∀ j, (v.setVot i p pipe).replicas j
      = { v.replicas j with votPipes := ((v.setVot i p pipe).replicas j).votPipes } := by
    intro j
    by_cases hj : j = i
    · subst hj
      simp [Voter.setVot, Voter.setReplica, Replica.setVot]
    · rw [setVot_replicas_ne hj]
  exact
    { Kept.refl v with
      pid := fun j => by rw [hrep j]
      pipeCount := fun j => by rw [hrep j]
      repPipes := fun j => by rw [hrep j]
      inCopy := fun j => by rw [hrep j]
      fd := fun j q => by
        by_cases hj : j = i
        · subst hj
          rw [setVot_vot]
          split
          · rename_i hq
            rw [hq]
            exact ⟨hin, hout⟩
          · exact ⟨rfl, rfl⟩
        · unfold Voter.vot
          rw [setVot_replicas_ne hj]
          exact ⟨rfl, rfl⟩ }

theorem setVot_vot_eq {i : Nat} {pipe : VotePipe} (j q : Nat) :
    (v.setVot i p pipe).vot j q = if j = i ∧ q = p then pipe else v.vot j q := by
  by_cases hj : j = i
  · subst hj
    rw [setVot_vot]
    by_cases hq : q = p
    · rw [if_pos hq, if_pos ⟨rfl, hq⟩]
    · rw [if_neg hq, if_neg fun h => hq h.2]
  · unfold Voter.vot
    rw [setVot_replicas_ne hj, if_neg fun h => hj h.1]

/-- After `n` turns of the loop of `sendPipe`, which started at `v`. -/
structure Sending (p r k : Nat) (v : Voter) (n : Nat) (v' : Voter) : Prop where
  kept : Kept v v'
  watchdog : v'.watchdog = v.watchdog
  extPipes : v'.extPipes = v.extPipes
  timerStarted : v'.timerStarted = v.timerStarted
  vot : ∀ i q, v'.vot i q = if i < n ∧ q = p then fakeToPipe (v.vot i p) k else v.vot i q
  log : v'.log = { v.log with
    sent := if r < n then
        Function.update v.log.sent p (v.log.sent p ++ (v.queue r p).take k)
      else v.log.sent }
  wrote : OnlyWrote (· = (v.extPipes p).fdOut) v v'

/-- The pipes after a turn, however it consumes. -/
theorem Sending.vot_succ {k n : Nat} {u : Voter} (h : Sending p r k v n v')
    (hu : u.replicas = v'.replicas) (i q : Nat) :
    (u.setVot n p (fakeToPipe (v.vot n p) k)).vot i q
      = if i < n + 1 ∧ q = p then fakeToPipe (v.vot i p) k else v.vot i q := by
  have huv : u.vot i q = v'.vot i q := by
    unfold Voter.vot
    rw [hu]
  rw [setVot_vot_eq, huv, h.vot]
  by_cases hin : i = n ∧ q = p
  · rw [if_pos hin, if_pos ⟨by omega, hin.2⟩, hin.1]
  · rw [if_neg hin]
    by_cases hlt : i < n ∧ q = p
    · rw [if_pos hlt, if_pos ⟨by omega, hlt.2⟩]
    · rw [if_neg hlt, if_neg (by omega)]

theorem sendTurn_spec {k n : Nat} (hwf : (v.vot n p).Wf) (hk : k ≤ (v.queue n p).length)
    (h : Sending p r k v n v') :
    wp (sendTurn p r k n) (fun _ => Sending p r k v (n + 1)) E v' := by
  have hvn : v'.vot n p = v.vot n p := by
    rw [h.vot, if_neg (by omega)]
  have hkept : ∀ u : Voter, u.vot n p = v'.vot n p → Kept u (u.setVot n p
      (fakeToPipe (v.vot n p) k)) := fun u hu =>
    kept_setVot (by rw [hu, hvn]; rfl) (by rw [hu, hvn]; rfl)
  unfold sendTurn
  rw [wp_bind, wp_get, wp_ite]
  split
  · rename_i hrn
    rw [hvn, wp_bind, wp_lift_ok (buffToPipe_eq hwf hk)]
    dsimp only
    rw [wp_bind, wp_say, say_nil, if_pos rfl, wp_bind, wp_discard]
    refine (write_spec _ _).imp fun _ u hu => ?_
    obtain ⟨ho, unread, rfl⟩ := hu
    rw [wp_modify]
    refine
      { kept := h.kept.trans ((still_unread v' unread).toKept.trans
          { hkept { v' with kernel := { v'.kernel with unread } } rfl with })
        watchdog := h.watchdog
        extPipes := h.extPipes
        timerStarted := h.timerStarted
        vot := h.vot_succ (u := { v' with kernel := { v'.kernel with unread } }) rfl
        log := ?_
        wrote := ?_ }
    · rw [if_pos (by omega), hrn]
      show ({ v'.log with
        sent := Function.update v'.log.sent p
          (v'.log.sent p ++ (v.vot n p).content.take k) } : Log) = _
      rw [h.log, if_neg (by omega)]
      rfl
    · rw [h.extPipes] at ho
      exact h.wrote.trans h.kept fun id hid => ho id hid
  · rename_i hrn
    rw [wp_modify, hvn]
    refine
      { kept := h.kept.trans (hkept v' rfl)
        watchdog := h.watchdog
        extPipes := h.extPipes
        timerStarted := h.timerStarted
        vot := h.vot_succ rfl
        log := ?_
        wrote := h.wrote }
    show v'.log = _
    rw [h.log]
    by_cases hlt : r < n
    · rw [if_pos hlt, if_pos (by omega)]
    · rw [if_neg hlt, if_neg (by omega)]

/-- The loop of `sendPipe`, whatever was done to the timer before it. -/
theorem sendTurns_spec (h : InStep (· < cfg.repCount) v p) (hr : r < cfg.repCount) {b : Bool}
    (hb : b = if p = cfg.timerStopIndex ∧ v.ready cfg p ≠ 0 then false else v.timerStarted) :
    wp (loop cfg.repCount (sendTurn p r (v.ready cfg p : Int)))
      (fun _ v' => Sent cfg p r v v') E { v with timerStarted := b } := by
  obtain ⟨k, hk⟩ : ∃ k, k = v.ready cfg p := ⟨_, rfl⟩
  have hlen : ∀ i, i < cfg.repCount → k ≤ (v.vot i p).content.length := by
    intro i hi
    rw [hk]
    exact ready_le_queue hi
  rw [← hk]
  refine (wp_loop (Sending p r k { v with timerStarted := b })
    ⟨Kept.refl _, rfl, rfl, rfl, fun i q => by rw [if_neg (by omega)],
      by rw [if_neg (by omega)], fun _ _ => rfl⟩
    fun n u hn hu => sendTurn_spec (h.wf n hn) (hlen n hn) hu).imp fun _ v' hs => ?_
  -- Once the loop is through, every queue has lost the same number, whichever way.
  have hfake : ∀ i, i < cfg.repCount → v'.vot i p = fakeToPipe (v.vot i p) k := by
    intro i hi
    rw [hs.vot, if_pos ⟨hi, rfl⟩]
    rfl
  refine
    { kept := { hs.kept with }
      watchdog := hs.watchdog
      extPipes := hs.extPipes
      timerStarted := hs.timerStarted.trans hb
      inStep := ⟨fun i hi => ?_, fun i j hi hj => ?_⟩
      queue := fun i hi => ?_
      vot_ne := fun i q hq => ?_
      log := ?_
      wrote := hs.wrote }
  · rw [hfake i hi]
    exact fakeToPipe_wf (h.wf i hi) (hlen i hi)
  · rw [hfake i hi, hfake j hj, fakeToPipe_index, fakeToPipe_index, h.index i j hi hj]
  · unfold Voter.queue
    rw [hfake i hi, fakeToPipe_content (h.wf i hi) (hlen i hi), hk]
  · rw [hs.vot, if_neg fun hc => hq hc.2]
    rfl
  · rw [hs.log, if_pos hr, hk]
    rfl

/-- **`sendPipe` forwards the front of one queue and takes as much from all.** -/
theorem sendPipe_spec (h : InStep (· < cfg.repCount) v p) (hr : r < cfg.repCount) :
    wp (sendPipe cfg p r) (fun _ v' => Sent cfg p r v v') E v := by
  unfold sendPipe
  rw [wp_bind, wp_get, bytesReady_eq h]
  dsimp only
  rw [wp_ite]
  split
  · rename_i h0
    have hk0 : v.ready cfg p = 0 := by omega
    rw [wp_pure]
    refine
      { kept := Kept.refl v
        watchdog := rfl
        extPipes := rfl
        timerStarted := by rw [if_neg (by omega)]
        inStep := h
        queue := fun i _ => by rw [hk0, List.drop_zero]
        vot_ne := fun _ _ _ => rfl
        log := by
          rw [hk0, List.take_zero, List.append_nil, Function.update_eq_self]
        wrote := fun _ _ => rfl }
  · rename_i h0
    have hk0 : v.ready cfg p ≠ 0 := by omega
    rw [wp_ite]
    split
    · rename_i hp
      rw [wp_bind, wp_modify]
      exact sendTurns_spec h hr (if_pos ⟨hp, hk0⟩).symm
    · rename_i hp
      exact sendTurns_spec h hr (if_neg fun hc => hp hc.1).symm

end SendPipe

end Pint
