import Pint.Proof.Steps

/-!
# Runs

`Performed` lists what one action can do to a sound voter; it is the step lemma of every run
argument about calls in any order, and `perform_spec` is its proof. `replicas_in_lockstep`
is the first of those arguments: whatever is read, restarted and delivered, the buffers of
all replicas stay at one position of one stream.

The books are in the log, and not in the program. For each replica and pipe it has the stream
that was accepted, where a restarted replica takes over the stream of its restarter; and for each
pipe what was forwarded. `Streams` says that a stream is as many bytes as were forwarded, and
then the buffer. A read appends to the stream and to the buffer. A vote moves as many bytes from
all buffers to the outside, because `sendPipe` skips them in the others. A restart copies both.

The bytes that were forwarded need not be those of the stream, only as many: of the replica that
lost a vote others were sent. Who may be wrong, and what comes out then, is the subject of
`Proof.Masking`.
-/

namespace Pint

open Prog Voting

/-! ## One action -/

section Actions

variable {cfg : Config} {env : Env} {plan : Plan} {id : Nat → Nat → Nat} {v v' : Voter}

theorem exec_spec {x : M Unit} {Q : Voter → Prop} {E : Stop → Prop}
    (h : wp x (fun _ => Q) E v) :
    (∀ v', exec x v = .ok v' → Q v') ∧ ∀ stop, exec x v = .error stop → E stop := by
  unfold exec wp at *
  cases hx : x.run v with
  | ok r =>
    rw [hx] at h
    exact ⟨fun v' hv' => Except.ok.inj hv' ▸ h, fun stop hs => absurd hs (by simp)⟩
  | error stop =>
    rw [hx] at h
    exact ⟨fun v' hv' => absurd hv' (by simp), fun stop' hs => Except.error.inj hs ▸ h⟩

/-- What an action does. -/
inductive Performed (cfg : Config) (env : Env) (plan : Plan) (id : Nat → Nat → Nat)
    (v v' : Voter) : Action → Prop where
  | deliver {k : Nat} {bytes : List Byte}
    (hv : v' = { v with kernel := v.kernel.deliver k bytes }) :
    Performed cfg env plan id v v' (.deliver k bytes)
  | nothing {r p : Nat} (hv : v' = v) : Performed cfg env plan id v v' (.processFromRep r p)
  | processed {r p : Nat} (hs : cfg.Slot r p) (hout : ¬ v.IsInput p)
    (hp : Processed cfg env plan id r p v v') :
    Performed cfg env plan id v v' (.processFromRep r p)
  | handled (h : Handled cfg env plan id v v') : Performed cfg env plan id v v' .watchdog

/-- **The step lemma for actions.** The only way to stop is to read an empty pipe. -/
theorem perform_spec (h : Sound cfg plan id v) (hmode : cfg.Replicated) (a : Action) :
    (∀ v', perform cfg env a v = .ok v' → Performed cfg env plan id v v' a) ∧
      ∀ stop, perform cfg env a v = .error stop → stop = .blocked := by
  cases a with
  | deliver k bytes =>
    exact ⟨fun v' hv' => .deliver (Except.ok.inj hv').symm,
      fun stop hs => absurd hs (by simp [perform])⟩
  | processFromRep r p =>
    obtain ⟨hok, herr⟩ := exec_spec
      (tryProcessFromRep_spec h : wp (tryProcessFromRep cfg env r p) _ _ v)
    refine ⟨fun v' hv' => ?_, herr⟩
    rcases hok v' hv' with hv | ⟨hs, hout, hp⟩
    · exact .nothing hv
    · exact .processed hs hout hp
  | watchdog =>
    obtain ⟨hok, herr⟩ := exec_spec
      (voterRestartHandler_spec h hmode : wp (voterRestartHandler cfg env) _ _ v)
    exact ⟨fun v' hv' => .handled (hok v' hv'), fun stop hs => (herr stop hs).elim⟩

theorem still_deliver (v : Voter) (k : Nat) (bytes : List Byte) :
    Still v { v with kernel := v.kernel.deliver k bytes } := still_unread v _

theorem Performed.sound {a : Action} (h : Sound cfg plan id v)
    (hp : Performed cfg env plan id v v' a) : ∃ id', Sound cfg plan id' v' := by
  cases hp with
  | deliver hv =>
    rw [hv]
    exact ⟨id, h.still (still_deliver v _ _)⟩
  | nothing hv =>
    rw [hv]
    exact ⟨id, h⟩
  | processed hs hout hp => exact h.processed hs hout hp
  | handled hh => exact hh.sound

/-- All but the watchdog. -/
theorem Performed.grown {a : Action} (hp : Performed cfg env plan id v v' a)
    (ha : a ≠ .watchdog) : Grown v v' := by
  cases hp with
  | deliver hv => exact hv ▸ (still_deliver v _ _).grown
  | nothing hv => exact hv ▸ (Still.refl v).grown
  | processed _ _ hp => exact hp.grown
  | handled _ => exact absurd rfl ha

theorem Fresh.sound (h : Fresh cfg v) : ∃ plan id, Sound cfg plan id v := by
  obtain ⟨plan, id, hw⟩ := h.wired
  exact ⟨plan, id, hw, h.noVotes.lockstep⟩

end Actions

/-! ## Streams -/

section Streams

variable {cfg : Config} {env : Env} {plan : Plan} {id : Nat → Nat → Nat} {v v' : Voter}

/-- What was accepted from a replica is what was forwarded, by position, and its queue. -/
def Streams (cfg : Config) (v : Voter) : Prop :=
  ∀ i p, cfg.Slot i p → ¬ v.IsInput p →
    (v.log.sent p).length ≤ (v.log.stream i p).length ∧
      (v.log.stream i p).drop (v.log.sent p).length = v.queue i p

/-- No message says that the buffers are out of step. -/
def NoAlarm (v : Voter) : Prop := ∀ m : Message, m.alarm = true → m ∉ v.log.said

theorem Streams.still (h : Streams cfg v) (hs : Still v v') : Streams cfg v' := by
  intro i p hip hout
  rw [hs.sent, hs.stream, hs.queue]
  exact h i p hip fun hin => hout ((hs.isInput p).mpr hin)

theorem NoAlarm.still (h : NoAlarm v) (hs : Still v v') : NoAlarm v' :=
  fun m hm hmem => h m hm (hs.alarms m hm hmem)

theorem Streams.accepted {r p : Nat} {bytes : List Byte} (h : Streams cfg v)
    (ha : Accepted cfg id r p bytes v v') : Streams cfg v' := by
  intro i q hiq hout
  obtain ⟨hle, hdrop⟩ := h i q hiq fun hin => hout ((ha.kept.isInput q).mpr hin)
  have hsent : v'.log.sent = v.log.sent := by rw [ha.log]; rfl
  rw [hsent, ha.stream]
  by_cases hiq' : i = r ∧ q = p
  · obtain ⟨rfl, rfl⟩ := hiq'
    rw [if_pos ⟨rfl, rfl⟩, List.length_append, List.drop_append_of_le_length hle, hdrop,
      ha.queue]
    exact ⟨Nat.le_add_right_of_le hle, rfl⟩
  · have hqueue : v'.queue i q = v.queue i q := by
      unfold Voter.queue
      rw [ha.vot_ne i q hiq']
    rw [if_neg hiq', hqueue]
    exact ⟨hle, hdrop⟩

/-- Forwarding `k` bytes of a queue at least as long, and taking as much from this one. -/
theorem streams_pass {stream sent queue other : List Byte} {k : Nat}
    (hle : sent.length ≤ stream.length) (hdrop : stream.drop sent.length = queue)
    (hk : k ≤ queue.length) (hk' : k ≤ other.length) :
    (sent ++ other.take k).length ≤ stream.length ∧
      stream.drop (sent ++ other.take k).length = queue.drop k := by
  have hlen : (sent ++ other.take k).length = sent.length + k := by
    rw [List.length_append, List.length_take, Nat.min_eq_left hk']
  have hq : queue.length = stream.length - sent.length := by rw [← hdrop, List.length_drop]
  rw [hlen, ← hdrop, List.drop_drop]
  exact ⟨by omega, rfl⟩

theorem Streams.sent {p r : Nat} (h : Streams cfg v) (hr : r < cfg.repCount)
    (hs : Sent cfg p r v v') : Streams cfg v' := by
  intro i q hiq hout
  obtain ⟨hle, hdrop⟩ := h i q hiq fun hin => hout ((hs.kept.isInput q).mpr hin)
  have hstream : v'.log.stream = v.log.stream := by rw [hs.log]
  have hsent : v'.log.sent = Function.update v.log.sent p
      (v.log.sent p ++ (v.queue r p).take (v.ready cfg p)) := by rw [hs.log]
  rw [hstream, hsent]
  by_cases hq : q = p
  · subst hq
    rw [Function.update_self, hs.queue i hiq.1]
    exact streams_pass hle hdrop (ready_le_queue hiq.1) (ready_le_queue hr)
  · have hqueue : v'.queue i q = v.queue i q := by
      unfold Voter.queue
      rw [hs.vot_ne i q hq]
    rw [Function.update_of_ne hq, hqueue]
    exact ⟨hle, hdrop⟩

/-- A restart: the restarted replica takes over stream and queue of its restarter. -/
theorem Streams.restarted {e r : Nat} (h : Streams cfg v) (hr : r < cfg.repCount)
    (hne : r ≠ e) (hs : Restarted cfg plan id e r v v') : Streams cfg v' := by
  intro i p hip hout
  have hin : v'.IsInput p ↔ v.IsInput p := by
    unfold Voter.IsInput
    rw [hs.extPipes]
  have hout' : ¬ v.IsInput p := fun hc => hout (hin.mpr hc)
  rw [hs.stream, hs.sent p hip.2 hout', hs.queue i p hip hout']
  have hk : ∀ x, x < cfg.repCount → v.handedReady cfg e r p ≤ (v.handed e r p x).length :=
    fun x hx => ready_le hx
  have hkr := hk r hr
  rw [handed_of_ne hne] at hkr
  by_cases hi : i = e
  · subst hi
    obtain ⟨hle, hdrop⟩ := h r p ⟨hr, hip.2⟩ hout'
    rw [Function.update_self, handed_self]
    exact streams_pass hle hdrop hkr hkr
  · obtain ⟨hle, hdrop⟩ := h i p hip hout'
    have hki := hk i hip.1
    rw [Function.update_of_ne hi]
    rw [handed_of_ne hi] at hki ⊢
    exact streams_pass hle hdrop hki hkr

/-- Everything about a voter that a run keeps, seen from the streams. -/
structure InStream (cfg : Config) (plan : Plan) (v : Voter) : Prop where
  sound : ∃ id, Sound cfg plan id v
  streams : Streams cfg v
  noAlarm : NoAlarm v

theorem InStream.sent {p r : Nat} (h : InStream cfg plan v) (hp : p < cfg.pipeCount)
    (hout : ¬ v.IsInput p) (hr : r < cfg.repCount) (hs : Sent cfg p r v v') :
    InStream cfg plan v' := by
  obtain ⟨id, hsound⟩ := h.sound
  refine ⟨⟨id, hsound.sent hp hout hs⟩, h.streams.sent hr hs, fun m hm hmem => ?_⟩
  rw [hs.log] at hmem
  exact h.noAlarm m hm hmem

theorem InStream.still (h : InStream cfg plan v) (hs : Still v v') : InStream cfg plan v' := by
  obtain ⟨id, hsound⟩ := h.sound
  exact ⟨⟨id, hsound.still hs⟩, h.streams.still hs, h.noAlarm.still hs⟩

theorem InStream.restarted {e r : Nat} (h : InStream cfg plan v) (hr : r < cfg.repCount)
    (hne : r ≠ e) (hs : Restarted cfg plan id e r v v') : InStream cfg plan v' :=
  ⟨⟨_, hs.wired, hs.lockstep⟩, h.streams.restarted hr hne hs,
    fun m hm hmem => h.noAlarm m hm (hs.alarms m hm hmem)⟩

theorem InStream.note (h : InStream cfg plan v) (c : Call) : InStream cfg plan (v.note c) := by
  obtain ⟨id, hsound⟩ := h.sound
  exact ⟨⟨id, hsound.note c⟩, h.streams, h.noAlarm⟩

/-- The winner of a poll is one of the replicas, and not the loser. -/
theorem verdict_lt (hn : cfg.repCount = 3) {p : Nat} :
    (∀ r, v.verdict cfg p = .unanimous r → r < cfg.repCount) ∧
      ∀ e r, v.verdict cfg p = .outvoted e r → r < cfg.repCount ∧ r ≠ e := by
  unfold Voter.verdict
  rw [hn]
  constructor
  · intro r hv
    exact (verdict_unanimous hv).1
  · intro e r hv
    obtain ⟨h1, -, h3, -⟩ := verdict_outvoted hv
    exact ⟨h1, fun hc => h3 hc.symm⟩

theorem InStream.voted {p : Nat} (h : InStream cfg plan v) (hp : p < cfg.pipeCount)
    (hout : ¬ v.IsInput p) (hn : 0 < cfg.repCount) (hv : Voted cfg plan id p v v') :
    InStream cfg plan v' := by
  cases hv with
  | nothing _ hv => exact hv ▸ h
  | alone _ hs => exact h.sent hp hout hn hs
  | pair _ w hw hs =>
    have hstill : Still v w := by
      rcases hw with rfl | rfl
      · exact Still.refl _
      · exact still_say v (by simp [Message.alarm])
    exact (h.still hstill).sent hp (fun hc => hout ((hstill.isInput p).mp hc)) hn hs
  | three hmode _ hd =>
    have hthree : cfg.repCount = 3 := by rw [cfg.repCount_eq, hmode]; rfl
    obtain ⟨hu, ho⟩ := verdict_lt (v := v) hthree (p := p)
    generalize v.verdict cfg p = verdict at hd hu ho
    cases hd with
    | noTwo hv =>
      rw [hv]
      exact h.still (still_say v (by simp [Message.alarm]))
    | unanimous hs => exact h.sent hp hout (hu _ rfl) hs
    | outvoted hr => exact h.restarted (ho _ _ rfl).1 (ho _ _ rfl).2 hr

/-- **One action keeps the streams.** -/
theorem InStream.performed {a : Action} (h : InStream cfg plan v) (hmode : cfg.Replicated)
    (hp : Performed cfg env plan id v v' a) : InStream cfg plan v' := by
  cases hp with
  | deliver hv =>
    rw [hv]
    exact h.still (still_deliver v _ _)
  | nothing hv => exact hv ▸ h
  | processed hs hout hp =>
    cases hp with
    | refused _ hstill _ => exact h.still hstill
    | voted _ w hw hv =>
      obtain ⟨id', hsound⟩ := h.sound
      have hin : InStream cfg plan w :=
        ⟨⟨id', hsound.wired.kept hw.kept, hw.lockstep⟩, h.streams.accepted hw,
          fun m hm hmem => h.noAlarm m hm (hw.alarms m hm hmem)⟩
      exact hin.voted hs.2 (fun hc => hout ((hw.kept.isInput _).mp hc))
        (Nat.zero_lt_of_lt hs.1) hv
  | handled hh =>
    obtain ⟨w, hr, rfl⟩ := hh.state
    obtain ⟨hlt, hne⟩ := restarter_ne hmode (v.restartee cfg)
    have hw := (h.note (.picked (v.restartee cfg) (cfg.restarter (v.restartee cfg)))).restarted
      hlt hne hr
    exact (hw.still (still_tick w)).note _

theorem Fresh.inStream (h : Fresh cfg v) : ∃ plan, InStream cfg plan v := by
  obtain ⟨plan, id, hs⟩ := h.sound
  refine ⟨plan, ⟨id, hs⟩, fun i p _ _ => ?_, h.alarms⟩
  rw [h.noVotes.queue, h.log]
  exact ⟨Nat.le_refl _, rfl⟩

/-- The run lemma. -/
theorem InStream.run {ms : List Action} (h : InStream cfg plan v) (hmode : cfg.Replicated)
    (hr : runAll (perform cfg env) ms v = .ok v') : InStream cfg plan v' := by
  refine runAll.invariant (I := InStream cfg plan) (fun a u u' hu hstep => ?_) h hr
  obtain ⟨id, hsound⟩ := hu.sound
  exact hu.performed hmode ((perform_spec hsound hmode a).1 u' hstep)

/-- **Replica buffers stay in stream lockstep.** After any reads, restarts and deliveries,
the buffers of all replicas on an output pipe are at one index with counters in range, and
what was accepted from a replica is as many bytes as were forwarded, the same number for
all, followed by its buffer. No comparison ever found two indexes to differ, and no write
was refused. -/
theorem replicas_in_lockstep {v₀ : Voter} {ms : List Action} (hmode : cfg.Replicated)
    (hstart : Started cfg env v₀) (hrun : runAll (perform cfg env) ms v₀ = .ok v) :
    (∀ p, p < cfg.pipeCount → (v.extPipes p).fdIn = 0 →
      (∀ i j, i < cfg.repCount → j < cfg.repCount →
        (v.vot i p).buffIndex = (v.vot j p).buffIndex) ∧
      (∀ i, i < cfg.repCount →
        0 ≤ (v.vot i p).buffCount ∧ (v.vot i p).buffCount < maxVotePipeBuff) ∧
      ∀ i, i < cfg.repCount → (v.log.sent p).length ≤ (v.log.stream i p).length ∧
        v.log.stream i p
          = (v.log.stream i p).take (v.log.sent p).length ++ (v.vot i p).content) ∧
    .indexMismatch ∉ v.log.said ∧ .biggerWrite ∉ v.log.said := by
  obtain ⟨plan, h₀⟩ := hstart.fresh.inStream
  have h := h₀.run hmode hrun
  obtain ⟨id, hsound⟩ := h.sound
  refine ⟨fun p hp hout => ?_, h.noAlarm _ rfl, h.noAlarm _ rfl⟩
  have hstep := hsound.lockstep.inStep p hp
  refine ⟨fun i j hi hj => hstep.index i j hi hj,
    fun i hi => ⟨(hstep.wf i hi).count_nonneg, (hstep.wf i hi).count_lt⟩, fun i hi => ?_⟩
  obtain ⟨hle, hdrop⟩ := h.streams i p ⟨hi, hp⟩ (not_not.mpr hout)
  refine ⟨hle, ?_⟩
  have hq : (v.vot i p).content = (v.log.stream i p).drop (v.log.sent p).length := hdrop.symm
  rw [hq, List.take_append_drop]

/-- Three replicas of `Filter`; the last delivers other bytes than the first two, and is
restarted. -/
theorem replicas_in_lockstep_filter :
    ∃ v, runAll (perform (filterPipes.config .tmr 400 80) .steady)
        [.deliver 4 [7, 8], .deliver 7 [7, 8], .deliver 10 [7, 9], .processFromRep 0 1,
          .processFromRep 1 1, .processFromRep 2 1]
        (filterPipes.start (filterPipes.config .tmr 400 80) .steady) = .ok v ∧
      v.log.restarts = [(2, 0)] ∧
      ∀ i j, i < 3 → j < 3 → (v.vot i 1).buffIndex = (v.vot j 1).buffIndex := by
  have hrun := eq_ended (d := {})
    (r := runAll (perform (filterPipes.config .tmr 400 80) .steady)
      [.deliver 4 [7, 8], .deliver 7 [7, 8], .deliver 10 [7, 9], .processFromRep 0 1,
        .processFromRep 1 1, .processFromRep 2 1]
      (filterPipes.start (filterPipes.config .tmr 400 80) .steady)) (by decide +kernel)
  refine ⟨_, hrun, by decide +kernel, ?_⟩
  exact ((replicas_in_lockstep (Or.inr rfl) filterPipes.started hrun).1 1 (by decide)
    (by decide +kernel)).1

end Streams

end Pint
