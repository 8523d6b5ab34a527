import Pint.Proof.Restart

/-!
# What `checkSDC` and `processFromRep` do

`Decided` says what follows from each outcome of the poll, `Voted` what `checkSDC` does in
each replication mode, and `Processed` what a whole `processFromRep` does. They are read as
case lists: a later proof about the voter has one case for each, and nothing else can
happen.

What the poll finds is not a matter of the voter's state but of three queues and a length, and is
in `Lib.Voting`. The loop of `checkSDC` is that poll (`checkTmr_spec`), because `compareBuffs` is
equality of the fronts for buffers that are in lockstep: it would complain about two indexes that
differ, and here they never do.

None of it stops but for `read` on an empty pipe. That is part of each specification: the
restart of the minority returns, `buffToPipe` is never asked for more than there is, and no
index leaves an array.
-/

namespace Pint

open Prog Voting

/-! ## The comparisons -/

section Compare

variable {cfg : Config} {v : Voter} {p a b k : Nat} {E : Stop → Prop}

theorem compareReplicas_spec (h : InStep (· < cfg.repCount) v p) (ha : a < cfg.repCount)
    (hb : b < cfg.repCount) (hka : k ≤ (v.queue a p).length) (hkb : k ≤ (v.queue b p).length)
    {Q : Int → Voter → Prop}
    (hyes : Agree k (fun i => v.queue i p) a b → Q 0 v)
    (hno : ∀ result, result ≠ 0 → ¬ Agree k (fun i => v.queue i p) a b → Q result v) :
    wp (compareReplicas p a b k) Q E v := by
  unfold compareReplicas
  rw [wp_bind, wp_get, wp_bind,
    wp_lift_ok (compareBuffs_eq (h.wf a ha) (h.wf b hb) (h.index a b ha hb) hka hkb)]
  dsimp only
  rw [wp_bind, wp_say, say_nil, wp_pure]
  have hlen : ((v.queue a p).take k).length = ((v.queue b p).take k).length := by
    rw [List.length_take, List.length_take, Nat.min_eq_left hka, Nat.min_eq_left hkb]
  have hiff := cmpBytes_eq_zero hlen
  show Q (cmpBytes ((v.queue a p).take k) ((v.queue b p).take k)) v
  by_cases heq : Agree k (fun i => v.queue i p) a b
  · rw [hiff.mpr heq]
    exact hyes heq
  · exact hno _ (fun hc => heq (hiff.mp hc)) heq

end Compare

/-! ## The poll -/

/-- The outcome of the vote on pipe `p`. -/
def Voter.verdict (v : Voter) (cfg : Config) (p : Nat) : Verdict :=
  Voting.verdict cfg.repCount (v.ready cfg p) fun i => v.queue i p

section CheckSDC

variable {cfg : Config} {env : Env} {plan : Plan} {id : Nat → Nat → Nat} {v v' : Voter}
  {p : Nat}

/-- What follows from an outcome of the poll on pipe `p`. -/
inductive Decided (cfg : Config) (plan : Plan) (id : Nat → Nat → Nat) (p : Nat)
    (v v' : Voter) : Verdict → Prop where
  | noTwo (hv : v' = v.say [.noTwoAgreed]) : Decided cfg plan id p v v' .noTwo
  | unanimous {r : Nat} (hs : Sent cfg p r v v') : Decided cfg plan id p v v' (.unanimous r)
  | outvoted {e r : Nat} (hr : Restarted cfg plan id e r v v') :
    Decided cfg plan id p v v' (.outvoted e r)

/-- The loop of `checkSDC` is the poll. -/
theorem checkTmr_spec (hw : Wired cfg plan id v) (hl : Lockstep cfg v)
    (hn : cfg.repCount = 3) (hp : p < cfg.pipeCount) {rs : List Nat} (hrs : ∀ r ∈ rs, r < 3) :
    wp (checkTmr cfg env p (v.ready cfg p : Nat) rs)
      (fun _ v' => Decided cfg plan id p v v'
        (poll cfg.repCount (v.ready cfg p) (fun i => v.queue i p) rs)) (fun _ => False) v := by
  induction rs with
  | nil =>
    unfold checkTmr
    rw [wp_say, poll]
    exact .noTwo rfl
  | cons r rest ih =>
    have hr : r < cfg.repCount := hn ▸ hrs r List.mem_cons_self
    have hnext : (r + 1) % cfg.repCount < cfg.repCount := Nat.mod_lt _ (by omega)
    have hthird : (r + 2) % cfg.repCount < cfg.repCount := Nat.mod_lt _ (by omega)
    have hne : r ≠ (r + 2) % cfg.repCount := by
      rw [hn] at hr ⊢
      omega
    have hstep := hl.inStep p hp
    -- The code and `poll` compare the same pair, and go on with the same rest.
    rw [checkTmr, poll, wp_bind]
    refine compareReplicas_spec hstep hr hnext (ready_le_queue hr) (ready_le_queue hnext)
      (fun hagree => ?_) fun result hres hdis => ?_
    · rw [if_pos hagree, wp_ite, if_pos rfl, wp_bind]
      refine compareReplicas_spec hstep hr hthird (ready_le_queue hr) (ready_le_queue hthird)
        (fun hall => ?_) fun result hres hdis => ?_
      · rw [if_pos hall, wp_ite, if_neg (not_not.mpr rfl)]
        exact (sendPipe_spec hstep hr).imp fun _ v' hs => .unanimous hs
      · rw [if_neg hdis, wp_ite, if_pos hres]
        exact (restartPrep_spec hw hl hthird hr hne).imp fun _ v' hr => .outvoted hr
    · rw [if_neg hdis, wp_ite, if_neg hres]
      exact ih fun x hx => hrs x (List.mem_cons_of_mem _ hx)

/-- What `checkSDC` does, by replication mode. -/
inductive Voted (cfg : Config) (plan : Plan) (id : Nat → Nat → Nat) (p : Nat)
    (v v' : Voter) : Prop where
  | nothing (h0 : v.ready cfg p = 0) (hv : v' = v)
  | alone (hmode : cfg.repType = .smr) (hs : Sent cfg p 0 v v')
  | pair (hmode : cfg.repType = .dmr) (w : Voter)
      (hw : w = v ∨ w = v.say [.votingDisagreement]) (hs : Sent cfg p 0 w v')
  | three (hmode : cfg.repType = .tmr) (h0 : v.ready cfg p ≠ 0)
      (hd : Decided cfg plan id p v v' (v.verdict cfg p))

theorem Config.repCount_eq (cfg : Config) : cfg.repCount = reptypeToCount cfg.repType := rfl

/-- **The vote in DMR.** It reports a disagreement exactly if there is one, and then sends. -/
theorem checkSDC_dmr (hl : Lockstep cfg v) (hmode : cfg.repType = .dmr) (hp : p < cfg.pipeCount)
    (h0 : v.ready cfg p ≠ 0) {E : Stop → Prop} :
    wp (checkSDC cfg env p) (fun _ v' => Sent cfg p 0
      (if Agree (v.ready cfg p) (fun i => v.queue i p) 0 1 then v
        else v.say [.votingDisagreement]) v') E v := by
  have hstep := hl.inStep p hp
  have htwo : cfg.repCount = 2 := by
    rw [cfg.repCount_eq, hmode]
    rfl
  unfold checkSDC
  rw [wp_bind, wp_get, bytesReady_eq hstep]
  dsimp only
  rw [wp_ite, if_neg (by omega), hmode]
  dsimp only
  rw [wp_bind]
  refine compareReplicas_spec hstep (by omega) (by omega) (ready_le_queue (by omega))
    (ready_le_queue (by omega)) (fun hagree => ?_) fun result hres hdis => ?_
  · rw [if_neg (not_not.mpr rfl), if_pos hagree]
    exact sendPipe_spec hstep (by omega)
  · rw [if_pos hres, if_neg hdis, wp_bind, wp_say]
    have hstill : Still v (v.say [.votingDisagreement]) :=
      still_say v (by simp [Message.alarm])
    exact sendPipe_spec (hstep.congr fun i _ => hstill.vot i p) (by omega)

/-- **The specification of `checkSDC`.** It does not stop. -/
theorem checkSDC_spec (hw : Wired cfg plan id v) (hl : Lockstep cfg v) (hn : 0 < cfg.repCount)
    (hp : p < cfg.pipeCount) :
    wp (checkSDC cfg env p) (fun _ v' => Voted cfg plan id p v v') (fun _ => False) v := by
  have hstep := hl.inStep p hp
  unfold checkSDC
  rw [wp_bind, wp_get, bytesReady_eq hstep]
  dsimp only
  rw [wp_ite]
  split
  · rename_i h0
    exact .nothing (by omega) rfl
  · rename_i h0
    have h0' : v.ready cfg p ≠ 0 := by omega
    split
    · rename_i hmode
      exact (sendPipe_spec hstep hn).imp fun _ v' hs => .alone hmode hs
    · rename_i hmode
      have htwo : cfg.repCount = 2 := by rw [cfg.repCount_eq, hmode]; rfl
      rw [wp_bind]
      refine compareReplicas_spec hstep (by omega) (by omega) (ready_le_queue (by omega))
        (ready_le_queue (by omega)) (fun _ => ?_) fun result hres _ => ?_
      · rw [if_neg (not_not.mpr rfl)]
        exact (sendPipe_spec hstep hn).imp fun _ v' hs => .pair hmode v (Or.inl rfl) hs
      · rw [if_pos hres, wp_bind, wp_say]
        have hstill : Still v (v.say [.votingDisagreement]) :=
          still_say v (by simp [Message.alarm])
        exact (sendPipe_spec (hstep.congr fun i _ => hstill.vot i p) hn).imp
          fun _ v' hs => .pair hmode _ (Or.inr rfl) hs
    · rename_i hmode
      have hthree : cfg.repCount = 3 := by rw [cfg.repCount_eq, hmode]; rfl
      exact (checkTmr_spec hw hl hthree hp fun r hr => by
        rw [← hthree]
        exact List.mem_range.mp hr).imp fun _ v' hd => .three hmode h0' hd
    · -- Without replicas there is no vote.
      rename_i h1 h2 h3
      have : cfg.repCount = 0 := by
        rw [cfg.repCount_eq]
        cases hmode : cfg.repType with
        | smr => exact absurd hmode h1
        | dmr => exact absurd hmode h2
        | tmr => exact absurd hmode h3
        | none => rfl
        | repTypeError => rfl
      omega

end CheckSDC

/-! ## `processFromRep` -/

section Process

variable {cfg : Config} {env : Env} {plan : Plan} {id : Nat → Nat → Nat} {v v' : Voter}
  {p r : Nat}

/-- The bytes that a `processFromRep r p` takes from the pipe, when `id` is its pipe. -/
def Voter.arriving (v : Voter) (env : Env) (id : Nat) : List Byte :=
  (v.kernel.unread id).take (env.taken v.tick maxVotePipeBuff (v.kernel.unread id))

/-- The read of `processFromRep r p` touched no other pipe. -/
def OtherFlight (cfg : Config) (id : Nat → Nat → Nat) (r p : Nat) (v v' : Voter) : Prop :=
  ∀ i q, cfg.Slot i q → ¬ v.IsInput q → ¬ (i = r ∧ q = p) →
    v'.kernel.unread (id i q) = v.kernel.unread (id i q)

/-- No other kernel pipe was read from, and none written to. -/
def OnlyTook (k : Nat) (v v' : Voter) : Prop :=
  ∀ x, x ≠ k → v'.kernel.unread x = v.kernel.unread x

/-- `bytes` were accepted from replica `r` on pipe `p`, and not voted on yet. -/
structure Accepted (cfg : Config) (id : Nat → Nat → Nat) (r p : Nat) (bytes : List Byte)
    (v w : Voter) : Prop where
  kept : Kept v w
  timerStarted : w.timerStarted = v.timerStarted
  watchdog : w.watchdog = v.watchdog
  extPipes : w.extPipes = v.extPipes
  lockstep : Lockstep cfg w
  queue : w.queue r p = v.queue r p ++ bytes
  index : ∀ i q, (w.vot i q).buffIndex = (v.vot i q).buffIndex
  vot_ne : ∀ i q, ¬ (i = r ∧ q = p) → w.vot i q = v.vot i q
  log : w.log = { (v.accept r p bytes).log with said := w.log.said, signals := w.log.signals }
  alarms : ∀ m : Message, m.alarm = true → m ∈ w.log.said → m ∈ v.log.said
  flight : OtherFlight cfg id r p v w

/-- One more entry for replica `r` and pipe `p`. -/
theorem update_slot {β : Type} (f : Nat → Nat → β) (r p : Nat) (x : β) (i q : Nat) :
    Function.update f r (Function.update (f r) p x) i q
      = if i = r ∧ q = p then x else f i q := by
  by_cases hi : i = r
  · subst hi
    rw [Function.update_self]
    by_cases hq : q = p
    · rw [hq, Function.update_self, if_pos ⟨rfl, rfl⟩]
    · rw [Function.update_of_ne hq, if_neg fun h => hq h.2]
  · rw [Function.update_of_ne hi, if_neg fun h => hi h.1]

theorem Accepted.accepted {bytes : List Byte} {w : Voter} (h : Accepted cfg id r p bytes v w)
    (i q : Nat) : w.log.accepted i q
      = if i = r ∧ q = p then v.log.accepted r p ++ bytes else v.log.accepted i q := by
  rw [h.log]
  exact update_slot _ _ _ _ _ _

theorem Accepted.stream {bytes : List Byte} {w : Voter} (h : Accepted cfg id r p bytes v w)
    (i q : Nat) : w.log.stream i q
      = if i = r ∧ q = p then v.log.stream r p ++ bytes else v.log.stream i q := by
  rw [h.log]
  exact update_slot _ _ _ _ _ _

/-- A read of a pipe that is not empty takes something. -/
theorem arriving_ne_nil {k : Nat} (h : v.kernel.unread k ≠ []) : v.arriving env k ≠ [] := by
  apply List.ne_nil_of_length_pos
  exact env.take_taken_pos v.tick maxVotePipeBuff_pos h

/-- New priorities change nothing about that. -/
theorem Accepted.balanced {bytes : List Byte} {u w : Voter} (h : Accepted cfg id r p bytes v u)
    (hs : Still u w) (hk : SameKernel u w) : Accepted cfg id r p bytes v w where
  kept := h.kept.trans hs.toKept
  timerStarted := hs.timerStarted.trans h.timerStarted
  watchdog := hs.watchdog.trans h.watchdog
  extPipes := hs.extPipes.trans h.extPipes
  lockstep := h.lockstep.still hs
  queue := (hs.queue r p).trans h.queue
  index i q := by rw [hs.vot, h.index]
  vot_ne i q hne := by rw [hs.vot, h.vot_ne i q hne]
  log := by rw [hs.log, h.log]
  alarms m hm hmem := h.alarms m hm (hs.alarms m hm hmem)
  flight i q hiq ho hne := by rw [hk, h.flight i q hiq ho hne]

/-- What a `processFromRep r p` does. -/
inductive Processed (cfg : Config) (env : Env) (plan : Plan) (id : Nat → Nat → Nat) (r p : Nat)
    (v v' : Voter) : Prop where
  /-- The bytes do not fit; they are lost. -/
  | refused (hfull : maxVotePipeBuff ≤ (v.queue r p).length + (v.arriving env (id r p)).length)
      (hs : Still v v') (hf : OtherFlight cfg id r p v v')
  /-- They are accepted, and there is a vote. -/
  | voted (hfit : (v.queue r p).length + (v.arriving env (id r p)).length < maxVotePipeBuff)
      (w : Voter) (hw : Accepted cfg id r p (v.arriving env (id r p)) v w)
      (hv : Voted cfg plan id p w v')

/-- The vote pipe after `bytes` were accepted, in the voter's state. -/
theorem accepted_of {bytes : List Byte} {buffer : Nat → Byte} {u : Voter}
    (hl : Lockstep cfg v) (hs : cfg.Slot r p) (hout : ¬ v.IsInput p) (hu : Still v u)
    (hf : OtherFlight cfg id r p v u)
    (hfit : bytes.length < maxVotePipeBuff - (v.vot r p).content.length)
    (hcontent : ((v.vot r p).filled buffer bytes).content = (v.vot r p).content ++ bytes) :
    Accepted cfg id r p bytes v
      ((u.setVot r p ((v.vot r p).filled buffer bytes)).accept r p bytes) := by
  have hstep := hl.inStep p hs.2
  have hvot : ∀ i q, ((u.setVot r p ((v.vot r p).filled buffer bytes)).accept r p bytes).vot i q
      = if i = r ∧ q = p then (v.vot r p).filled buffer bytes else v.vot i q := by
    intro i q
    show (u.setVot r p ((v.vot r p).filled buffer bytes)).vot i q = _
    rw [setVot_vot_eq, hu.vot]
  -- The bytes go behind the queue: its position does not move, so the replicas stay in step.
  have hindex : ∀ i q, (((u.setVot r p ((v.vot r p).filled buffer bytes)).accept r p bytes).vot
      i q).buffIndex = (v.vot i q).buffIndex := by
    intro i q
    rw [hvot]
    split
    · rename_i hiq
      rw [hiq.1, hiq.2]
      rfl
    · rfl
  have hkept : Kept u (u.setVot r p ((v.vot r p).filled buffer bytes)) :=
    kept_setVot (by rw [hu.vot]; rfl) (by rw [hu.vot]; rfl)
  have hk : Kept v ((u.setVot r p ((v.vot r p).filled buffer bytes)).accept r p bytes) :=
    hu.toKept.trans { hkept with }
  refine
    { kept := hk
      timerStarted := hu.timerStarted
      watchdog := hu.watchdog
      extPipes := hu.extPipes
      lockstep := ⟨fun q hq => ⟨fun i hi => ?_, fun i j hi hj => ?_⟩, fun i q hiq hin => ?_⟩
      queue := ?_
      index := hindex
      vot_ne := fun i q hne => by rw [hvot, if_neg hne]
      log := ?_
      alarms := hu.alarms
      flight := hf }
  · rw [hvot]
    split
    · exact (hstep.wf r hs.1).filled hfit
    · exact (hl.inStep q hq).wf i hi
  · rw [hindex, hindex]
    exact (hl.inStep q hq).index i j hi hj
  · have hinv := (hk.isInput q).mp hin
    rw [hvot, if_neg]
    · exact hl.input i q hiq hinv
    · rintro ⟨-, rfl⟩
      exact hout hinv
  · unfold Voter.queue
    rw [hvot, if_pos ⟨rfl, rfl⟩, hcontent]
  · show (u.accept r p bytes).log = { (v.accept r p bytes).log with
      said := u.log.said
      signals := u.log.signals }
    unfold Voter.accept
    rw [hu.log]

/-- `processFromRep`, up to the vote. It blocks on an empty pipe. Bytes that do not fit are
refused with two messages; bytes that fit are accepted without a word, and it remains to
vote. Either way they are gone from the pipe. -/
theorem processFromRep_takes {Q : Unit → Voter → Prop} {E : Stop → Prop}
    (hw : Wired cfg plan id v) (hl : Lockstep cfg v) (hs : cfg.Slot r p) (hout : ¬ v.IsInput p)
    (hempty : v.kernel.unread (id r p) = [] → E .blocked)
    (hrefused : maxVotePipeBuff ≤ (v.queue r p).length + (v.arriving env (id r p)).length →
      ∀ v', Still v v' → OtherFlight cfg id r p v v' → OnlyTook (id r p) v v' →
        v.kernel.unread (id r p) = v.arriving env (id r p) ++ v'.kernel.unread (id r p) →
        v'.log.said = v.log.said ++ [.buffOverflow, .internalPipe r p] → Q () v')
    (hvoted : (v.queue r p).length + (v.arriving env (id r p)).length < maxVotePipeBuff →
      ∀ w, Accepted cfg id r p (v.arriving env (id r p)) v w → OnlyTook (id r p) v w →
        v.kernel.unread (id r p) = v.arriving env (id r p) ++ w.kernel.unread (id r p) →
        w.log.said = v.log.said →
        wp (checkSDC cfg env p) Q E w) :
    wp (processFromRep cfg env r p) Q E v := by
  have hwf := (hl.inStep p hs.2).wf r hs.1
  have hlook : v.kernel.lookup (v.vot r p).fdIn = some (.readEnd (id r p)) := by
    rw [hw.fdIn_eq hs hout]
    exact hw.rd r p hs
  unfold processFromRep
  rw [wp_bind, wp_get, wp_bind]
  refine read_spec hlook hempty fun hsome => ?_
  dsimp only
  obtain ⟨bytes, hbytes⟩ : ∃ bytes, bytes = v.arriving env (id r p) := ⟨_, rfl⟩
  have hsplit : v.kernel.unread (id r p) = bytes ++ (v.kernel.unread (id r p)).drop
      (env.taken v.tick maxVotePipeBuff (v.kernel.unread (id r p))) := by
    rw [hbytes]
    exact (List.take_append_drop _ _).symm
  generalize (v.kernel.unread (id r p)).drop
    (env.taken v.tick maxVotePipeBuff (v.kernel.unread (id r p))) = left at hsplit
  rw [show (v.kernel.unread (id r p)).take
    (env.taken v.tick maxVotePipeBuff (v.kernel.unread (id r p))) = bytes from hbytes.symm]
  have hpos : bytes ≠ [] := hbytes ▸ arriving_ne_nil hsome
  have hstill := still_drained v (id r p) left
  have htook : OnlyTook (id r p) v (v.drained (id r p) left) :=
    fun _ hx => Function.update_of_ne hx _ _
  have hleft : v.kernel.unread (id r p)
      = bytes ++ (v.drained (id r p) left).kernel.unread (id r p) := by
    show _ = bytes ++ Function.update v.kernel.unread (id r p) left (id r p)
    rw [Function.update_self]
    exact hsplit
  have hflight : OtherFlight cfg id r p v (v.drained (id r p) left) := by
    intro i q hiq _ hne
    refine Function.update_of_ne (fun heq => hne ?_) _ _
    exact hw.id_inj i q r p hiq hs heq
  rw [← hbytes] at hrefused hvoted
  -- `pipeToBuff` takes all that was read or nothing of it, and either way it is gone from the
  -- pipe.
  by_cases hfit : bytes.length < maxVotePipeBuff - (v.vot r p).content.length
  · obtain ⟨buffer, haccept, hcontent⟩ := pipeToBuff_accept hwf hpos hfit
    have hfit' : (v.queue r p).length + bytes.length < maxVotePipeBuff := by
      show (v.vot r p).content.length + bytes.length < maxVotePipeBuff
      omega
    rw [wp_bind, wp_lift_ok haccept]
    dsimp only
    rw [wp_bind, wp_say, say_nil, wp_bind, wp_modify, if_pos rfl, wp_bind, wp_modify, wp_bind,
      show (ReadResult.data bytes).bytes = bytes from rfl]
    have hacc := accepted_of hl hs hout hstill hflight hfit hcontent
    refine ((balanceReps_still _ _).and (balanceReps_log (E := fun _ => True) _ _)).mono
      (fun _ w hbal => ?_) fun _ he => he.1
    refine hvoted hfit' w (hacc.balanced hbal.1.1 hbal.1.2) (fun x hx => ?_) ?_
      ((congrArg Log.said hbal.2).trans rfl)
    · rw [hbal.1.2]
      exact htook x hx
    · rw [hbal.1.2]
      exact hleft
  · have hfull : maxVotePipeBuff ≤ (v.queue r p).length + bytes.length := by
      show maxVotePipeBuff ≤ (v.vot r p).content.length + bytes.length
      omega
    rw [wp_bind, wp_lift_ok (pipeToBuff_overflow hwf hpos (Nat.not_lt.mp hfit))]
    dsimp only
    rw [wp_bind, wp_say, wp_bind, wp_modify, if_neg (by decide), wp_say]
    -- The pipe is written back as it was.
    have hsame : ∀ u : Voter, u.vot r p = v.vot r p → u.setVot r p (v.vot r p) = u := by
      intro u hu
      unfold Voter.setVot Voter.setReplica Replica.setVot
      rw [← hu]
      unfold Voter.vot
      rw [Function.update_eq_self, Function.update_eq_self]
    rw [hsame _ (by rfl)]
    refine hrefused hfull _ ?_ hflight htook hleft (List.append_assoc _ _ _)
    exact hstill.trans ((still_say _ (by simp [Message.alarm])).trans
      (still_say _ (by simp [Message.alarm])))

/-- The same, without what is left in the pipe. -/
theorem processFromRep_wp {Q : Unit → Voter → Prop} {E : Stop → Prop}
    (hw : Wired cfg plan id v) (hl : Lockstep cfg v) (hs : cfg.Slot r p) (hout : ¬ v.IsInput p)
    (hempty : v.kernel.unread (id r p) = [] → E .blocked)
    (hrefused : maxVotePipeBuff ≤ (v.queue r p).length + (v.arriving env (id r p)).length →
      ∀ v', Still v v' → OtherFlight cfg id r p v v' → OnlyTook (id r p) v v' →
        v'.log.said = v.log.said ++ [.buffOverflow, .internalPipe r p] → Q () v')
    (hvoted : (v.queue r p).length + (v.arriving env (id r p)).length < maxVotePipeBuff →
      ∀ w, Accepted cfg id r p (v.arriving env (id r p)) v w → OnlyTook (id r p) v w →
        w.log.said = v.log.said →
        wp (checkSDC cfg env p) Q E w) :
    wp (processFromRep cfg env r p) Q E v :=
  processFromRep_takes hw hl hs hout hempty
    (fun hfull v' hstill hflight htook _ hsaid => hrefused hfull v' hstill hflight htook hsaid)
    fun hfit w hacc htook _ hsaid => hvoted hfit w hacc htook hsaid

/-- **The specification of `processFromRep`.** It blocks only on an empty pipe, and does not
stop for any other reason. -/
theorem processFromRep_spec (hw : Wired cfg plan id v) (hl : Lockstep cfg v)
    (hs : cfg.Slot r p) (hout : ¬ v.IsInput p) :
    wp (processFromRep cfg env r p) (fun _ v' => Processed cfg env plan id r p v v')
      (fun stop => stop = .blocked ∧ v.kernel.unread (id r p) = []) v := by
  refine processFromRep_wp hw hl hs hout (fun hnil => ⟨rfl, hnil⟩) ?_ ?_
  · intro hfull v' hstill hflight _ _
    exact .refused hfull hstill hflight
  · intro hfit w hacc _ _
    refine (checkSDC_spec (hw.kept hacc.kept) hacc.lockstep (Nat.zero_lt_of_lt hs.1) hs.2).mono
      (fun _ v' hv => ?_) fun _ hc => hc.elim
    exact .voted hfit w hacc hv

end Process

end Pint
