import Pint.Proof.Loop

/-!
# What passes through the voter

Input comes in by an external pipe and goes out to every replica, byte for byte: what one
`read` takes from the front of the one is appended to each of the others (`Passed`). The other
pieces of the main loop touch neither side, as long as no replica is restarted.

Here the pieces are followed as to what is in the pipes, and not as to votes or timers. That
needs two things of the descriptors: the number that the voter writes to stands for the pipe that
the replica reads, and no other number that it writes to does (`Wired`). The bytes pass through
the buffer of the external pipe, which is empty before and after; `payload` is what it holds in
between.

A piece in which a replica was restarted is told by the log (`NoRestart`), and nothing is said
of it: the results are of the form that if the log shows no restart, then this happened.
-/

namespace Pint

open Prog RingBuffer Voting

/-! ## From an external pipe to the replicas -/

/-- `bytes` were written to every replica on pipe `p`, and nothing to any other kernel pipe. -/
structure Written (cfg : Config) (id : Nat → Nat → Nat) (p n : Nat) (bytes : List Byte)
    (v v' : Voter) : Prop where
  appended : ∀ r, r < n → v'.kernel.unread (id r p) = v.kernel.unread (id r p) ++ bytes
  other : ∀ x, (∀ r, r < n → x ≠ id r p) → v'.kernel.unread x = v.kernel.unread x

section External

variable {cfg : Config} {env : Env} {plan : Plan} {id : Nat → Nat → Nat} {v v' : Voter}
  {p r : Nat} {bytes : List Byte} {E : Stop → Prop}

/-- What was read into an external pipe's buffer is what is passed on. -/
theorem payload_received (pipe : VotePipe) (bytes : List Byte) :
    (pipe.received (.data bytes)).payload = bytes := by
  unfold VotePipe.received VotePipe.payload
  dsimp only
  rw [Int.toNat_natCast]
  refine List.ext_getElem (by simp) fun k hk _ => ?_
  rw [length_block] at hk
  rw [getElem_block, blit, if_pos ⟨Nat.zero_le _, by omega⟩, Nat.zero_add, Nat.sub_zero,
    Nat.zero_add]
  exact ReadResult.array_data hk

/-- The loop of `processData`. -/
theorem writeReplicas_spec (hw : Wired cfg plan id v) (hp : p < cfg.pipeCount)
    (hin : v.IsInput p) (hpayload : (v.extPipes p).payload = bytes)
    (hcount : (v.extPipes p).buffCount = bytes.length) :
    wp (loop cfg.repCount fun r => do
      let v ← get
      writeBuffer (v.vot r p).fdOut (v.extPipes p).payload (v.extPipes p).buffCount)
      (fun _ v' => Written cfg id p cfg.repCount bytes v v') E v := by
  refine (wp_loop (fun n u => Still v u ∧ Written cfg id p n bytes v u) ⟨Still.refl v,
    fun r hr => absurd hr (Nat.not_lt_zero r), fun _ _ => rfl⟩ ?_).imp fun _ _ h => h.2
  intro n u hn hu
  obtain ⟨hstill, hwritten⟩ := hu
  have hs : cfg.Slot n p := ⟨hn, hp⟩
  have hlook : u.kernel.lookup (u.vot n p).fdOut = some (.writeEnd (id n p)) := by
    rw [hstill.toKept.lookup, hstill.vot, ((hw.joined n p hs).inward hin).2.1]
    exact hw.wr n p hs
  rw [wp_bind, wp_get, hstill.extPipes, hpayload, hcount]
  refine (writeBuffer_delivers hlook).mpr ⟨hstill.trans (still_unread u _), ?_, ?_⟩
  · intro r hr
    show Function.update u.kernel.unread (id n p) (u.kernel.unread (id n p) ++ bytes) (id r p)
      = _
    rcases Nat.lt_succ_iff_lt_or_eq.mp hr with hlt | rfl
    · rw [Function.update_of_ne, hwritten.appended r hlt]
      intro heq
      exact absurd (hw.id_inj r p n p ⟨Nat.lt_trans hlt hn, hp⟩ hs heq).1 (Nat.ne_of_lt hlt)
    · rw [Function.update_self, hwritten.other]
      intro r' hr' heq
      exact absurd (hw.id_inj r p r' p hs ⟨Nat.lt_trans hr' hn, hp⟩ heq).1
        (Nat.ne_of_gt hr')
  · intro x hx
    have hxn : x ≠ id n p := hx n (Nat.lt_succ_self n)
    refine (Function.update_of_ne hxn _ _).trans (hwritten.other x fun r hr => ?_)
    exact hx r (Nat.lt_succ_of_lt hr)

/-- **`processData` writes the input to every replica.** -/
theorem processData_writes (hw : Wired cfg plan id v) (hp : p < cfg.pipeCount)
    (hin : v.IsInput p) (hpayload : (v.extPipes p).payload = bytes)
    (hcount : (v.extPipes p).buffCount = bytes.length) :
    wp (processData cfg env p) (fun _ v' => Written cfg id p cfg.repCount bytes v v') E v := by
  obtain ⟨hkernel, hreplicas, hext⟩ : (v.arm cfg env p).kernel = v.kernel ∧ _ := arm_same v p
  rw [wp_processData, wp_bind]
  refine (balanceReps_still _ _).imp fun _ u hu => ?_
  have hwu : Wired cfg plan id u := by
    refine Wired.kept ?_ hu.1.toKept
    refine hw.samePipes hkernel (fun q => by rw [hext]; exact ⟨rfl, rfl⟩) fun i => ?_
    rw [hreplicas]
    exact ⟨rfl, rfl, rfl, rfl⟩
  have hextu : u.extPipes = v.extPipes := hu.1.extPipes.trans hext
  have hunread : u.kernel.unread = v.kernel.unread := by rw [hu.2, hkernel]
  have hinu : u.IsInput p := by
    unfold Voter.IsInput
    rw [hextu]
    exact hin
  rw [← hextu] at hpayload hcount
  refine (writeReplicas_spec hwu hp hinu hpayload hcount).imp fun _ v' hv => ?_
  constructor
  · intro r hr
    rw [hv.appended r hr, hunread]
  · intro x hx
    rw [hv.other x hx, hunread]

/-- What one turn of the loop over the external pipes moves: the front of one kernel pipe, to
the end of the pipes of all replicas. -/
inductive Passed (cfg : Config) (id : Nat → Nat → Nat) (p : Nat) (v v' : Voter) : Prop where
  | nothing (h : v'.kernel.unread = v.kernel.unread)
  | chunk {k n : Nat} (hin : v.IsInput p)
    (hk : v.kernel.lookup (v.extPipes p).fdIn = some (.readEnd k))
    (hleft : v'.kernel.unread k = (v.kernel.unread k).drop n)
    (hto : ∀ r, r < cfg.repCount →
      v'.kernel.unread (id r p) = v.kernel.unread (id r p) ++ (v.kernel.unread k).take n)
    (hother : ∀ x, x ≠ k → (∀ r, r < cfg.repCount → x ≠ id r p) →
      v'.kernel.unread x = v.kernel.unread x)

/-- **The specification of `serveExternal`**, as to what is in the pipes. -/
theorem serveExternal_passes {ready : List Int} (hw : Wired cfg plan id v)
    (hp : p < cfg.pipeCount) :
    wp (serveExternal cfg env ready p) (fun _ v' => Passed cfg id p v v') (fun _ => True) v := by
  unfold serveExternal
  rw [wp_bind, wp_get]
  dsimp only
  rw [wp_ite]
  split
  · rename_i hready
    obtain ⟨⟨e, he, hold⟩, -⟩ := hw.ext p hp
    rw [wp_bind]
    by_cases hread : ∃ k, e = .readEnd k
    · obtain ⟨k, rfl⟩ := hread
      refine read_spec he (fun _ => trivial) fun hsome => ?_
      have hlen := env.take_taken_pos v.tick maxVotePipeBuff_pos hsome
      generalize env.taken v.tick maxVotePipeBuff (v.kernel.unread k) = n at hlen
      dsimp only
      -- The chunk that the `read` took, and the state with it in the buffer of the external pipe.
      obtain ⟨bytes, hbytes⟩ : ∃ bytes, bytes = (v.kernel.unread k).take n := ⟨_, rfl⟩
      rw [← hbytes] at hlen
      rw [← hbytes, wp_bind, wp_modify]
      obtain ⟨u, hu⟩ : ∃ u, u = (v.drained k ((v.kernel.unread k).drop n)).setExt p
          ((v.extPipes p).received (.data bytes)) := ⟨_, rfl⟩
      have hcount : (0 : Int) < (ReadResult.data bytes).count := Int.ofNat_lt.mpr hlen
      rw [show (v.drained k ((v.kernel.unread k).drop n)).setExt p
        (((v.drained k ((v.kernel.unread k).drop n)).extPipes p).received (.data bytes)) = u from
          hu.symm, wp_ite, if_pos hcount]
      have hpipe : u.extPipes p = (v.extPipes p).received (.data bytes) := by
        rw [hu]
        exact Function.update_self _ _ _
      have hfds := received_fds (v.extPipes p) (.data bytes)
      have hkept : Kept v u := by
        rw [hu]
        exact (still_drained v k _).toKept.trans
          (armed_setExt hfds.1 hfds.2 : Armed env (v.drained k _) _).kept
      have hunread : u.kernel.unread
          = Function.update v.kernel.unread k ((v.kernel.unread k).drop n) := by
        rw [hu]
        rfl
      -- The external pipe is older than the pipes of the replicas.
      have hne : ∀ r, r < cfg.repCount → id r p ≠ k := by
        rintro r hr rfl
        exact absurd hold (Nat.not_lt.mpr (hw.id_ge r p ⟨hr, hp⟩))
      have hpayload : (u.extPipes p).payload = bytes := by
        rw [hpipe]
        exact payload_received _ _
      have hbuff : (u.extPipes p).buffCount = bytes.length := by
        rw [hpipe]
        rfl
      refine (processData_writes (hw.kept hkept) hp ((hkept.isInput p).mpr hready.1) hpayload
        hbuff).imp fun _ v' hv => ?_
      refine .chunk (n := n) hready.1 he ?_ (fun r hr => ?_) fun x hxk hx => ?_
      · rw [hv.other k fun r hr => (hne r hr).symm, hunread, Function.update_self]
      · rw [hv.appended r hr, hunread, Function.update_of_ne (hne r hr), hbytes]
      · rw [hv.other x hx, hunread, Function.update_of_ne hxk]
    · -- Not the read end of a pipe, so the `read` fails and nothing is passed on.
      refine read_failed he (fun k hk => hread ⟨k, hk⟩) ?_
      rw [wp_bind, wp_modify, wp_ite, if_neg (by simp [ReadResult.count]), wp_ite]
      split
      · exact .nothing rfl
      · exact .nothing rfl
  · exact .nothing rfl

end External

/-! ## The other pieces -/

section Others

variable {cfg : Config} {env : Env} {plan : Plan} {id : Nat → Nat → Nat} {v v' w : Voter}
  {p r : Nat} {E : Stop → Prop}

/-- The handler was not called, and no vote restarted a replica. -/
def NoRestart (v v' : Voter) : Prop :=
  v'.log.calls = v.log.calls ∧ v'.log.restarts = v.log.restarts

/-- Nothing was done to any pipe, and none was made. -/
structure Undisturbed (cfg : Config) (v v' : Voter) : Prop where
  kernel : v'.kernel = v.kernel
  ext : ∀ p, (v'.extPipes p).fdIn = (v.extPipes p).fdIn ∧
    (v'.extPipes p).fdOut = (v.extPipes p).fdOut
  sound : ∀ plan id, Sound cfg plan id v → Sound cfg plan id v'
  calls : v'.log.calls = v.log.calls

theorem Undisturbed.refl (v : Voter) : Undisturbed cfg v v :=
  ⟨rfl, fun _ => ⟨rfl, rfl⟩, fun _ _ h => h, rfl⟩

theorem Undisturbed.trans (h : Undisturbed cfg v w) (h' : Undisturbed cfg w v') :
    Undisturbed cfg v v' where
  kernel := h'.kernel.trans h.kernel
  ext p := ⟨(h'.ext p).1.trans (h.ext p).1, (h'.ext p).2.trans (h.ext p).2⟩
  sound plan id hs := h'.sound plan id (h.sound plan id hs)
  calls := h'.calls.trans h.calls

theorem Armed.undisturbed (h : Armed env v v') (hk : SameKernel v v') : Undisturbed cfg v v' :=
  ⟨hk, h.kept.ext, fun _ _ hs => hs.armed h, by rw [h.log]⟩

/-- The handler leaves an entry in the log. -/
theorem Recovered.calls_lt (h : Recovered cfg env plan id v v') :
    v.log.calls.length < v'.log.calls.length := by
  cases h with
  | cold _ hc =>
    obtain ⟨t, -, -, hlog⟩ := hc.log
    rw [hlog, List.length_append, List.length_singleton]
    exact Nat.lt_succ_self _
  | cloned _ hh =>
    obtain ⟨u, hr, rfl⟩ := hh.state
    have hcalls : u.log.calls = v.log.calls ++
        [.picked (v.restartee cfg) (cfg.restarter (v.restartee cfg))] := hr.calls
    show _ < (u.log.calls ++ [Call.returned (env.clock u.tick)]).length
    rw [hcalls, List.length_append, List.length_append, List.length_singleton]
    omega

/-- The first part of `doOneUpdate`, with no restart. -/
theorem Reaped.undisturbed (h : Reaped cfg env plan id v v') :
    Undisturbed cfg v v' ∨ v.log.calls.length < v'.log.calls.length := by
  cases h with
  | passed _ hv =>
    rw [hv]
    exact Or.inl (.refl v)
  | alive _ _ hv =>
    obtain ⟨hk, he, -, -, -, -, -, hlog⟩ := v.reap_same env
    rw [hv]
    exact Or.inl ⟨hk, fun p => by rw [he]; exact ⟨rfl, rfl⟩, fun _ _ hs => hs.reap env,
      by rw [hlog]⟩
  | exited hmode _ u hu hv =>
    refine Or.inr ?_
    obtain ⟨-, -, -, -, -, -, -, hlog⟩ := v.reap_same env
    have hlt := (Recovered.cold hmode hu).calls_lt
    have hnote : ((v.reap env).note (.exited (env.waitpid v.tick) (v.replicas 0).pid)).log.calls
        = v.log.calls ++ [.exited (env.waitpid v.tick) (v.replicas 0).pid] := by
      rw [← hlog]
      rfl
    rw [hnote, List.length_append, List.length_singleton] at hlt
    rw [hv]
    show _ < u.log.calls.length
    omega

/-- The second part, with no restart. -/
theorem checkWatchdog_undisturbed (h : Sound cfg plan id v) (hmode : cfg.Voting) :
    wp (checkWatchdog cfg env)
      (fun _ v' => Undisturbed cfg v v' ∨ v.log.calls.length < v'.log.calls.length) E v := by
  have htick : Undisturbed cfg v { v with tick := v.tick + 1 } :=
    ((still_tick v).armed : Armed env v _).undisturbed rfl
  unfold checkWatchdog
  rw [wp_bind, wp_get, wp_ite]
  split
  · rw [wp_bind, wp_generateTimestamp]
    dsimp only
    rw [wp_ite]
    split
    · exact Or.inl htick
    · rw [wp_bind, wp_note]
      refine (voterRestartHandler_total (h.tick.note _) hmode).imp fun _ u hu => Or.inr ?_
      have hlt := hu.calls_lt
      have hnote : (({ v with tick := v.tick + 1 } : Voter).note
          (.expired (env.clock v.tick))).log.calls
            = v.log.calls ++ [.expired (env.clock v.tick)] := rfl
      rw [hnote, List.length_append, List.length_singleton] at hlt
      omega
  · exact Or.inl (.refl v)

/-- `doOneUpdate` up to its `select`, with no restart. -/
theorem beforeSelect_undisturbed (h : Sound cfg plan id v) (hmode : cfg.Voting) :
    wp (beforeSelect cfg env)
      (fun _ v' => Undisturbed cfg v v' ∨ v.log.calls.length < v'.log.calls.length) E v := by
  unfold beforeSelect
  rw [wp_bind]
  refine (reapExit_spec h).imp fun _ u hu => ?_
  obtain ⟨id', hsu⟩ := hu.sound h
  rw [wp_bind]
  refine (checkWatchdog_undisturbed hsu hmode).imp fun _ w hw => ?_
  refine watchSet_spec.imp fun _ v' hv => ?_
  have hlast : Undisturbed cfg w v' := hv.1.undisturbed hv.2.1
  rw [hlast.calls]
  rcases hu.undisturbed with hu | hu
  · rcases hw with hw | hw
    · exact Or.inl ((hu.trans hw).trans hlast)
    · exact Or.inr (hu.calls ▸ hw)
  · rcases hw with hw | hw
    · exact Or.inr (hw.calls ▸ hu)
    · exact Or.inr (Nat.lt_trans hu hw)

/-- A vote that restarts no replica writes to one external pipe and to nothing else. -/
structure Outward (cfg : Config) (plan : Plan) (id : Nat → Nat → Nat) (p : Nat) (v v' : Voter) :
    Prop where
  sound : Sound cfg plan id v'
  kept : Kept v v'
  wrote : OnlyWrote (· = (v.extPipes p).fdOut) v v'

theorem Voted.outward (h : Sound cfg plan id v) (hp : p < cfg.pipeCount) (hout : ¬ v.IsInput p)
    (hv : Voted cfg plan id p v v') (hno : v'.log.restarts = v.log.restarts) :
    Outward cfg plan id p v v' := by
  have hsent : ∀ {w : Voter} {r : Nat}, Still v w → w.kernel = v.kernel → Sent cfg p r w v' →
      Outward cfg plan id p v v' := by
    intro w r hs hk hw
    refine ⟨(h.still hs).sent hp (fun hc => hout ((hs.isInput p).mp hc)) hw,
      hs.toKept.trans hw.kept, fun x hx => ?_⟩
    rw [hw.wrote x, hk]
    rintro fd rfl
    rw [hk, hs.extPipes]
    exact hx _ rfl
  have hsay : ∀ m : Message, m.alarm = false → Still v (v.say [m]) := fun m hm =>
    still_say v (by simpa using hm)
  cases hv with
  | nothing _ hv => exact ⟨hv ▸ h, hv ▸ Kept.refl v, fun _ _ => by rw [hv]⟩
  | alone _ hs => exact hsent (Still.refl v) rfl hs
  | pair _ w hw hs =>
    rcases hw with rfl | rfl
    · exact hsent (Still.refl w) rfl hs
    · exact hsent (hsay _ rfl) rfl hs
  | three _ _ hd =>
    generalize v.verdict cfg p = verdict at hd
    cases hd with
    | noTwo hv =>
      have hs := hsay .noTwoAgreed rfl
      exact ⟨hv ▸ h.still hs, hv ▸ hs.toKept, fun _ _ => by rw [hv]; rfl⟩
    | unanimous hs => exact hsent (Still.refl v) rfl hs
    | outvoted hr =>
      -- A restart is not one of these.
      have hlen := congrArg List.length (hr.restarts.symm.trans hno)
      rw [List.length_append, List.length_singleton] at hlen
      omega

/-- **`processFromRep` with no restart**: it reads one pipe and writes to one external pipe. -/
theorem processFromRep_outward (h : Sound cfg plan id v) (hs : cfg.Slot r p)
    (hout : ¬ v.IsInput p) :
    wp (processFromRep cfg env r p) (fun _ v' => v'.log.restarts = v.log.restarts →
      Sound cfg plan id v' ∧ Kept v v' ∧
      ∀ x, x ≠ id r p → v.kernel.lookup (v.extPipes p).fdOut ≠ some (.writeEnd x) →
        v'.kernel.unread x = v.kernel.unread x) (fun _ => True) v := by
  refine processFromRep_wp h.wired h.lockstep hs hout (fun _ => trivial) ?_ ?_
  · intro _ v' hstill _ htook _ _
    exact ⟨h.still hstill, hstill.toKept, fun x hx _ => htook x hx⟩
  · intro _ w hacc htook _
    have hsw : Sound cfg plan id w := ⟨h.wired.kept hacc.kept, hacc.lockstep⟩
    have houtw : ¬ w.IsInput p := fun hc => hout ((hacc.kept.isInput p).mp hc)
    have hrestarts : w.log.restarts = v.log.restarts := by
      rw [hacc.log]
      rfl
    refine (checkSDC_spec hsw.wired hsw.lockstep (Nat.zero_lt_of_lt hs.1) hs.2).mono
      (fun _ v' hv hno => ?_) fun _ _ => trivial
    have ho := hv.outward hsw hs.2 houtw (hno.trans hrestarts.symm)
    refine ⟨ho.sound, hacc.kept.trans ho.kept, fun x hx hfd => ?_⟩
    rw [ho.wrote x, htook x hx]
    rintro fd rfl
    rw [hacc.kept.lookup, hacc.extPipes]
    exact hfd

/-- One turn of the loops over the replicas. -/
theorem serveReplica_outward {ready : List Int} (h : Sound cfg plan id v) (hs : cfg.Slot r p) :
    wp (serveReplica cfg env ready p r) (fun _ v' => v' = v ∨ (¬ v.IsInput p ∧
      (v'.log.restarts = v.log.restarts → Sound cfg plan id v' ∧ Kept v v' ∧
        ∀ x, x ≠ id r p → v.kernel.lookup (v.extPipes p).fdOut ≠ some (.writeEnd x) →
          v'.kernel.unread x = v.kernel.unread x))) (fun _ => True) v := by
  unfold serveReplica
  rw [wp_bind, wp_get]
  dsimp only
  rw [wp_ite]
  split
  · rename_i hready
    have hout := (h.wired.fdIn_ne_zero hs).mp hready.1
    exact (processFromRep_outward h hs hout).imp fun _ _ hv => Or.inr ⟨hout, hv⟩
  · exact Or.inl rfl

end Others

end Pint
