import Pint.Proof.Votes

/-!
# The voter when it enters its main loop

`initVoterD` connects the replicas, by numbers that make up the `Plan` of the whole run, and
leaves every queue empty. `Fresh` is what holds then; it is where every argument about runs
starts.

The pipes are made replica by replica and, for each, pipe by pipe. Half way through, the slots
that are done are not all slots, so `Starting` speaks of those in a set `D`, which grows by one
with each pipe. That the numbers do not overlap needs one more fact: `pipe` hands out the two
lowest numbers that are free, nothing is closed here, so each pair is behind all before it
(`Packed.piped`).

`Started` asks for no more than that `initVoterD` ran from a voter in which only the external
pipes are open (`Boot`). `Pipes.started` gives such a voter for any component, and the runs on
fixed inputs in the other modules start there.
-/

namespace Pint

open Prog

section Packed

variable {D : Nat → Nat → Prop} {plan : Plan} {v : Voter} {i p : Nat}

/-- **A pipe made at the end of a replica's row keeps the descriptors packed.** -/
theorem Packed.piped (hp : Packed D plan v) (hnew : ∀ q, D i q → q < p) :
    Packed (fun j q => D j q ∨ (j = i ∧ q = p)) (plan.add i p v.kernel) (v.piped i p) := by
  have hk : (v.piped i p).kernel = v.kernel.piped := piped_kernel
  have hne : ∀ j q, D j q → ¬ (j = i ∧ q = p) := by
    rintro j q hD ⟨rfl, rfl⟩
    exact Nat.lt_irrefl _ (hnew q hD)
  have hrd : ∀ j q, D j q → (plan.add i p v.kernel).rd j q = plan.rd j q := fun j q hD =>
    atSlot_ne (hne j q hD)
  have hwr : ∀ j q, D j q → (plan.add i p v.kernel).wr j q = plan.wr j q := fun j q hD =>
    atSlot_ne (hne j q hD)
  have hrd' : (plan.add i p v.kernel).rd i p = v.kernel.rdNext := atSlot_self
  have hwr' : (plan.add i p v.kernel).wr i p = v.kernel.wrNext := atSlot_self
  refine ⟨fun j q h => ?_, fun j q q' h h' hlt => ?_, fun j q h x hx => ?_⟩
  · rcases h with hD | ⟨rfl, rfl⟩
    · rw [hrd j q hD, hwr j q hD]
      exact hp.rd_lt j q hD
    · rw [hrd', hwr']
      exact v.kernel.rdNext_lt_wrNext
  · rcases h with hD | ⟨rfl, rfl⟩
    · rcases h' with hD' | ⟨rfl, rfl⟩
      · rw [hwr j q hD, hrd j q' hD']
        exact hp.wr_lt j q q' hD hD' hlt
      · -- Everything up to the earlier pipe is open, so the new one comes after it.
        rw [hwr j q hD, hrd']
        by_contra hle
        exact hp.full j q hD _ (Nat.not_lt.mp hle) v.kernel.lookup_rdNext
    · rcases h' with hD' | ⟨-, rfl⟩
      · exact absurd (hnew q' hD') (Nat.not_lt.mpr (Nat.le_of_lt hlt))
      · exact absurd hlt (Nat.lt_irrefl _)
  · rw [hk]
    rcases h with hD | ⟨rfl, rfl⟩
    · rw [hwr j q hD] at hx
      obtain ⟨e, he⟩ := Option.ne_none_iff_exists'.mp (hp.full j q hD x hx)
      rw [Kernel.lookup_piped_of_open he]
      simp
    · rw [hwr'] at hx
      exact Kernel.lookup_piped_ne_none hx

end Packed

/-! ## `startReplicas` -/

section StartReplicas

variable {cfg : Config} {env : Env} {v v' : Voter} {E : Stop → Prop}

/-- Nothing is queued. -/
def NoVotes (v : Voter) : Prop := ∀ i p, (v.vot i p).buffCount = 0 ∧ (v.vot i p).buffIndex = 0

/-- While the pipes are made for the first time: the slots in `D` are done. -/
structure Starting (cfg : Config) (D : Nat → Nat → Prop) (b v : Voter) : Prop where
  outside : Outside b v
  children : v.children = b.children
  noVotes : NoVotes v
  wired : ∃ plan id, Plumbed D cfg.pipeCount plan id v ∧ Packed D plan v

theorem Starting.piped {D : Nat → Nat → Prop} {b : Voter} {i p : Nat}
    (h : Starting cfg D b v) (hnew : ∀ q, D i q → q < p) :
    Starting cfg (fun j q => D j q ∨ (j = i ∧ q = p)) b (v.piped i p) where
  outside := h.outside.trans piped_outside
  children := piped_children.trans h.children
  noVotes j q := by
    obtain ⟨h1, h2, -⟩ := piped_votes (v := v) (i := i) (p := p) j q
    rw [h1, h2]
    exact h.noVotes j q
  wired := by
    obtain ⟨plan, id, hp, hq⟩ := h.wired
    exact ⟨_, _, hp.piped fun hD => Nat.lt_irrefl _ (hnew p hD), hq.piped hnew⟩

theorem Starting.congr {D D' : Nat → Nat → Prop} {b : Voter} (h : Starting cfg D b v)
    (hD : ∀ i p, D' i p → D i p) : Starting cfg D' b v where
  outside := h.outside
  children := h.children
  noVotes := h.noVotes
  wired := by
    obtain ⟨plan, id, hp, hq⟩ := h.wired
    exact ⟨plan, id, hp.congr hD fun _ _ _ => rfl,
      fun i p hi => hq.rd_lt i p (hD i p hi),
      fun i p q hi hi' => hq.wr_lt i p q (hD i p hi) (hD i q hi'),
      fun i p hi => hq.full i p (hD i p hi)⟩

/-- The pipes of all replicas. There is one invariant for each of the two loops, and the slots
that are done are those of the replicas before this one and those of this one so far. -/
theorem createPipes_start {b : Voter} (h : Starting cfg (fun _ _ => False) b v)
    (h0 : ∀ i, (v.replicas i).pipeCount = 0) :
    wp (createPipes 0 cfg.repCount cfg.pipeCount) (fun _ v' => Starting cfg cfg.Slot b v' ∧
      ∀ i, i < cfg.repCount → (v'.replicas i).pipeCount = cfg.pipeCount) E v := by
  unfold createPipes
  refine (wp_loop (fun n u => Starting cfg (fun j q => j < n ∧ q < cfg.pipeCount) b u ∧
      (∀ i, i < n → (u.replicas i).pipeCount = cfg.pipeCount) ∧
      ∀ i, n ≤ i → (u.replicas i).pipeCount = 0)
    ⟨h.congr fun i p hc => absurd hc.1 (by simp), fun i hi => absurd hi (by simp),
      fun i _ => h0 i⟩ fun n u hn hu => ?_).imp fun _ v' hv' => ⟨hv'.1, hv'.2.1⟩
  obtain ⟨hu, hdone, hrest⟩ := hu
  rw [Nat.zero_add]
  refine (wp_loop (fun m w => Starting cfg (fun j q => (j < n ∧ q < cfg.pipeCount) ∨
      (j = n ∧ q < m)) b w ∧ (w.replicas n).pipeCount = m ∧
      ∀ i, i ≠ n → (w.replicas i).pipeCount = (u.replicas i).pipeCount)
    ⟨hu.congr fun i p hc => hc.resolve_right (by simp), hrest n (Nat.le_refl n),
      fun _ _ => rfl⟩ fun m w hm hw => ?_).imp fun _ w hw => ?_
  · rw [wp_createPipe]
    obtain ⟨hst, -, hother⟩ := hw
    have hgrown := fun i q => slot_succ (D := fun j p => j < n ∧ p < cfg.pipeCount)
      (n := n) (k := m) (j := i) (q := q)
    refine ⟨(hst.piped (i := n) (p := m) ?_).congr hgrown, piped_pipeCount, fun i hi => ?_⟩
    · rintro q (⟨hlt, -⟩ | ⟨-, hq⟩)
      · exact absurd hlt (Nat.lt_irrefl n)
      · exact hq
    · rw [piped_replicas_ne hi]
      exact hother i hi
  · obtain ⟨hst, hcount, hother⟩ := hw
    refine ⟨hst.congr ?_, fun i hi => ?_, fun i hi => ?_⟩
    · rintro i q ⟨hi, hq⟩
      rcases Nat.lt_succ_iff_lt_or_eq.mp hi with hlt | rfl
      · exact Or.inl ⟨hlt, hq⟩
      · exact Or.inr ⟨rfl, hq⟩
    · rcases Nat.lt_succ_iff_lt_or_eq.mp hi with hlt | rfl
      · rw [hother i (Nat.ne_of_lt hlt)]
        exact hdone i hlt
      · exact hcount
    · rw [hother i (by omega)]
      exact hrest i (Nat.le_of_succ_le hi)

/-- The replicas of a voter that has just been started. No pipe is made yet, and what was in the
buffers of a record stays in it: they are empty because they were. -/
theorem initReplicas_start {num : Nat} {name : String} {priority : Int}
    (h0 : ∀ i, (v.replicas i).pipeCount = 0) (hv : NoVotes v) :
    wp (initReplicas 0 num name priority) (fun _ v' => Outside v v' ∧
      v'.children = v.children ∧ v'.kernel = v.kernel ∧ NoVotes v' ∧
      ∀ i, (v'.replicas i).pipeCount = 0) E v := by
  unfold initReplicas
  refine wp_loop_const (fun v' => Outside v v' ∧ v'.children = v.children ∧
    v'.kernel = v.kernel ∧ NoVotes v' ∧ ∀ i, (v'.replicas i).pipeCount = 0)
    ⟨Outside.refl v, rfl, rfl, hv, h0⟩ fun n u _ hu => ?_
  obtain ⟨h1, h2, h3, h4, h5⟩ := hu
  -- A record whose pipes are those of replica `n`.
  have hset : ∀ rep : Replica, rep.votPipes = (u.replicas n).votPipes → rep.pipeCount = 0 →
      NoVotes (u.setReplica n rep) ∧
        ∀ i, ((u.setReplica n rep).replicas i).pipeCount = 0 := by
    intro rep hvot hcount
    refine ⟨fun i p => ?_, fun i => ?_⟩
    · unfold Voter.vot Voter.setReplica
      by_cases hi : i = n
      · subst hi
        simp only [Function.update_self, hvot]
        exact h4 i p
      · simp only [Function.update_of_ne hi]
        exact h4 i p
    · unfold Voter.setReplica
      by_cases hi : i = n
      · subst hi
        simp only [Function.update_self, hcount]
      · simp only [Function.update_of_ne hi]
        exact h5 i
  rw [Nat.zero_add]
  have hself : ∀ rep : Replica, (u.setReplica n rep).replicas n = rep := fun rep =>
    Function.update_self _ _ _
  have htwice : ∀ rep rep' : Replica, (u.setReplica n rep).setReplica n rep'
      = u.setReplica n rep' := by
    intro rep rep'
    unfold Voter.setReplica
    simp
  simp only [wp_bind, wp_modify, wp_get, hself, h5, loop, wp_pure, htwice]
  obtain ⟨g4, g5⟩ := hset { u.replicas n with name, pid := -1, priority, pipeCount := 0 } rfl rfl
  exact ⟨h1.trans { Outside.refl u with }, h2, h3, g4, g5⟩

/-- A new process has a number that no unreaped child has. -/
theorem freshPid_spec (children : List Int) (offered : Int) :
    freshPid children offered ∉ children ∧ 0 < freshPid children offered := by
  have hmax : ∀ l : List Int, (∀ c ∈ l, c ≤ l.foldr max 0) ∧ 0 ≤ l.foldr max 0 := by
    intro l
    induction l with
    | nil => exact ⟨by simp, le_refl _⟩
    | cons a l ih =>
      rw [List.foldr_cons]
      refine ⟨fun c hc => ?_, le_trans ih.2 (le_max_right _ _)⟩
      rcases List.mem_cons.mp hc with rfl | hc
      · exact le_max_left _ _
      · exact le_trans (ih.1 c hc) (le_max_right _ _)
  unfold freshPid
  split
  · rename_i h
    exact ⟨h.2, h.1⟩
  · obtain ⟨h1, h2⟩ := hmax children
    refine ⟨fun hc => ?_, by omega⟩
    have := h1 _ hc
    omega

/-- The replicas are new processes, and otherwise as they were. -/
structure Forked (num : Nat) (v v' : Voter) : Prop where
  outside : Outside v v'
  kernel : v'.kernel = v.kernel
  same : ∀ i, SamePipes (v.replicas i) (v'.replicas i)
  pid_ne : ∀ i, num ≤ i → (v'.replicas i).pid = (v.replicas i).pid
  children : ∀ c, c ∈ v'.children ↔ c ∈ v.children ∨ ∃ i, i < num ∧ c = (v'.replicas i).pid
  fresh : ∀ i, i < num → (v'.replicas i).pid ∉ v.children ∧ 0 < (v'.replicas i).pid

/-- `fork` gives each replica its process. What the child does is not the voter's. -/
theorem forkReplicas_spec (num : Nat) :
    wp (forkReplicas env num) (fun _ v' => Forked num v v') E v := by
  unfold forkReplicas
  refine wp_loop (fun n v' => Forked n v v')
    ⟨Outside.refl v, rfl, fun _ => ⟨rfl, rfl, rfl, rfl⟩, fun _ _ => rfl, by simp, by simp⟩
    fun n u hn hu => ?_
  obtain ⟨pid, hpid⟩ : ∃ pid, pid = freshPid u.children (env.pid u.tick) := ⟨_, rfl⟩
  obtain ⟨hnew, hpos⟩ := freshPid_spec u.children (env.pid u.tick)
  rw [← hpid] at hnew hpos
  show Forked (n + 1) v (({ u with
    tick := u.tick + 1
    children := freshPid u.children (env.pid u.tick) :: u.children } : Voter).setReplica n
      { u.replicas n with pid := freshPid u.children (env.pid u.tick) })
  rw [← hpid]
  obtain ⟨w, hw⟩ : ∃ w, w = ({ u with tick := u.tick + 1, children := pid :: u.children } :
    Voter).setReplica n { u.replicas n with pid } := ⟨_, rfl⟩
  rw [← hw]
  have hself : (w.replicas n) = { u.replicas n with pid } := by
    rw [hw]
    exact Function.update_self _ _ _
  have hne : ∀ i, i ≠ n → w.replicas i = u.replicas i := by
    intro i hi
    rw [hw]
    exact Function.update_of_ne hi _ _
  have hch : w.children = pid :: u.children := by
    rw [hw]
    rfl
  have hout : Outside u w := by
    rw [hw]
    exact { Outside.refl u with tick := Nat.le_succ _ }
  refine
    { outside := hu.outside.trans hout
      kernel := by rw [hw]; exact hu.kernel
      same := fun i => ?_
      pid_ne := fun i hi => ?_
      children := fun c => ?_
      fresh := fun i hi => ?_ }
  · by_cases hi : i = n
    · subst hi
      have := hu.same i
      rw [hself]
      exact ⟨this.1, this.2, this.3, this.4⟩
    · rw [hne i hi]
      exact hu.same i
  · rw [hne i (by omega)]
    exact hu.pid_ne i (by omega)
  · rw [hch, List.mem_cons, hu.children]
    constructor
    · rintro (rfl | hc | ⟨i, hi, rfl⟩)
      · exact Or.inr ⟨n, Nat.lt_succ_self n, by rw [hself]⟩
      · exact Or.inl hc
      · exact Or.inr ⟨i, Nat.lt_succ_of_lt hi, by rw [hne i (Nat.ne_of_lt hi)]⟩
    · rintro (hc | ⟨i, hi, rfl⟩)
      · exact Or.inr (Or.inl hc)
      · rcases Nat.lt_succ_iff_lt_or_eq.mp hi with hlt | rfl
        · exact Or.inr (Or.inr ⟨i, hlt, by rw [hne i (Nat.ne_of_lt hlt)]⟩)
        · exact Or.inl (by rw [hself])
  · rcases Nat.lt_succ_iff_lt_or_eq.mp hi with hlt | rfl
    · rw [hne i (Nat.ne_of_lt hlt)]
      exact hu.fresh i hlt
    · rw [hself]
      exact ⟨fun hc => hnew ((hu.children pid).mpr (Or.inl hc)), hpos⟩

/-- What `startReplicas` does at the start, from a state `v` in which no replica is
connected. -/
theorem startReplicas_spec {base : Nat} {name : String} {priority : Int}
    (h0 : ∀ i, (v.replicas i).pipeCount = 0) (hv : NoVotes v)
    (hzero : ∃ e, v.kernel.lookup 0 = some e ∧ e.old base)
    (hext : ∀ p, p < cfg.pipeCount →
      (∃ e, v.kernel.lookup (v.extPipes p).fdIn = some e ∧ e.old base) ∧
        ∃ e, v.kernel.lookup (v.extPipes p).fdOut = some e ∧ e.old base)
    (hbase : base ≤ v.kernel.pipes) :
    wp (startReplicas env cfg.repCount name cfg.pipeCount priority) (fun _ v' =>
      Outside v v' ∧ NoVotes v' ∧ (∃ plan id, Wired cfg plan id v') ∧
        ∀ c, c ∈ v'.children → c ∈ v.children ∨ ∃ i, i < cfg.repCount ∧ c = (v'.replicas i).pid)
      E v := by
  unfold startReplicas
  rw [wp_bind]
  refine (initReplicas_start h0 hv).imp fun _ u hu => ?_
  obtain ⟨h1, h2, h3, h4, h5⟩ := hu
  have hstart : Starting cfg (fun _ _ => False) v u :=
    { outside := h1
      children := h2
      noVotes := h4
      wired := by
        refine ⟨⟨base, fun _ _ => 0, fun _ _ => 0⟩, fun _ _ => 0, ?_, ?_⟩
        · exact
            { zero := by rw [h3]; exact hzero
              ext := fun p hp => by
                rw [h3, h1.extPipes]
                exact hext p hp
              base_le := by rw [h3]; exact hbase
              joined := fun _ _ hc => hc.elim
              rd := fun _ _ hc => hc.elim
              wr := fun _ _ hc => hc.elim
              id_ge := fun _ _ hc => hc.elim
              id_lt := fun _ _ hc => hc.elim
              id_inj := fun _ _ _ _ hc => hc.elim }
        · exact ⟨fun _ _ hc => hc.elim, fun _ _ _ hc => hc.elim, fun _ _ hc => hc.elim⟩ }
  rw [wp_bind]
  refine (createPipes_start hstart h5).imp fun _ w hw => ?_
  obtain ⟨hst, hcount⟩ := hw
  refine (forkReplicas_spec cfg.repCount).imp fun _ v' hf => ?_
  obtain ⟨plan, id, hp, hq⟩ := hst.wired
  have hwired : Wired cfg plan id w := { toPlumbed := hp, toPacked := hq, count := hcount }
  refine ⟨hst.outside.trans hf.outside, fun i p => ?_, ⟨plan, id, ?_⟩, fun c hc => ?_⟩
  · have hvot : v'.vot i p = w.vot i p := by
      unfold Voter.vot
      rw [(hf.same i).votPipes]
    rw [hvot]
    exact hst.noVotes i p
  · exact hwired.samePipes hf.kernel (fun p => by rw [hf.outside.extPipes]; exact ⟨rfl, rfl⟩)
      hf.same
  · rw [hf.children, hst.children] at hc
    exact hc

end StartReplicas

/-! ## `initVoterD` -/

section Init

variable {cfg : Config} {env : Env} {v : Voter}

/-- The voter at the head of its main loop for the first time. -/
structure Fresh (cfg : Config) (v : Voter) : Prop where
  timerStarted : v.timerStarted = false
  lastDead : v.lastDead = -1
  noVotes : NoVotes v
  wired : ∃ plan id, Wired cfg plan id v
  children : ∀ c, c ∈ v.children → ∃ i, i < cfg.repCount ∧ c = (v.replicas i).pid
  log : v.log = { said := v.log.said, signals := v.log.signals }
  alarms : ∀ m : Message, m.alarm = true → m ∉ v.log.said

/-- Without votes the replicas are in lockstep. -/
theorem NoVotes.lockstep (h : NoVotes v) : Lockstep cfg v where
  inStep p _ := .of_zero fun i _ => h i p
  input i p _ _ := h i p

theorem NoVotes.queue (h : NoVotes v) (i p : Nat) : v.queue i p = [] :=
  VotePipe.content_of_zero (h i p).1

/-- The two states differ in the `buff_count` of external pipes. -/
structure Touched (v v' : Voter) : Prop where
  timerStarted : v'.timerStarted = v.timerStarted
  lastDead : v'.lastDead = v.lastDead
  replicas : v'.replicas = v.replicas
  kernel : v'.kernel = v.kernel
  children : v'.children = v.children
  log : v'.log = v.log
  ext : ∀ p, (v'.extPipes p).fdIn = (v.extPipes p).fdIn ∧
    (v'.extPipes p).fdOut = (v.extPipes p).fdOut

/-- `read` of length 0 answers 0 on the read end of a pipe, and changes nothing. -/
theorem readNothing_spec {fd : Int} {Q : Int → Voter → Prop} {E : Stop → Prop}
    (hQ : ∀ count, (∀ id, v.kernel.lookup fd = some (.readEnd id) → count = 0) → Q count v) :
    wp (readNothing fd) Q E v := by
  unfold readNothing
  rw [wp_bind, wp_get]
  split
  · exact hQ 0 fun _ _ => rfl
  · rename_i hno
    exact hQ (-1) fun id hid => absurd hid (hno id)

/-- Page faults on the external pipes. -/
theorem touchExternals_spec {n : Nat} {E : Stop → Prop} :
    wp (loop n fun p => do
      let v ← get
      if (v.extPipes p).fdIn ≠ 0 then
        let count ← readNothing (v.extPipes p).fdIn
        modify fun v => v.setExt p { v.extPipes p with buffCount := count })
      (fun _ v' => Touched v v') E v := by
  refine wp_loop_const (fun v' => Touched v v') ⟨rfl, rfl, rfl, rfl, rfl, rfl,
    fun _ => ⟨rfl, rfl⟩⟩ fun p u _ hu => ?_
  rw [wp_bind, wp_get, wp_ite]
  split
  · rw [wp_bind]
    refine readNothing_spec fun count _ => ?_
    rw [wp_modify]
    refine ⟨hu.1, hu.2, hu.3, hu.4, hu.5, hu.6, fun q => ?_⟩
    unfold Voter.setExt
    by_cases hq : q = p
    · subst hq
      simp only [Function.update_self]
      exact hu.ext q
    · simp only [Function.update_of_ne hq]
      exact hu.ext q
  · exact hu

theorem setVot_self {u : Voter} {i p : Nat} {pipe : VotePipe} (h : pipe = u.vot i p) :
    u.setVot i p pipe = u := by
  unfold Voter.setVot Voter.setReplica Replica.setVot
  rw [h]
  unfold Voter.vot
  rw [Function.update_eq_self, Function.update_eq_self]

/-- Page faults on the pipes of the replicas: nothing is there to read. -/
theorem touchReplicas_spec {plan : Plan} {id : Nat → Nat → Nat} {E : Stop → Prop}
    (hw : Wired cfg plan id v) (hv : NoVotes v) :
    wp (loop cfg.repCount fun r => do
      let v ← get
      loop (v.replicas r).pipeCount fun p => do
        let v ← get
        if (v.vot r p).fdIn ≠ 0 then
          let count ← readNothing (v.vot r p).fdIn
          modify fun v => v.setVot r p { v.vot r p with buffCount := count })
      (fun _ v' => v' = v) E v := by
  refine wp_loop_const (fun v' => v' = v) rfl fun r u hr hu => ?_
  subst hu
  rw [wp_bind, wp_get, hw.count r hr]
  refine wp_loop_const (fun v' => v' = u) rfl fun p w hp hw' => ?_
  subst hw'
  rw [wp_bind, wp_get, wp_ite]
  split
  · rename_i hfd
    have hs : cfg.Slot r p := ⟨hr, hp⟩
    rw [wp_bind]
    refine readNothing_spec fun count hcount => ?_
    have h0 : count = 0 := by
      refine hcount (id r p) ?_
      rw [hw.fdIn_eq hs ((hw.fdIn_ne_zero hs).mp hfd)]
      exact hw.rd r p hs
    rw [wp_modify]
    refine setVot_self ?_
    rw [h0, ← (hv r p).1]
  · rfl

/-- **`initVoterD` reaches the main loop, with everything connected and nothing queued.** -/
theorem initVoterD_spec {b : Voter} {E : Stop → Prop} (hb : Boot cfg b) :
    wp (initVoterD cfg env)
      (fun _ v => Fresh cfg v ∧ ∀ p, (v.extPipes p).fdIn = (b.extPipes p).fdIn) E b := by
  have hopen : ∀ fd, b.kernel.lookup fd ≠ none →
      ∃ e, (b.kernel.open .other).2.lookup fd = some e ∧ e.old b.kernel.pipes := by
    intro fd hfd
    obtain ⟨e, he⟩ := Option.ne_none_iff_exists'.mp hfd
    refine ⟨e, Kernel.lookup_open_of_open he, ?_⟩
    cases e with
    | readEnd id => exact hb.ends fd id (Or.inl he)
    | writeEnd id => exact hb.ends fd id (Or.inr he)
    | other => trivial
  unfold initVoterD createFDS
  rw [wp_bind, wp_modify, wp_bind]
  refine (startReplicas_spec (v := { b with kernel := (b.kernel.open .other).2 })
    (fun i => by rw [hb.replicas])
    (fun i p => by unfold Voter.vot; rw [hb.replicas]; exact ⟨rfl, rfl⟩) (hopen 0 hb.stdin)
    (fun p hp => ⟨hopen _ (hb.ext p hp).1, hopen _ (hb.ext p hp).2⟩)
    (Nat.le_refl _)).imp fun _ u hu => ?_
  obtain ⟨hout, hno, ⟨plan, id, hw⟩, hch⟩ := hu
  rw [wp_bind]
  refine touchExternals_spec.imp fun _ w ht => ?_
  have hvot : ∀ i p, w.vot i p = u.vot i p := fun i p => by
    unfold Voter.vot
    rw [ht.replicas]
  have hww : Wired cfg plan id w := hw.samePipes ht.kernel ht.ext fun i => by
    rw [ht.replicas]
    exact ⟨rfl, rfl, rfl, rfl⟩
  have hnw : NoVotes w := fun i p => by
    rw [hvot]
    exact hno i p
  refine (touchReplicas_spec hww hnw).imp fun _ v hv => ?_
  subst hv
  have hlog : v.log = { b.log with said := v.log.said, signals := v.log.signals } := by
    rw [ht.log]
    exact hout.log
  refine ⟨
    { timerStarted := ht.timerStarted.trans (hout.timerStarted.trans hb.timerStarted)
      lastDead := ht.lastDead.trans (hout.lastDead.trans hb.lastDead)
      noVotes := hnw
      wired := ⟨plan, id, hww⟩
      children := fun c hc => ?_
      log := by rw [hlog, hb.log]
      alarms := fun m hm hmem => ?_ }, fun p => ?_⟩
  · rw [ht.children] at hc
    rw [ht.replicas]
    refine (hch c hc).resolve_left ?_
    show c ∉ b.children
    rw [hb.children]
    simp
  · rw [ht.log] at hmem
    have := hout.alarms m hm hmem
    have hnil : m ∈ b.log.said := this
    rw [hb.log] at hnil
    simp at hnil
  · rw [(ht.ext p).1, hout.extPipes]

/-- **The state in which the main loop starts.** -/
theorem Started.fresh (h : Started cfg env v) : Fresh cfg v := by
  obtain ⟨b, hb, hrun⟩ := h
  exact ((initVoterD_spec (E := fun _ => True) hb).of_run hrun).1

/-- The state that `initVoterD` leaves. -/
def afterInit (cfg : Config) (env : Env) (b : Voter) : Voter :=
  match (initVoterD cfg env).run b with
  | .ok (_, v) => v
  | .error _ => b

/-- Every voter that is launched gets to its main loop. -/
theorem Boot.started {b : Voter} (hb : Boot cfg b) : Started cfg env (afterInit cfg env b) := by
  obtain ⟨_, v, hrun, -⟩ :=
    (initVoterD_spec hb : wp (initVoterD cfg env) _ _ b).exists_run
  refine ⟨b, hb, ?_⟩
  unfold afterInit
  rw [hrun]

end Init

/-! ## Launching -/

/-- The external pipes of a component: whether each is an input, and whether it is timed. -/
abbrev Pipes := List (Bool × Bool)

/-- External pipe `p` of a component, at descriptor `p + 1`. -/
def Pipes.ext (pipes : Pipes) (p : Nat) : VotePipe :=
  match pipes[p]? with
  | some (true, timed) => { fdIn := (p + 1 : Nat), timed }
  | some (false, timed) => { fdOut := (p + 1 : Nat), timed }
  | none => {}

/-- What `parseArgs` makes of a component and its other arguments. -/
def Pipes.config (pipes : Pipes) (repType : Replication) (votingTimeout voterPriority : Int) :
    Config where
  repType
  pipeCount := pipes.length
  timerStartIndex := (timerIndexes pipes.length pipes.ext).1
  timerStopIndex := (timerIndexes pipes.length pipes.ext).2
  votingTimeout
  voterPriority

/-- The ends of the external pipes, behind descriptor 0. -/
def Pipes.fds (pipes : Pipes) : DescriptorTable.Table PipeEnd :=
  some .other :: (List.range pipes.length).map fun p =>
    if (pipes.ext p).fdIn ≠ 0 then some (.readEnd p) else some (.writeEnd p)

/-- A component's voter as it is launched, with its external pipes open. -/
def Pipes.launch (pipes : Pipes) : Voter where
  extPipes := pipes.ext
  kernel := { fds := pipes.fds, pipes := pipes.length }

theorem Pipes.lookup_zero (pipes : Pipes) : pipes.launch.kernel.lookup 0 = some .other := rfl

theorem Pipes.lookup_succ (pipes : Pipes) {p : Nat} (hp : p < pipes.length) :
    pipes.launch.kernel.lookup ((p + 1 : Nat) : Int) =
      if (pipes.ext p).fdIn ≠ 0 then some (.readEnd p) else some (.writeEnd p) := by
  rw [Kernel.lookup_natCast]
  show DescriptorTable.lookup pipes.fds (p + 1) = _
  unfold DescriptorTable.lookup Pipes.fds
  rw [List.getD_cons_succ, List.getD_eq_getElem?_getD, List.getElem?_map,
    List.getElem?_range hp]
  rfl

/-- Each end of an external pipe is descriptor 0 or that of the pipe. -/
theorem Pipes.ext_fd (pipes : Pipes) (p : Nat) :
    ((pipes.ext p).fdIn = 0 ∨ (pipes.ext p).fdIn = ((p + 1 : Nat) : Int)) ∧
      ((pipes.ext p).fdOut = 0 ∨ (pipes.ext p).fdOut = ((p + 1 : Nat) : Int)) := by
  unfold Pipes.ext
  split
  · exact ⟨Or.inr rfl, Or.inl rfl⟩
  · exact ⟨Or.inl rfl, Or.inr rfl⟩
  · exact ⟨Or.inl rfl, Or.inl rfl⟩

/-- A descriptor beyond the external pipes is not open. -/
theorem Pipes.lookup_open (pipes : Pipes) {fd : Int} {e : PipeEnd}
    (h : pipes.launch.kernel.lookup fd = some e) :
    fd = 0 ∨ ∃ p, p < pipes.length ∧ fd = ((p + 1 : Nat) : Int) := by
  obtain ⟨x, rfl⟩ := Kernel.natCast_of_lookup h
  cases x with
  | zero => exact Or.inl rfl
  | succ p =>
    refine Or.inr ⟨p, ?_, rfl⟩
    by_contra hp
    rw [Kernel.lookup_natCast] at h
    have : DescriptorTable.lookup pipes.fds (p + 1) = none := by
      unfold DescriptorTable.lookup Pipes.fds
      rw [List.getD_cons_succ, List.getD_eq_getElem?_getD, List.getElem?_eq_none]
      · rfl
      · simpa using Nat.not_lt.mp hp
    rw [show DescriptorTable.lookup pipes.launch.kernel.fds (p + 1) = none from this] at h
    exact absurd h (by simp)

/-- **A launched voter is one that can start.** -/
theorem Pipes.boot (pipes : Pipes) (repType : Replication) (votingTimeout voterPriority : Int) :
    Boot (pipes.config repType votingTimeout voterPriority) pipes.launch where
  timerStarted := rfl
  lastDead := rfl
  replicas _ := rfl
  children := rfl
  log := rfl
  timers := rfl
  stdin := by
    rw [pipes.lookup_zero]
    simp
  ext p hp := by
    have hopen : ∀ fd, fd = 0 ∨ fd = ((p + 1 : Nat) : Int) →
        pipes.launch.kernel.lookup fd ≠ none := by
      rintro fd (rfl | rfl)
      · rw [pipes.lookup_zero]
        simp
      · rw [pipes.lookup_succ hp]
        split <;> simp
    exact ⟨hopen _ (pipes.ext_fd p).1, hopen _ (pipes.ext_fd p).2⟩
  ends fd id h := by
    have hsome : ∃ e, pipes.launch.kernel.lookup fd = some e := by
      rcases h with h | h
      · exact ⟨_, h⟩
      · exact ⟨_, h⟩
    obtain ⟨e, he⟩ := hsome
    rcases pipes.lookup_open he with rfl | ⟨p, hp, rfl⟩
    · rw [pipes.lookup_zero] at h
      simp at h
    · rw [pipes.lookup_succ hp] at h
      have : p = id := by
        split at h <;> simpa using h
      exact this ▸ hp

/-- The voter of a component, at the head of its main loop. -/
def Pipes.start (pipes : Pipes) (cfg : Config) (env : Env) : Voter :=
  afterInit cfg env pipes.launch

theorem Pipes.started (pipes : Pipes) {repType : Replication} {timeout priority : Int}
    {env : Env} : Started (pipes.config repType timeout priority) env
      (pipes.start (pipes.config repType timeout priority) env) :=
  (pipes.boot repType timeout priority).started

/-- The pipes of `Filter` in `all_tri.cfg`: timed range data in, timed and untimed range data
out. -/
def filterPipes : Pipes := [(true, true), (false, true), (false, false)]

/-- An environment in which nothing fails: reads take all there is, new processes are
numbered from 100 on, and the clock gains a microsecond with every question. -/
def Env.steady : Env where
  clock t := t
  schedOk _ _ _ := true
  waitpid _ := 0
  pid t := 100 + t
  readCount _ := 0

end Pint
