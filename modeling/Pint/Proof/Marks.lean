import Pint.Proof.Loop
import Pint.Proof.InFlight
import Mathlib.Data.List.Nodup

/-!
# Stale marks

`select` marks the descriptors that have unread data, and the loops of `doOneUpdate` then
read them one after the other. A read takes bytes only from its own pipe, so a mark stays
good until its turn comes, unless a vote in between restarts the replica: the new pipes get
the old descriptor numbers (`Plan`), the marks of the old ones are still in the set, and the
new pipes are empty.

`reads_find_bytes` says that this is the only way for a read to block. The invariant is
`GoodMarks`: behind each marked descriptor of a slot that the loops have still to come to, there
are bytes in flight. Each slot comes up once (`slots_nodup`), so a read uses up no mark but its
own; what is forwarded and what is written to the replicas takes nothing from these pipes; and
new bytes only help. What is left is the vote, and a vote empties the pipe of the replica that it
restarts and no other (`Voted.marks`).

A vote restarts the replica that it finds to be the minority, which depends on the buffers with
the bytes that this very read will add. So `NoStaleMark` speaks of the state before the read and
of the queues as they will be.
-/

namespace Pint

open Prog Voting

/-- The queues of pipe `p` once the read of replica `r` that is next has taken its bytes. -/
def Voter.arrived (v : Voter) (env : Env) (r p : Nat) : Nat → List Byte :=
  Function.update (fun i => v.queue i p) r (v.queue r p ++
    (v.inFlight r p).take (env.taken v.tick maxVotePipeBuff (v.inFlight r p)))

/-- No descriptor of replica `e` is marked among these slots. -/
def Unmarked (v : Voter) (ready : List Int) (rest : List (Nat × Nat)) (e : Nat) : Prop :=
  ∀ s ∈ rest, s.2 = e → (v.vot e s.1).fdIn ≠ 0 → (v.vot e s.1).fdIn ∉ ready

instance (v : Voter) (ready : List Int) (rest : List (Nat × Nat)) (e : Nat) :
    Decidable (Unmarked v ready rest e) :=
  inferInstanceAs (Decidable (∀ s ∈ rest, _))

/-- If the next turn reads replica `r` on pipe `p`, in TMR, and with the bytes that it takes
a replica is the minority, then that replica has no mark among the turns after it. -/
def NoStaleMark (cfg : Config) (env : Env) : Move → Machine → Prop
  | .go, ⟨.replicas ready ((p, r) :: rest), v⟩ =>
    cfg.repType = .tmr → (v.vot r p).fdIn ∈ ready → ∀ e, e < 3 →
      Minority (Voting.ready maxVotePipeBuff 3 (v.arrived env r p)) (v.arrived env r p) e →
        Unmarked v ready rest e
  | _, _ => True

instance (cfg : Config) (env : Env) : ∀ (mv : Move) (m : Machine),
    Decidable (NoStaleMark cfg env mv m)
  | .go, ⟨.replicas ready ((p, r) :: rest), v⟩ =>
    inferInstanceAs (Decidable (cfg.repType = .tmr → (v.vot r p).fdIn ∈ ready → ∀ e, e < 3 →
      Minority (Voting.ready maxVotePipeBuff 3 (v.arrived env r p)) (v.arrived env r p) e →
        Unmarked v ready rest e))
  | .go, ⟨.replicas _ [], _⟩ | .go, ⟨.top, _⟩ | .go, ⟨.atSelect _, _⟩ | .go, ⟨.externals _ _, _⟩
  | .deliver _ _, _ => .isTrue trivial

/-- Behind each marked descriptor of the slots there is something to read. -/
def Marks (v : Voter) (ready : List Int) (slots : List (Nat × Nat)) : Prop :=
  ∀ s ∈ slots, ¬ v.IsInput s.1 → (v.vot s.2 s.1).fdIn ∈ ready → v.inFlight s.2 s.1 ≠ []

/-- The marks that the loops have still to come to are good. -/
def GoodMarks (cfg : Config) (m : Machine) : Prop :=
  match m.pc with
  | .externals ready _ => Marks m.v ready (slots cfg)
  | .replicas ready rest => Marks m.v ready rest
  | _ => True

section Marks

variable {cfg : Config} {env : Env} {plan : Plan} {id id' : Nat → Nat → Nat} {v v' w : Voter}
  {p r : Nat} {ready : List Int} {l : List (Nat × Nat)}

/-- The marks stay good while the pipes of the slots keep their bytes. -/
theorem Marks.of_flight (h : Marks v ready l) (hs : Sound cfg plan id v)
    (hs' : Sound cfg plan id' v') (hslot : ∀ s ∈ l, cfg.Slot s.2 s.1)
    (hin : ∀ q, v'.IsInput q ↔ v.IsInput q)
    (hsame : ∀ s ∈ l, ¬ v.IsInput s.1 → (v.vot s.2 s.1).fdIn ∈ ready →
      v'.kernel.unread (id' s.2 s.1) = v.kernel.unread (id s.2 s.1)) : Marks v' ready l := by
  intro s hmem hout hready
  have hout' : ¬ v.IsInput s.1 := fun hc => hout ((hin s.1).mpr hc)
  -- The descriptor numbers are those of the plan, before and after.
  rw [hs'.wired.fdIn_eq (hslot s hmem) hout, ← hs.wired.fdIn_eq (hslot s hmem) hout'] at hready
  rw [hs'.inFlight_eq (hslot s hmem) hout, hsame s hmem hout' hready,
    ← hs.inFlight_eq (hslot s hmem) hout']
  exact h s hmem hout' hready

theorem Marks.mono (h : Marks v ready l) {l' : List (Nat × Nat)} (hsub : ∀ s ∈ l', s ∈ l) :
    Marks v ready l' := fun s hmem => h s (hsub s hmem)

/-- Bytes that arrive do not make a mark stale. -/
theorem Marks.deliver {k : Nat} {bytes : List Byte} (h : Marks v ready l) :
    Marks { v with kernel := v.kernel.deliver k bytes } ready l := by
  intro s hmem hout hready
  obtain ⟨x, hl, hne⟩ := Kernel.waiting_ne_nil.mp (h s hmem hout hready)
  refine Kernel.waiting_ne_nil.mpr ⟨x, hl, ?_⟩
  show Function.update v.kernel.unread k (v.kernel.unread k ++ bytes) x ≠ []
  by_cases hxk : x = k
  · rw [hxk, Function.update_self]
    rw [hxk] at hne
    exact List.append_ne_nil_of_left_ne_nil hne _
  · rw [Function.update_of_ne hxk]
    exact hne

/-- `sendPipe` takes nothing from the pipes of the replicas. -/
theorem Sent.sameFlight (h : Sent cfg p r v v') (hw : Wired cfg plan id v)
    (hp : p < cfg.pipeCount) : SameFlight cfg id v v' :=
  hw.sameFlight h.wrote fun _ hfd => Or.inr ⟨p, hp, hfd⟩

/-- After a vote everything is still in flight, except from a replica that was outvoted. -/
theorem Voted.marks (h : Sound cfg plan id w) (hp : p < cfg.pipeCount)
    (hout : ¬ w.IsInput p) (hv : Voted cfg plan id p w v') :
    ∃ id', Sound cfg plan id' v' ∧ (∀ q, v'.IsInput q ↔ w.IsInput q) ∧
      ∀ i q, cfg.Slot i q → ¬ w.IsInput q →
        ¬ (cfg.repType = .tmr ∧ Minority (w.ready cfg p) (fun i => w.queue i p) i) →
        v'.kernel.unread (id' i q) = w.kernel.unread (id i q) := by
  -- A vote that restarts nobody writes to one external pipe.
  have hsent : ∀ {u : Voter} {r : Nat}, Still w u → u.kernel = w.kernel → Sent cfg p r u v' →
      ∃ id', Sound cfg plan id' v' ∧ (∀ q, v'.IsInput q ↔ w.IsInput q) ∧
        ∀ i q, cfg.Slot i q → ¬ w.IsInput q →
          ¬ (cfg.repType = .tmr ∧ Minority (w.ready cfg p) (fun i => w.queue i p) i) →
          v'.kernel.unread (id' i q) = w.kernel.unread (id i q) := by
    intro u r hu hk hs
    have hin : ∀ q, v'.IsInput q ↔ w.IsInput q := fun q =>
      (hs.kept.isInput q).trans (hu.toKept.isInput q)
    refine ⟨id, (h.still hu).sent hp (fun hc => hout ((hu.toKept.isInput p).mp hc)) hs, hin,
      fun i q hiq hoq _ => ?_⟩
    rw [hs.sameFlight (h.still hu).wired hp i q hiq
      (fun hc => hoq ((hu.toKept.isInput q).mp hc)), hk]
  cases hv with
  | nothing _ hv =>
    subst hv
    exact ⟨id, h, fun _ => Iff.rfl, fun _ _ _ _ _ => rfl⟩
  | alone _ hs => exact hsent (Still.refl w) rfl hs
  | pair _ u hu hs =>
    rcases hu with rfl | rfl
    · exact hsent (Still.refl _) rfl hs
    · exact hsent (still_say w (by simp [Message.alarm])) rfl hs
  | three hmode _ hd =>
    have hn : cfg.repCount = 3 := by rw [cfg.repCount_eq, hmode]; rfl
    have hminor : ∀ e r, w.verdict cfg p = .outvoted e r →
        Minority (w.ready cfg p) (fun i => w.queue i p) e := by
      intro e r hverdict
      unfold Voter.verdict at hverdict
      rw [hn] at hverdict
      exact (verdict_outvoted_iff.mp hverdict).2
    generalize w.verdict cfg p = verdict at hd hminor
    cases hd with
    | noTwo hv =>
      subst hv
      exact ⟨id, h.still (still_say w (by simp [Message.alarm])), fun _ => Iff.rfl,
        fun _ _ _ _ _ => rfl⟩
    | unanimous hs => exact hsent (Still.refl w) rfl hs
    | @outvoted e r hr =>
      refine ⟨_, ⟨hr.wired, hr.lockstep⟩, fun q => ?_, fun i q hiq hoq hnot => ?_⟩
      · unfold Voter.IsInput
        rw [hr.extPipes]
      · have hie : i ≠ e := by
          rintro rfl
          exact hnot ⟨hmode, hminor _ _ rfl⟩
        rw [refilled_of_ne hie]
        exact hr.flight i q hiq hie hoq

/-- With the bytes that a read takes, the queues are those that the vote sees. -/
theorem Accepted.arrived (h : Sound cfg plan id v) (hs : cfg.Slot r p) (hout : ¬ v.IsInput p)
    (ha : Accepted cfg id r p (v.arriving env (id r p)) v w) :
    (fun i => w.queue i p) = v.arrived env r p := by
  funext i
  unfold Voter.arrived
  rw [h.inFlight_eq hs hout]
  by_cases hi : i = r
  · subst hi
    rw [Function.update_self]
    exact ha.queue
  · rw [Function.update_of_ne hi]
    unfold Voter.queue
    rw [ha.vot_ne i p fun hc => hi hc.1]

/-- One turn of the loops over the replicas. -/
theorem Marks.processed {rest : List (Nat × Nat)} (h : Marks v ready ((p, r) :: rest))
    (hs : Sound cfg plan id v) (hslot : ∀ s ∈ (p, r) :: rest, cfg.Slot s.2 s.1)
    (hnd : ((p, r) :: rest).Nodup) (hmem : (v.vot r p).fdIn ∈ ready) (hout : ¬ v.IsInput p)
    (hno : NoStaleMark cfg env .go ⟨.replicas ready ((p, r) :: rest), v⟩)
    (hp : Processed cfg env plan id r p v v') : Marks v' ready rest := by
  have hrp : cfg.Slot r p := hslot _ List.mem_cons_self
  have hslot' : ∀ s ∈ rest, cfg.Slot s.2 s.1 := fun s hm => hslot s (List.mem_cons_of_mem _ hm)
  have hne : ∀ s ∈ rest, ¬ (s.2 = r ∧ s.1 = p) := by
    rintro ⟨q, i⟩ hm ⟨rfl, rfl⟩
    exact (List.nodup_cons.mp hnd).1 hm
  have hrest := h.mono fun s hm => List.mem_cons_of_mem (p, r) hm
  cases hp with
  | refused _ hstill hf =>
    exact hrest.of_flight hs (hs.still hstill) hslot' hstill.toKept.isInput
      fun s hm ho _ => hf s.2 s.1 (hslot' s hm) ho (hne s hm)
  | voted _ w hw hv =>
    have hsw : Sound cfg plan id w := ⟨hs.wired.kept hw.kept, hw.lockstep⟩
    have hin := hw.kept.isInput
    have hmarks : Marks w ready rest := hrest.of_flight hs hsw hslot' hin
      fun s hm ho _ => hw.flight s.2 s.1 (hslot' s hm) ho (hne s hm)
    obtain ⟨id', hs', hin', hflight⟩ := hv.marks hsw hrp.2
      (fun hc => hout ((hin p).mp hc))
    refine hmarks.of_flight hsw hs' hslot' hin' fun s hm ho hready =>
      hflight s.2 s.1 (hslot' s hm) ho ?_
    -- A mark of the replica that is the minority was excluded.
    rintro ⟨hmode, hminor⟩
    have hn : cfg.repCount = 3 := by rw [cfg.repCount_eq, hmode]; rfl
    have hov : ¬ v.IsInput s.1 := fun hc => ho ((hin s.1).mpr hc)
    have hfd : (w.vot s.2 s.1).fdIn = (v.vot s.2 s.1).fdIn := (hw.kept.fd s.2 s.1).1
    unfold Voter.ready at hminor
    rw [hw.arrived hs hrp hout, hn] at hminor
    rw [hfd] at hready
    exact hno hmode hmem s.2 hminor.1 hminor s hm rfl
      ((hs.wired.fdIn_ne_zero (hslot' s hm)).mpr hov) hready

theorem slots_nodup (cfg : Config) : (slots cfg).Nodup := by
  unfold slots
  rw [List.nodup_flatMap]
  refine ⟨fun p _ => List.nodup_range.map fun i j hij => (Prod.mk.inj hij).2, ?_⟩
  refine List.nodup_range.imp fun {p q} hpq => ?_
  intro s hs hs'
  obtain ⟨i, -, rfl⟩ := List.mem_map.mp hs
  obtain ⟨j, -, hj⟩ := List.mem_map.mp hs'
  exact hpq (Prod.mk.inj hj).1.symm

/-- The step lemma. -/
theorem Stepped.goodMarks {m m' : Machine} {mv : Move} (h : GoodMarks cfg m)
    (hs : Sound cfg plan id m.v) (hpc : m.pc.Within cfg) (hno : NoStaleMark cfg env mv m)
    (hst : Stepped cfg env plan id m mv m') : GoodMarks cfg m' := by
  cases hst with
  | @deliver pc v k bytes =>
    cases pc with
    | externals _ _ => exact Marks.deliver h
    | replicas _ _ => exact Marks.deliver h
    | top => trivial
    | atSelect _ => trivial
  | updated _ => trivial
  | @selected v watched ready hready =>
    intro s _ _ hmem
    rw [hready] at hmem
    exact of_decide_eq_true (List.mem_filter.mp hmem).2
  | woken => trivial
  | external ha hf _ =>
    exact Marks.of_flight h hs (hs.armed ha) (fun s hm => mem_slots.mp hm) ha.kept.isInput
      fun s hm ho _ => hf s.2 s.1 (mem_slots.mp hm) ho
  | externalsDone => exact h
  | skipped => exact Marks.mono h fun s hm => List.mem_cons_of_mem _ hm
  | served _ hout hmem hp =>
    have hsub : _ <:+ slots cfg := hpc
    exact Marks.processed h hs (fun s hm => mem_slots.mp (hsub.subset hm))
      ((slots_nodup cfg).sublist hsub.sublist) hmem hout hno hp
  | replicasDone => trivial

/-- **When a read of a replica never blocks.** In a run in which no vote restarts a replica
that has a mark still to come, every read in the loops of `doOneUpdate` finds at least one
byte, and the voter goes on. The mark of such a replica stands for one of its old pipes, and the
new pipe that got the same number is empty. -/
theorem reads_find_bytes {v₀ : Voter} {moves : List Move} {m : Machine}
    {rest : List (Nat × Nat)} (hmode : cfg.Voting) (hstart : Started cfg env v₀)
    (hmeet : AllMeet (Machine.step cfg env) (NoStaleMark cfg env) moves ⟨.top, v₀⟩)
    (hrun : runAll (Machine.step cfg env) moves ⟨.top, v₀⟩ = .ok m)
    (hpc : m.pc = .replicas ready ((p, r) :: rest)) :
    ((m.v.vot r p).fdIn ≠ 0 → (m.v.vot r p).fdIn ∈ ready → m.v.inFlight r p ≠ []) ∧
      ∃ m', m.step cfg env .go = .ok m' := by
  obtain ⟨plan, h₀⟩ := hstart.running
  -- Every mark behind the counter is for a pipe with bytes in it, as long as no step leaves a
  -- stale one.
  obtain ⟨hm, hmarks⟩ := runAll.invariant_of_meets
    (I := fun u => Running cfg plan u ∧ GoodMarks cfg u)
    (fun mv u u' hu hno hstep => by
      obtain ⟨id, hs, hst, hu'⟩ := hu.1.stepped hmode hstep
      exact ⟨hu', hst.goodMarks hu.2 hs hu.1.within hno⟩)
    ⟨h₀, trivial⟩ hmeet hrun
  obtain ⟨id, hs⟩ := hm.sound
  have hwithin := hm.within
  obtain ⟨pc, v⟩ := m
  obtain rfl : pc = _ := hpc
  have hslot : cfg.Slot r p := mem_slots.mp (List.IsSuffix.subset hwithin List.mem_cons_self)
  have hfind : (v.vot r p).fdIn ≠ 0 → (v.vot r p).fdIn ∈ ready → v.inFlight r p ≠ [] :=
    fun hfd hmem => hmarks (p, r) List.mem_cons_self ((hs.wired.fdIn_ne_zero hslot).mp hfd) hmem
  refine ⟨hfind, ?_⟩
  cases hgo : Machine.go cfg env ⟨.replicas ready ((p, r) :: rest), v⟩ with
  | ok m' => exact ⟨m', hgo⟩
  | error stop =>
    obtain ⟨-, hout, hmem, hnil⟩ := Machine.go_replicas_error hs hslot hgo
    refine absurd ?_ (hfind ((hs.wired.fdIn_ne_zero hslot).mpr hout) hmem)
    rw [hs.inFlight_eq hslot hout]
    exact hnil

/-- The third replica of `Filter` is outvoted on the timed output and restarted; the second
has written to the other output, too, and is read after that. -/
def outvotedRead : List Move :=
  gos 1 ++ [.deliver 4 [7], .deliver 7 [7], .deliver 10 [9], .deliver 8 [5]] ++ gos 12

theorem reads_find_bytes_filter :
    ∃ m, runAll (Machine.step (filterPipes.config .tmr 400 80) .steady) outvotedRead
        ⟨.top, filterPipes.start (filterPipes.config .tmr 400 80) .steady⟩ = .ok m ∧
      m.v.log.restarts = [(2, 0)] ∧ m.pc = .replicas [7, 13, 19, 15] [(2, 1), (2, 2)] ∧
      ∃ m', m.step (filterPipes.config .tmr 400 80) .steady .go = .ok m' := by
  have hrun := eq_ended (d := ⟨.top, {}⟩)
    (r := runAll (Machine.step (filterPipes.config .tmr 400 80) .steady) outvotedRead
      ⟨.top, filterPipes.start (filterPipes.config .tmr 400 80) .steady⟩) (by decide +kernel)
  have hpc : (ended (runAll (Machine.step (filterPipes.config .tmr 400 80) .steady) outvotedRead
      ⟨.top, filterPipes.start (filterPipes.config .tmr 400 80) .steady⟩) ⟨.top, {}⟩).pc
      = .replicas [7, 13, 19, 15] [(2, 1), (2, 2)] := by decide +kernel
  refine ⟨_, hrun, by decide +kernel, hpc, ?_⟩
  exact (reads_find_bytes (Or.inr (Or.inr rfl)) filterPipes.started (by decide +kernel) hrun
    hpc).2

/-- The third replica itself has written to the other output before it is outvoted. Its new
pipe has the descriptor that was marked, and is empty: the voter blocks. -/
def staleRead : List Move :=
  gos 1 ++ [.deliver 4 [7], .deliver 7 [7], .deliver 10 [9], .deliver 11 [5]] ++ gos 13

theorem stale_mark_blocks :
    ∃ m, runAll (Machine.step (filterPipes.config .tmr 400 80) .steady) staleRead
        ⟨.top, filterPipes.start (filterPipes.config .tmr 400 80) .steady⟩ = .ok m ∧
      m.pc = .replicas [7, 13, 19, 21] [(2, 2)] ∧ (m.v.vot 2 2).fdIn = 21 ∧
      m.v.inFlight 2 2 = [] ∧
      refusal (m.step (filterPipes.config .tmr 400 80) .steady .go) = some .blocked := by
  have hrun := eq_ended (d := ⟨.top, {}⟩)
    (r := runAll (Machine.step (filterPipes.config .tmr 400 80) .steady) staleRead
      ⟨.top, filterPipes.start (filterPipes.config .tmr 400 80) .steady⟩) (by decide +kernel)
  exact ⟨_, hrun, by decide +kernel, by decide +kernel, by decide +kernel, by decide +kernel⟩

end Marks

end Pint
