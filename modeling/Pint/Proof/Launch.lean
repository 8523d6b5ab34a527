import Pint.Program.CommandLine
import Pint.Proof.Plumbing
import Mathlib.Data.List.Forall2

/-!
# Pipe descriptions survive the launch chain

The plumber writes the pipes of a component on its command line, `VoterD` reads them back,
makes a kernel pipe for each replica and each of them, and tells the replica what they are.
Each link gets a lemma: `parsePipe_serializePipe` and `parseArgs_repArgv` for the command
line, `createPipes_typed` for the pipes. A pipe that has exactly one descriptor keeps its type,
its direction, its descriptor and its timed flag (`pipes_survive_launch`).

One descriptor is what the chain rests on. `serializePipe` prints one of the two numbers and 0 for
the other, `createPipes` looks at `fd_in` alone to know the direction, and 0 stands for no
descriptor throughout; so a pipe with both ends would lose one on the way, and one whose
descriptor is 0 would be lost. That `pipe` never answers 0 in the voter is because its standard
input is open, and stays so while the pipes are made (`Made`).
-/

namespace Pint

open Prog Scan

/-! ## Texts -/

theorem commToEnum_messageT (type : CommMessage) : commToEnum (messageT type) = type := by
  cases type <;> decide

theorem reptypeToEnum_repTypeT (r : Replication) : reptypeToEnum (repTypeT r) = r := by
  cases r <;> decide

/-- The name of a type is a word without a separator. -/
theorem messageT_word (type : CommMessage) :
    (messageT type).toList ≠ [] ∧ ':' ∉ (messageT type).toList := by
  cases type <;> decide

/-- Exactly one descriptor is set. -/
def TypedPipe.OneEnd (pipe : TypedPipe) : Prop :=
  (pipe.fdIn = 0 ∧ pipe.fdOut ≠ 0) ∨ (pipe.fdIn ≠ 0 ∧ pipe.fdOut = 0)

/-- With one descriptor the two branches of `serializePipe` write the same. -/
theorem TypedPipe.OneEnd.serializePipe_eq {pipe : TypedPipe} (h : pipe.OneEnd) :
    serializePipe pipe
      = (messageT pipe.type).toList ++ printInts ':' [pipe.fdIn, pipe.fdOut] := by
  unfold serializePipe
  rcases h with ⟨hin, -⟩ | ⟨hin, hout⟩
  · rw [if_pos hin, hin]
  · rw [if_neg hin, hout]

/-- The first word of a description. -/
theorem scanNot_messageT (type : CommMessage) {x : Int} {xs : List Int} :
    scanNot ':' ((messageT type).toList ++ printInts ':' (x :: xs))
      = some ((messageT type).toList, printInts ':' (x :: xs)) :=
  scanNot_append (messageT_word type).1 (messageT_word type).2

/-- **An unreplicated component gets its pipes as they are.** -/
theorem deserializePipe_serializePipe {pipe : TypedPipe} (h : pipe.OneEnd) :
    deserializePipe (serializePipe pipe) = .ok pipe := by
  unfold deserializePipe
  rw [h.serializePipe_eq, scanNot_messageT]
  dsimp only
  have hints : scanInts ':' 2 (printInts ':' [pipe.fdIn, pipe.fdOut]) = [pipe.fdIn, pipe.fdOut] :=
    scanInts_printInts (by decide) rfl
  rw [hints, String.ofList_toList, commToEnum_messageT]
  rfl

/-- What the voter records of a pipe. -/
def extPipeOf (p : TypedPipe × Bool) : VotePipe :=
  { repInfo := messageT p.1.type, fdIn := p.1.fdIn, fdOut := p.1.fdOut, timed := p.2 }

/-- `%d` of a flag. -/
def flag (b : Bool) : Int := if b then 1 else 0

theorem printInts_append (c : Char) (xs ys : List Int) :
    printInts c (xs ++ ys) = printInts c xs ++ printInts c ys := List.flatMap_append

theorem parsePipe_serializePipe {p : TypedPipe × Bool} (h : p.1.OneEnd) :
    parsePipe (serializePipe p.1 ++ printInts ':' [flag p.2]) = .ok (extPipeOf p) := by
  unfold parsePipe
  have hints : scanInts ':' 3 (printInts ':' [p.1.fdIn, p.1.fdOut, flag p.2])
      = [p.1.fdIn, p.1.fdOut, flag p.2] := scanInts_printInts (by decide) rfl
  rw [h.serializePipe_eq, List.append_assoc, ← printInts_append, List.cons_append,
    List.singleton_append, scanNot_messageT]
  dsimp only
  rw [hints, String.ofList_toList]
  unfold extPipeOf flag
  cases p.2 <;> rfl

/-! ## Command lines -/

/-- The node holds these pipes, with their timed flags. -/
structure PlumberNode.Holds (curr : PlumberNode) (ps : List (TypedPipe × Bool)) : Prop where
  count : curr.pipeCount = ps.length
  limit : ps.length ≤ pipeLimit
  pipes : curr.pipes.size = pipeLimit
  timed : curr.timed.size = pipeLimit
  get : ∀ (i : Nat) (p : TypedPipe × Bool), ps[i]? = some p →
    curr.pipes.cells i = p.1 ∧ curr.timed.cells i = flag p.2

/-- The descriptions of the pipes from `i` on. -/
theorem pipeArgs_eq {curr : PlumberNode} {ps : List (TypedPipe × Bool)} (h : curr.Holds ps)
    (hrep : curr.repStrat ≠ .none) {n i : Nat} (hn : i + n = ps.length) :
    pipeArgs curr n i
      = .ok ((ps.drop i).map fun p => serializePipe p.1 ++ printInts ':' [flag p.2]) := by
  induction n generalizing i with
  | zero =>
    rw [List.drop_of_length_le (by omega)]
    rfl
  | succ n ih =>
    have hi : i < ps.length := by omega
    have hlimit := h.limit
    have hpipes := h.pipes
    have htimed := h.timed
    obtain ⟨hp, ht⟩ := h.get i ps[i] (List.getElem?_eq_getElem hi)
    have hgp : curr.pipes.get (i : Int) = .ok ps[i].1 := by
      rw [CArray.get, if_pos (by omega), hp]
    have hgt : curr.timed.get (i : Int) = .ok (flag ps[i].2) := by
      rw [CArray.get, if_pos (by omega), ht]
    have hnext : (i : Int) + 1 = ((i + 1 : Nat) : Int) := by omega
    have hrest := ih (i := i + 1) (by omega)
    rw [List.drop_eq_getElem_cons hi, List.map_cons]
    unfold pipeArgs
    simp only [hgp, hgt, hnext, hrest, if_neg hrep, bind, Except.bind, pure, Except.pure]

/-- Each description is parsed back. -/
theorem mapM_parsePipe {ps : List (TypedPipe × Bool)} (hone : ∀ p ∈ ps, p.1.OneEnd) :
    (ps.map fun p => serializePipe p.1 ++ printInts ':' [flag p.2]).mapM parsePipe
      = .ok (ps.map extPipeOf) := by
  induction ps with
  | nil => rfl
  | cons p ps ih =>
    rw [List.map_cons, List.mapM_cons, parsePipe_serializePipe (hone p List.mem_cons_self)]
    rw [ih fun q hq => hone q (List.mem_cons_of_mem p hq)]
    rfl

/-- **The voter reads the pipes that the plumber wrote.** -/
theorem parseArgs_repArgv {curr : PlumberNode} {ps : List (TypedPipe × Bool)}
    (h : curr.Holds ps) (hone : ∀ p ∈ ps, p.1.OneEnd) (hrep : curr.repStrat ≠ .none) :
    ∃ argv cfg, repArgv curr = .ok argv ∧
      parseArgs argv = .ok (cfg, fun i => (ps.map extPipeOf).getD i {}) ∧
      cfg.repType = curr.repStrat ∧ cfg.pipeCount = ps.length := by
  have hargs := pipeArgs_eq h hrep (n := ps.length) (i := 0) (Nat.zero_add _)
  rw [List.drop_zero, Nat.cast_zero] at hargs
  have hcount : curr.pipeCount.toNat = ps.length := by
    have := h.count
    omega
  have htake : ((ps.map fun p => serializePipe p.1 ++ printInts ':' [flag p.2]).take pipeLimit)
      = ps.map fun p => serializePipe p.1 ++ printInts ':' [flag p.2] :=
    List.take_of_length_le (by rw [List.length_map]; exact h.limit)
  have hargv : repArgv curr = .ok (curr.voterName :: curr.value
      :: (repTypeT curr.repStrat).toList :: curr.voterTimer :: curr.priority
      :: ps.map fun p => serializePipe p.1 ++ printInts ':' [flag p.2]) := by
    unfold repArgv
    simp only [hcount, hargs, bind, Except.bind, if_neg hrep]
    rfl
  refine ⟨_, {
    controllerName := String.ofList curr.value
    repType := curr.repStrat
    pipeCount := (ps.map extPipeOf).length
    timerStartIndex := (timerIndexes (ps.map extPipeOf).length
      fun i => (ps.map extPipeOf).getD i {}).1
    timerStopIndex := (timerIndexes (ps.map extPipeOf).length
      fun i => (ps.map extPipeOf).getD i {}).2
    votingTimeout := if atoi curr.voterTimer = 0 then periodUsec else atoi curr.voterTimer
    voterPriority := atoi curr.priority }, hargv, ?_, rfl, List.length_map _⟩
  unfold parseArgs
  simp only [htake, mapM_parsePipe hone, bind, Except.bind, String.ofList_toList,
    reptypeToEnum_repTypeT]
  rfl

/-! ## Pipes of the replicas -/

/-- The replica's end of a pipe is of the type of the external pipe, and goes the same way. -/
structure SameKind (ext rep : VotePipe) : Prop where
  repInfo : rep.repInfo = ext.repInfo
  fdIn : rep.fdIn ≠ 0 ↔ ext.fdIn ≠ 0
  fdOut : rep.fdOut ≠ 0 ↔ ext.fdIn = 0

section CreatePipes

variable {v : Voter} {ext : Nat → VotePipe} {E : Stop → Prop}

/-- While the pipes are made: the slots in `D` are done. -/
structure Made (ext : Nat → VotePipe) (D : Nat → Nat → Prop) (v : Voter) : Prop where
  extPipes : v.extPipes = ext
  stdin : v.kernel.lookup 0 ≠ none
  sameKind : ∀ i p, D i p → SameKind (ext p) ((v.replicas i).repPipes p)

/-- Descriptor 0 is open, so neither end of a new pipe gets that number. -/
theorem next_ne_zero (h : v.kernel.lookup 0 ≠ none) :
    (v.kernel.rdNext : Int) ≠ 0 ∧ (v.kernel.wrNext : Int) ≠ 0 := by
  constructor
  · intro hz
    have hfree := v.kernel.lookup_rdNext
    rw [hz] at hfree
    exact h hfree
  · intro hz
    have hfree := v.kernel.lookup_wrNext
    rw [hz] at hfree
    exact h hfree

theorem piped_sameKind {i p : Nat} (h : v.kernel.lookup 0 ≠ none) :
    SameKind (v.extPipes p) (((v.piped i p).replicas i).repPipes p) := by
  obtain ⟨hrd, hwr⟩ := next_ne_zero h
  unfold Voter.piped
  dsimp only
  by_cases hin : (v.extPipes p).fdIn ≠ 0
  · rw [if_pos hin]
    simp only [Voter.setReplica, Function.update_self]
    exact ⟨rfl, iff_of_true hrd hin, iff_of_false (by simp) hin⟩
  · rw [if_neg hin]
    simp only [Voter.setReplica, Function.update_self]
    exact ⟨rfl, iff_of_false (by simp) hin, iff_of_true hwr (not_not.mp hin)⟩

theorem Made.piped {D : Nat → Nat → Prop} {i p : Nat} (h : Made ext D v) :
    Made ext (fun j q => D j q ∨ (j = i ∧ q = p)) (v.piped i p) where
  extPipes := piped_outside.extPipes.trans h.extPipes
  stdin := by
    obtain ⟨e, he⟩ := Option.ne_none_iff_exists'.mp h.stdin
    rw [piped_kernel, Kernel.lookup_piped_of_open he]
    simp
  sameKind j q hD := by
    by_cases hjq : j = i ∧ q = p
    · obtain ⟨rfl, rfl⟩ := hjq
      rw [← h.extPipes]
      exact piped_sameKind h.stdin
    · rw [(piped_slot_ne hjq).2.1]
      exact h.sameKind j q (hD.resolve_right hjq)

theorem Made.mono {D D' : Nat → Nat → Prop} (h : Made ext D v) (hD : ∀ i p, D' i p → D i p) :
    Made ext D' v := ⟨h.extPipes, h.stdin, fun i p hi => h.sameKind i p (hD i p hi)⟩

/-- The inner loop of `createPipes`, over the pipes of replica `n`. -/
theorem createPipe_loop {D : Nat → Nat → Prop} {n pipeCount : Nat} (h : Made ext D v)
    (h0 : (v.replicas n).pipeCount = 0) :
    wp (loop pipeCount (createPipe n)) (fun _ v' =>
      Made ext (fun j q => D j q ∨ (j = n ∧ q < pipeCount)) v' ∧
      (v'.replicas n).pipeCount = pipeCount ∧ ∀ j, j ≠ n → v'.replicas j = v.replicas j) E v := by
  refine wp_loop (fun m u => Made ext (fun j q => D j q ∨ (j = n ∧ q < m)) u ∧
    (u.replicas n).pipeCount = m ∧ ∀ j, j ≠ n → u.replicas j = v.replicas j)
    ⟨h.mono fun i p hc => hc.resolve_right (by simp), h0, fun _ _ => rfl⟩ ?_
  rintro m u - ⟨hu, -, hother⟩
  rw [wp_createPipe]
  refine ⟨(hu.piped (i := n) (p := m)).mono fun _ _ => slot_succ, piped_pipeCount, fun j hj => ?_⟩
  rw [piped_replicas_ne hj]
  exact hother j hj

/-- **Every replica gets an end of the right kind for every pipe.** -/
theorem createPipes_typed {num pipeCount : Nat} (hext : v.extPipes = ext)
    (hstdin : v.kernel.lookup 0 ≠ none) (h0 : ∀ i, (v.replicas i).pipeCount = 0) :
    wp (createPipes 0 num pipeCount) (fun _ v' =>
      Made ext (fun i p => i < num ∧ p < pipeCount) v' ∧
      ∀ i, i < num → (v'.replicas i).pipeCount = pipeCount) E v := by
  unfold createPipes
  refine (wp_loop (fun n u => Made ext (fun i p => i < n ∧ p < pipeCount) u ∧
      (∀ i, i < n → (u.replicas i).pipeCount = pipeCount) ∧
      ∀ i, n ≤ i → (u.replicas i).pipeCount = 0)
    ⟨⟨hext, hstdin, fun i p hc => absurd hc.1 (by simp)⟩, fun i hi => absurd hi (by simp),
      fun i _ => h0 i⟩ ?_).imp fun _ v' hv' => ⟨hv'.1, hv'.2.1⟩
  rintro n u - ⟨hu, hdone, hrest⟩
  rw [Nat.zero_add]
  refine (createPipe_loop hu (hrest n (Nat.le_refl n))).imp ?_
  rintro _ w ⟨hw, hcount, hother⟩
  refine ⟨hw.mono ?_, fun i hi => ?_, fun i hi => ?_⟩
  · rintro i p ⟨hi, hp⟩
    rcases Nat.lt_succ_iff_lt_or_eq.mp hi with hlt | rfl
    · exact Or.inl ⟨hlt, hp⟩
    · exact Or.inr ⟨rfl, hp⟩
  · rcases Nat.lt_succ_iff_lt_or_eq.mp hi with hlt | rfl
    · rw [hother i (Nat.ne_of_lt hlt)]
      exact hdone i hlt
    · exact hcount
  · rw [hother i (by omega)]
    exact hrest i (Nat.le_of_succ_le hi)

end CreatePipes

/-! ## The chain -/

/-- The same type, and the same direction. -/
structure SameEnd (sent got : TypedPipe) : Prop where
  type : got.type = sent.type
  fdIn : got.fdIn ≠ 0 ↔ sent.fdIn ≠ 0
  fdOut : got.fdOut ≠ 0 ↔ sent.fdOut ≠ 0

/-- **Pipe descriptions survive the whole launch chain.** For a replicated component with at
most `PIPE_LIMIT` pipes, each with one descriptor: `VoterD` parses the command line of the
plumber, its external pipes carry the descriptors and the timed flags, and every replica is
told of as many pipes, in the same order, with the same types and directions (descriptor 0 of
the voter is open, so that `pipe` never answers 0). An unreplicated component gets the pipes
themselves. -/
theorem pipes_survive_launch :
    (∀ pipe : TypedPipe, pipe.OneEnd → deserializePipe (serializePipe pipe) = .ok pipe) ∧
    ∀ (curr : PlumberNode) (ps : List (TypedPipe × Bool)), curr.Holds ps →
      (∀ p ∈ ps, p.1.OneEnd) → curr.repStrat ≠ .none →
      ∃ argv cfg ext, repArgv curr = .ok argv ∧ parseArgs argv = .ok (cfg, ext) ∧
        cfg.repType = curr.repStrat ∧ cfg.pipeCount = ps.length ∧
        (∀ (i : Nat) (p : TypedPipe × Bool), ps[i]? = some p →
          (ext i).fdIn = p.1.fdIn ∧ (ext i).fdOut = p.1.fdOut ∧ (ext i).timed = p.2) ∧
        ∀ v : Voter, v.extPipes = ext → v.kernel.lookup 0 ≠ none →
          (∀ i, (v.replicas i).pipeCount = 0) →
          ∃ v', (createPipes 0 cfg.repCount cfg.pipeCount).run v = .ok ((), v') ∧
            v'.extPipes = ext ∧
            ∀ r, r < cfg.repCount → List.Forall₂ SameEnd (ps.map Prod.fst)
              (convertVoteToTyped (v'.replicas r).repPipes (v'.replicas r).pipeCount) := by
  refine ⟨fun pipe h => deserializePipe_serializePipe h, ?_⟩
  intro curr ps hholds hone hrep
  obtain ⟨argv, cfg, hargv, hparse, htype, hcount⟩ := parseArgs_repArgv hholds hone hrep
  have hget : ∀ (i : Nat) (p : TypedPipe × Bool), ps[i]? = some p →
      (ps.map extPipeOf).getD i {} = extPipeOf p := by
    intro i p hp
    rw [List.getD_eq_getElem?_getD, List.getElem?_map, hp]
    rfl
  refine ⟨argv, cfg, _, hargv, hparse, htype, hcount, ?_, ?_⟩
  · intro i p hp
    rw [hget i p hp]
    exact ⟨rfl, rfl, rfl⟩
  · intro v hext hstdin h0
    obtain ⟨⟨⟩, v', hrun, hmade, hcounts⟩ :=
      (createPipes_typed hext hstdin h0 :
        wp (createPipes 0 cfg.repCount cfg.pipeCount) _ _ v).exists_run
    refine ⟨v', hrun, hmade.extPipes, fun r hr => ?_⟩
    rw [hcounts r hr, hcount]
    -- Pipe by pipe: which end it has was read off `fd_in` each time.
    refine List.forall₂_iff_get.mpr ⟨by simp [convertVoteToTyped], fun i hi hi' => ?_⟩
    rw [List.length_map] at hi
    have hkind := hmade.sameKind r i ⟨hr, by omega⟩
    have hp := List.getElem?_eq_getElem hi
    rw [hget i ps[i] hp] at hkind
    have hone' := hone ps[i] (List.getElem_mem hi)
    simp only [convertVoteToTyped, List.get_eq_getElem, List.getElem_map, List.getElem_range]
    refine ⟨?_, hkind.fdIn, hkind.fdOut.trans ?_⟩
    · rw [hkind.repInfo]
      exact commToEnum_messageT _
    · show ps[i].1.fdIn = 0 ↔ _
      rcases hone' with ⟨hin, hout⟩ | ⟨hin, hout⟩
      · exact iff_of_true hin hout
      · exact iff_of_false hin (not_not.mpr hout)

/-- A replicated `Filter`: a timed input, a timed output and one more output. -/
def filterNode : PlumberNode where
  name := "filter".toList
  value := "Filter".toList
  priority := "80".toList
  repStrat := .tmr
  voterName := "VoterD".toList
  voterTimer := "400".toList
  pipeCount := 3
  timed := ⟨pipeLimit, fun i => if i < 2 then 1 else 0⟩
  pipes := ⟨pipeLimit, fun i => if i = 0 then ⟨.rangePoseData, 5, 0⟩
    else if i = 1 then ⟨.rangePoseData, 0, 6⟩ else ⟨.msgBuffer, 0, -1⟩⟩

theorem pipes_survive_launch_filter :
    deserializePipe (serializePipe ⟨.mapUpdate, 0, -5⟩) = .ok ⟨.mapUpdate, 0, -5⟩ ∧
    ∃ argv cfg ext v', repArgv filterNode = .ok argv ∧ parseArgs argv = .ok (cfg, ext) ∧
      (ext 1).fdOut = 6 ∧ (ext 1).timed = true ∧
      (createPipes 0 cfg.repCount cfg.pipeCount).run
        { extPipes := ext, kernel := { fds := [some .other] } } = .ok ((), v') ∧
      List.Forall₂ SameEnd [⟨.rangePoseData, 5, 0⟩, ⟨.rangePoseData, 0, 6⟩, ⟨.msgBuffer, 0, -1⟩]
        (convertVoteToTyped (v'.replicas 2).repPipes (v'.replicas 2).pipeCount) := by
  obtain ⟨hplain, hchain⟩ := pipes_survive_launch
  refine ⟨hplain _ (Or.inl ⟨rfl, by decide⟩), ?_⟩
  have hholds : filterNode.Holds [(⟨.rangePoseData, 5, 0⟩, true), (⟨.rangePoseData, 0, 6⟩, true),
      (⟨.msgBuffer, 0, -1⟩, false)] := by
    refine ⟨rfl, by decide, rfl, rfl, fun i p hp => ?_⟩
    have hi : i < 3 := (List.getElem?_eq_some_iff.mp hp).1
    have hcases : i = 0 ∨ i = 1 ∨ i = 2 := by omega
    rcases hcases with rfl | rfl | rfl <;> obtain rfl := Option.some.inj hp <;> exact ⟨rfl, rfl⟩
  have hone : ∀ p ∈ [((⟨.rangePoseData, 5, 0⟩ : TypedPipe), true), (⟨.rangePoseData, 0, 6⟩, true),
      (⟨.msgBuffer, 0, -1⟩, false)], p.1.OneEnd := by
    unfold TypedPipe.OneEnd
    decide
  obtain ⟨argv, cfg, ext, hargv, hparse, htype, -, hext, hpipes⟩ :=
    hchain filterNode _ hholds hone (by decide)
  obtain ⟨-, hout, htimed⟩ := hext 1 _ rfl
  obtain ⟨v', hrun, -, hends⟩ := hpipes { extPipes := ext, kernel := { fds := [some .other] } } rfl
    (fun h => Option.some_ne_none _ h) fun _ => rfl
  refine ⟨argv, cfg, ext, v', hargv, hparse, hout, htimed, hrun, hends 2 ?_⟩
  unfold Config.repCount
  rw [htype]
  decide

end Pint
