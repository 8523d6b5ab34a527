import Pint.Program.Controllers
import Pint.Program.Grammar
import Pint.Proof.CleanMemory
import Pint.Proof.Graph
import Pint.Proof.Parsing
import Pint.Proof.Rejecting

/-!
# From the text of a configuration to the pipes of the components

`Built` says which pipes a node has. What else is in a node is its declaration, and the nodes
come in the order of the declarations: `Laid` is the invariant that says this of the statements
so far. With the command line of each node (`launchNode_eq`), and what a controller or a voter
makes of it, the pipes of a component are the ends that the text describes.

The way from the text to the replicas has five stations, each a theorem of its own that is only
put to use here:

* the text is a layout of tokens (`Lexer.yylex_eq_iff`),
* the tokens are lines of statements (`Line.statements_eq`),
* the statements describe a graph, and the nodes hold its ends (`Built`, `described_isGraph`),
* the chain of nodes in clean memory is the list of nodes (`Plumbing.main_eq`),
* a command line that was written is read back (`readsPipes`, `runsVoter`).

Numbers are read back as `atoi` reads them, so the timer and the priority of a voter are those
that were declared only if they are values of an `int`. What the components then do with their
pipes is not said here.
-/

namespace Pint

open Prog Plumber Grammar
open Scan (Text)

/-! ## Declarations -/

/-- The node that a declaration makes, without its pipes. -/
def Statement.node : Statement → Option PlumberNode
  | .component name value priority =>
    some { name, value, priority, repStrat := .none, voterName := [], voterTimer := [] }
  | .replicated name value repStrat voterTimer priority =>
    some { name, value, priority, repStrat, voterName := "VoterD".toList, voterTimer }
  | _ => none

/-- A node without its pipes. -/
def PlumberNode.bare (n : PlumberNode) : PlumberNode :=
  { name := n.name, value := n.value, priority := n.priority, repStrat := n.repStrat,
    voterName := n.voterName, voterTimer := n.voterTimer }

/-- The nodes that these statements declare, without their pipes. -/
def declaredNodes (config : List Statement) : List PlumberNode :=
  config.filterMap Statement.node

/-- The nodes are those that were declared, in order. -/
def Laid (config : List Statement) (s : Plumber) : Prop :=
  s.nodes.map PlumberNode.bare = declaredNodes config

section Laid

variable {pipe : PipeCalls} {config : List Statement} {s : Plumber} {st : Statement}
  {E : Fault → Prop}

theorem bare_fillSlot {n n' : PlumberNode} {p : TypedPipe} {timed : Bool}
    (h : n.fillSlot p timed = .ok n') : n'.bare = n.bare := by
  unfold PlumberNode.fillSlot at h
  cases hp : n.pipes.set n.pipeCount p with
  | error e =>
    rw [hp] at h
    cases h
  | ok pipes =>
    cases ht : n.timed.set n.pipeCount (if timed then 1 else 0) with
    | error e =>
      simp only [hp, ht, bind, Except.bind] at h
      cases h
    | ok flags =>
      simp only [hp, ht, bind, Except.bind] at h
      cases h
      rfl

/-- Filling a slot leaves the nodes what they were declared to be. -/
theorem updateNode_bare (node : Option Nat) (p : TypedPipe) (timed : Bool) :
    wp (updateNode node fun n => n.fillSlot p timed)
      (fun _ s' => s'.nodes.map PlumberNode.bare = s.nodes.map PlumberNode.bare)
      (fun _ => True) s := by
  unfold updateNode
  rw [wp_bind, wp_get]
  cases node with
  | none => trivial
  | some i =>
    dsimp only
    cases hn : s.nodes[i]? with
    | none => trivial
    | some n =>
      dsimp only
      rw [wp_bind]
      refine wp_lift (fun n' hfill => ?_) fun _ _ => trivial
      rw [wp_set]
      exact map_set_same hn (bare_fillSlot hfill)

theorem linkNode_bare (type : CommMessage) (fromNode toNode : Option Nat)
    (fromTimed toTimed : Bool) :
    wp (linkNode pipe type fromNode fromTimed toNode toTimed)
      (fun _ s' => s'.nodes.map PlumberNode.bare = s.nodes.map PlumberNode.bare)
      (fun _ => True) s := by
  unfold linkNode
  rw [wp_bind, wp_get, wp_bind, wp_set]
  cases hpipe : pipe s.pipeCalls with
  | none => rfl
  | some fds =>
    dsimp only
    rw [wp_bind]
    refine (updateNode_bare fromNode _ _).imp ?_
    intro _ s₁ h₁
    refine (updateNode_bare toNode _ _).imp ?_
    intro _ s₂ h₂
    exact h₂.trans h₁

/-- A new component is put behind the others. -/
theorem declare_bare {name : Text} (value : Text) (repType : Replication)
    (voterName voterTimer priority : Text) (hnew : name ∉ s.nodes.map PlumberNode.name) :
    wp (declare name value repType voterName voterTimer priority)
      (fun _ s' => s'.nodes.map PlumberNode.bare = s.nodes.map PlumberNode.bare
        ++ [{ name, value, priority, repStrat := repType, voterName, voterTimer }])
      (fun _ => True) s := by
  unfold declare Plumber.say
  rw [wp_bind, wp_get, addNode_new hnew]
  dsimp only
  rw [wp_bind, wp_set, wp_ite, if_neg (by simp), wp_pure, List.map_append]
  rfl

/-- **An action declares what its statement does**, and leaves the other nodes what they are. -/
theorem action_bare (hnew : ∀ name ∈ st.declares, name ∉ s.nodes.map PlumberNode.name) :
    wp (action pipe st) (fun _ s' => s'.nodes.map PlumberNode.bare
      = s.nodes.map PlumberNode.bare ++ st.node.toList) (fun _ => True) s := by
  unfold action
  cases st with
  | component name value priority =>
    rw [wp_bind]
    exact (declare_bare value _ _ _ priority (hnew name rfl)).imp fun _ _ h => h
  | replicated name value repStrat voterTimer priority =>
    rw [wp_bind]
    exact (declare_bare value _ _ _ priority (hnew name rfl)).imp fun _ _ h => h
  | fromBench arrow node =>
    rw [wp_bind]
    apply wp_findNode_said
    intro said
    rw [wp_bind, wp_get, wp_bind]
    exact (updateNode_bare _ _ _).imp fun _ _ h => h.trans (List.append_nil _).symm
  | toBench node arrow =>
    rw [wp_bind]
    apply wp_findNode_said
    intro said
    rw [wp_bind, wp_get, wp_bind]
    exact (updateNode_bare _ _ _).imp fun _ _ h => h.trans (List.append_nil _).symm
  | link a arrow b =>
    rw [wp_bind]
    apply wp_findNode_said
    intro said
    rw [wp_bind]
    apply wp_findNode_said
    intro said'
    rw [wp_ite]
    split
    · exact (List.append_nil _).symm
    · rw [wp_bind]
      exact (linkNode_bare _ _ _ _ _).imp fun _ _ h => h.trans (List.append_nil _).symm
  | syntaxError => exact (List.append_nil _).symm

theorem Laid.start {dataIn cmdOut : TypedPipe} : Laid [] { dataIn, cmdOut } := rfl

/-- **A configuration without a fault** is laid out to its end. -/
theorem Laid.yyparse {dataIn cmdOut : TypedPipe} {rest : List Statement} (h : Laid config s)
    (hbuilt : Built pipe dataIn cmdOut config s)
    (hfaulty : ∀ before st after, rest = before ++ st :: after → ¬ st.Faulty (config ++ before)) :
    wp (Plumber.yyparse pipe rest)
      (fun ret s' => ret = 0 ∧ Built pipe dataIn cmdOut (config ++ rest) s'
        ∧ Laid (config ++ rest) s') (fun _ => False) s := by
  induction rest generalizing config s with
  | nil =>
    rw [List.append_nil]
    exact ⟨rfl, hbuilt, h⟩
  | cons st rest ih =>
    have hfirst : ¬ st.Faulty config := by
      have := hfaulty [] st rest rfl
      rwa [List.append_nil] at this
    rw [Statement.Faulty, not_or, not_not, not_exists] at hfirst
    have hnew : ∀ name ∈ st.declares, name ∉ s.nodes.map PlumberNode.name := by
      intro name hname hmem
      exact hfirst.2 name ⟨hname, (hbuilt.names name).mp hmem⟩
    unfold Plumber.yyparse
    rw [wp_bind]
    -- The action builds its part of the graph and appends its node, each by a lemma of its own.
    refine ((hbuilt.action hfirst.1).and (action_bare hnew)).mono ?_ fun _ h => h.1
    rintro _ s' ⟨⟨rfl, hbuilt'⟩, hbare⟩
    rw [List.append_cons]
    refine ih ?_ hbuilt' ?_
    · unfold Laid at h ⊢
      rw [hbare, h, declaredNodes, declaredNodes, List.filterMap_append]
      cases hnode : st.node <;> simp [hnode]
    · intro before st' after heq
      rw [List.append_assoc]
      exact hfaulty (st :: before) st' after (by rw [heq]; rfl)

end Laid

/-! ## Command lines -/

section CommandLine

variable {curr : PlumberNode} {ps : List (TypedPipe × Bool)}

/-- **Every component is started**, with its own command line. -/
theorem launchNode_eq {nodes : List PlumberNode} {argvs : List (List Text)}
    (h : List.Forall₂ (fun n argv => repArgv n = .ok argv) nodes argvs) :
    launchNode nodes = .ok argvs := by
  induction h with
  | nil => rfl
  | cons hargv _ ih =>
    rw [launchNode, hargv, ih]
    rfl

theorem pipeArgs_plain (h : curr.Holds ps) (hrep : curr.repStrat = .none) {n i : Nat}
    (hn : i + n = ps.length) :
    pipeArgs curr n i = .ok ((ps.drop i).map fun p => serializePipe p.1) := by
  induction n generalizing i with
  | zero =>
    rw [List.drop_of_length_le (by omega)]
    rfl
  | succ n ih =>
    have hi : i < ps.length := by omega
    have hlimit := h.limit
    have hpipes := h.pipes
    obtain ⟨hp, -⟩ := h.get i ps[i] (List.getElem?_eq_getElem hi)
    have hgp : curr.pipes.get (i : Int) = .ok ps[i].1 := by
      rw [CArray.get, if_pos (by omega), hp]
    have hnext : (i : Int) + 1 = ((i + 1 : Nat) : Int) := by omega
    have hrest := ih (i := i + 1) (by omega)
    rw [List.drop_eq_getElem_cons hi, List.map_cons]
    unfold pipeArgs
    simp only [hgp, hnext, hrest, if_pos hrep, bind, Except.bind, pure, Except.pure]

/-- The command line of a component that is not replicated. -/
theorem repArgv_plain (h : curr.Holds ps) (hrep : curr.repStrat = .none) :
    repArgv curr = .ok (curr.value :: curr.priority :: Scan.printInt ps.length
      :: ps.map fun p => serializePipe p.1) := by
  have hargs := pipeArgs_plain h hrep (n := ps.length) (i := 0) (Nat.zero_add _)
  rw [List.drop_zero, Nat.cast_zero] at hargs
  unfold repArgv
  simp only [h.count, Int.toNat_natCast, hargs, bind, Except.bind, if_pos hrep]
  rfl

theorem mapM_deserializePipe {pipes : List TypedPipe} (hone : ∀ p ∈ pipes, p.OneEnd) :
    (pipes.map serializePipe).mapM deserializePipe = .ok pipes := by
  induction pipes with
  | nil => rfl
  | cons p pipes ih =>
    rw [List.map_cons, List.mapM_cons,
      deserializePipe_serializePipe (hone p List.mem_cons_self),
      ih fun q hq => hone q (List.mem_cons_of_mem p hq)]
    rfl

/-- `atoi` of the text of an `int`. -/
theorem atoi_eq {text rest : Text} {x : Int} (htext : Scan.scanInt text = some (x, rest))
    (hx : IsInt x) : atoi text = x := by
  rw [atoi, htext, Option.map_some, Option.getD_some, hx.clampLong, hx.wrapInt]

theorem atoi_printInt {x : Int} (hx : IsInt x) : atoi (Scan.printInt x) = x := by
  have h : Scan.scanInt (Scan.printInt x ++ []) = some (x, []) :=
    Scan.scanInt_printInt x fun c s hnil => by cases hnil
  rw [List.append_nil] at h
  exact atoi_eq h hx

/-- What a controller makes of its command line. -/
structure ReadsPipes (argv : List Text) (pipes : List TypedPipe) : Prop where
  /-- Where there are enough arguments, the pipes are read. -/
  given : ∀ required pipeLimit requested, required ≤ pipes.length + 3 → pipes.length ≤ pipeLimit →
    parsePipes required pipeLimit requested argv = .ok (.given pipes)
  /-- Where there are too few, it takes itself for a replica. -/
  asks : ∀ required pipeLimit requested, pipes.length + 3 < required →
    parsePipes required pipeLimit requested argv = .ok (.request (requested pipes.length))
  filter : 2 ≤ pipes.length → pipes.length ≤ 4 → Filter.parseArgs argv = .ok (.given pipes)
  empty : pipes.length = 2 → Empty.parseArgs argv = .ok (.given pipes)

theorem parseOuts_eq {pipes : List TypedPipe} {room : Nat} (hone : ∀ p ∈ pipes, p.OneEnd)
    (hroom : pipes.length ≤ room) :
    Filter.parseOuts pipes.length room (pipes.map serializePipe) = .ok pipes := by
  induction pipes generalizing room with
  | nil => rfl
  | cons p pipes ih =>
    rw [List.length_cons] at hroom
    obtain ⟨room, rfl⟩ := Nat.exists_eq_succ_of_ne_zero (n := room) (by omega)
    rw [List.length_cons, List.map_cons, Filter.parseOuts,
      deserializePipe_serializePipe (hone p List.mem_cons_self),
      ih (fun q hq => hone q (List.mem_cons_of_mem p hq)) (by omega)]
    rfl

theorem readsPipes {value priority : Text} {pipes : List TypedPipe}
    (hone : ∀ p ∈ pipes, p.OneEnd) (hlength : pipes.length ≤ pipeLimit) :
    ReadsPipes (value :: priority :: Scan.printInt pipes.length :: pipes.map serializePipe)
      pipes := by
  have hprinted : atoi (Scan.printInt pipes.length) = pipes.length := by
    apply atoi_printInt
    unfold IsInt
    unfold pipeLimit at hlength
    omega
  constructor
  · intro required pipeLimit requested hreq hlimit
    rw [parsePipes, if_neg (by simp only [List.length_cons, List.length_map]; omega),
      List.take_of_length_le (by rw [List.length_map]; exact hlimit),
      mapM_deserializePipe hone]
    rfl
  · intro required pipeLimit requested hreq
    rw [parsePipes, if_pos (by simp only [List.length_cons, List.length_map]; omega), hprinted]
    rfl
  · intro hlow hhigh
    cases pipes with
    | nil => exact absurd hlow (by simp)
    | cons p pipes =>
      rw [List.length_cons] at hlow hhigh
      have htail : Filter.parseOuts pipes.length 3 (pipes.map serializePipe) = .ok pipes :=
        parseOuts_eq (fun q hq => hone q (List.mem_cons_of_mem p hq)) (by omega)
      have hcount : (((p :: pipes).length : Int) - 1).toNat = pipes.length := by
        rw [List.length_cons]
        omega
      rw [List.map_cons, Filter.parseArgs,
        if_neg (by simp only [List.length_cons, List.length_map]; omega), hprinted, hcount,
        htail, deserializePipe_serializePipe (hone p List.mem_cons_self)]
      rfl
  · intro htwo
    rw [Empty.parseArgs, if_neg (by simp only [List.length_cons, List.length_map]; omega),
      List.drop_one,
      List.tail_cons, List.take_of_length_le (by rw [List.length_map]; omega),
      mapM_deserializePipe hone]
    rfl

/-- What a voter makes of its command line, and what it then tells its replicas: a process
with the arguments of the declaration, and as many pipes as the component has ends, of their
types, directions and flags. The timer and the priority are read by `atoi`, so they are the
numbers that were declared if these are `int`s. -/
structure RunsVoter (argv : List Text) (value : Text) (repType : Replication)
    (voterTimer priority : Text) (ps : List (TypedPipe × Bool)) : Prop where
  program : argv.head? = some "VoterD".toList
  parsed : ∃ cfg ext, parseArgs argv = .ok (cfg, ext) ∧
    cfg.controllerName = String.ofList value ∧ cfg.repType = repType ∧
    (∀ x rest, Scan.scanInt voterTimer = some (x, rest) → IsInt x →
      cfg.votingTimeout = if x = 0 then periodUsec else x) ∧
    (∀ x rest, Scan.scanInt priority = some (x, rest) → IsInt x → cfg.voterPriority = x) ∧
    cfg.pipeCount = ps.length ∧
    (∀ (i : Nat) (p : TypedPipe × Bool), ps[i]? = some p → ext i = extPipeOf p) ∧
    ∀ v : Voter, v.extPipes = ext → v.kernel.lookup 0 ≠ none →
      (∀ i, (v.replicas i).pipeCount = 0) →
      ∃ v', (createPipes 0 cfg.repCount cfg.pipeCount).run v = .ok ((), v') ∧
        ∀ r, r < cfg.repCount → List.Forall₂ SameEnd (ps.map Prod.fst)
          (convertVoteToTyped (v'.replicas r).repPipes (v'.replicas r).pipeCount)

/-- The globals that are copied from the command line. -/
theorem parseArgs_globals {voter value repType timeout priority : Text} {args : List Text}
    {cfg : Config} {ext : Nat → VotePipe}
    (h : parseArgs (voter :: value :: repType :: timeout :: priority :: args) = .ok (cfg, ext)) :
    cfg.controllerName = String.ofList value ∧
      cfg.votingTimeout = (if atoi timeout = 0 then periodUsec else atoi timeout) ∧
      cfg.voterPriority = atoi priority := by
  rw [parseArgs] at h
  cases hpipes : (args.take pipeLimit).mapM parsePipe with
  | error e =>
    rw [hpipes] at h
    cases h
  | ok pipes =>
    rw [hpipes] at h
    cases h
    exact ⟨rfl, rfl, rfl⟩

theorem repArgv_voter {argv : List Text} (hrep : curr.repStrat ≠ .none)
    (h : repArgv curr = .ok argv) : ∃ args, argv = curr.voterName :: curr.value
      :: (repTypeT curr.repStrat).toList :: curr.voterTimer :: curr.priority :: args := by
  unfold repArgv at h
  cases hpipes : pipeArgs curr curr.pipeCount.toNat 0 with
  | error e =>
    rw [hpipes] at h
    cases h
  | ok args =>
    rw [hpipes] at h
    simp only [bind, Except.bind, if_neg hrep] at h
    exact ⟨args, (Except.ok.inj h).symm⟩

/-- A replica whose pipes were made for the external pipes `ps` is told of their kinds. -/
theorem told_of_made {v : Voter} {n r : Nat}
    (h : Made (fun i => (ps.map extPipeOf).getD i {}) (fun i p => i < n ∧ p < ps.length) v)
    (hone : ∀ p ∈ ps, p.1.OneEnd) (hr : r < n) (hcount : (v.replicas r).pipeCount = ps.length) :
    List.Forall₂ SameEnd (ps.map Prod.fst)
      (convertVoteToTyped (v.replicas r).repPipes (v.replicas r).pipeCount) := by
  rw [hcount]
  refine List.forall₂_iff_get.mpr ⟨by simp [convertVoteToTyped], fun i hi _ => ?_⟩
  rw [List.length_map] at hi
  have hkind := h.sameKind r i ⟨hr, hi⟩
  have hext : (ps.map extPipeOf).getD i {} = extPipeOf ps[i] := by
    rw [List.getD_eq_getElem?_getD, List.getElem?_map, List.getElem?_eq_getElem hi]
    rfl
  rw [hext] at hkind
  simp only [convertVoteToTyped, List.get_eq_getElem, List.getElem_map, List.getElem_range]
  refine ⟨?_, hkind.fdIn, hkind.fdOut.trans ?_⟩
  · rw [hkind.repInfo]
    exact commToEnum_messageT _
  · show ps[i].1.fdIn = 0 ↔ _
    rcases hone ps[i] (List.getElem_mem hi) with ⟨hin, hout⟩ | ⟨hin, hout⟩
    · exact iff_of_true hin hout
    · exact iff_of_false hin (not_not.mpr hout)

theorem runsVoter {argv : List Text} (h : curr.Holds ps) (hone : ∀ p ∈ ps, p.1.OneEnd)
    (hrep : curr.repStrat ≠ .none) (hvoter : curr.voterName = "VoterD".toList)
    (hargv : repArgv curr = .ok argv) :
    RunsVoter argv curr.value curr.repStrat curr.voterTimer curr.priority ps := by
  obtain ⟨argv', cfg, hargv', hparse, htype, hcount⟩ := parseArgs_repArgv h hone hrep
  obtain rfl : argv = argv' := Except.ok.inj (hargv.symm.trans hargv')
  obtain ⟨args, rfl⟩ := repArgv_voter hrep hargv
  obtain ⟨hname, htimeout, hpriority⟩ := parseArgs_globals hparse
  refine ⟨by rw [List.head?_cons, hvoter], cfg, _, hparse, hname, htype, fun x rest hx hint => ?_,
    fun x rest hx hint => ?_, hcount, fun i p hp => ?_, fun v hext hstdin h0 => ?_⟩
  · rw [htimeout, atoi_eq hx hint]
  · rw [hpriority, atoi_eq hx hint]
  · rw [List.getD_eq_getElem?_getD, List.getElem?_map, hp]
    rfl
  · obtain ⟨⟨⟩, v', hrun, hmade, hcounts⟩ :=
      (createPipes_typed hext hstdin h0 :
        wp (createPipes 0 cfg.repCount cfg.pipeCount) _ _ v).exists_run
    rw [hcount] at hmade
    exact ⟨v', hrun, fun r hr => told_of_made hmade hone hr ((hcounts r hr).trans hcount)⟩

end CommandLine

/-! ## The whole way -/

/-- What becomes of a declaration, when these are the ends of the graph. -/
def Gets (ends : List GraphEnd) : Statement → List Text → Prop
  | .component name value priority, argv =>
    argv.take 2 = [value, priority] ∧ ReadsPipes argv ((pipesOf ends name).map Prod.fst)
  | .replicated name value repStrat voterTimer priority, argv =>
    RunsVoter argv value repStrat voterTimer priority (pipesOf ends name)
  | _, _ => False

theorem described_oneEnd {pipes : Nat → Int × Int} {dataIn cmdOut : TypedPipe}
    {config : List Statement} (hpipes : ∀ k, (pipes k).1 ≠ 0 ∧ (pipes k).2 ≠ 0)
    (hin : dataIn.fdIn ≠ 0) (hout : cmdOut.fdOut ≠ 0) :
    ∀ e ∈ described (fun k => some (pipes k)) dataIn cmdOut 0 0 config, e.pipe.OneEnd := by
  intro e he
  obtain ⟨j, st, -, -, hmem⟩ := mem_described he
  cases st with
  | component name value priority => cases hmem
  | replicated name value repStrat voterTimer priority => cases hmem
  | fromBench arrow node =>
    obtain rfl := List.mem_singleton.mp hmem
    exact .inr ⟨hin, rfl⟩
  | toBench node arrow =>
    obtain rfl := List.mem_singleton.mp hmem
    exact .inl ⟨rfl, hout⟩
  | link a arrow b =>
    simp only [Statement.graphEnds, List.mem_cons, List.not_mem_nil, or_false] at hmem
    rcases hmem with rfl | rfl
    · exact .inl ⟨rfl, (hpipes _).2⟩
    · exact .inr ⟨(hpipes _).1, rfl⟩
  | syntaxError => cases hmem

/-- Every declaration has its node, and every node its declaration. -/
theorem forall₂_declares {config : List Statement} {nodes : List PlumberNode}
    (h : nodes.map PlumberNode.bare = declaredNodes config) :
    List.Forall₂ (fun (st : Statement) n => st.node = some n.bare)
      (config.filter fun st => st.declares.isSome) nodes := by
  induction config generalizing nodes with
  | nil =>
    obtain rfl := List.map_eq_nil_iff.mp h
    exact .nil
  | cons st config ih =>
    have hsame : st.declares.isSome = st.node.isSome := by cases st <;> rfl
    unfold declaredNodes at h ih
    cases hnode : st.node with
    | none =>
      rw [List.filterMap_cons_none hnode] at h
      rw [List.filter_cons_of_neg (by rw [hsame, hnode]; exact Bool.false_ne_true)]
      exact ih h
    | some n =>
      rw [List.filterMap_cons_some hnode] at h
      rw [List.filter_cons_of_pos (by rw [hsame, hnode]; rfl)]
      cases nodes with
      | nil => cases h
      | cons m nodes =>
        obtain ⟨hm, hrest⟩ := List.cons.inj h
        exact .cons (by rw [hnode, hm]) (ih hrest)

/-- Choices for the two sides of a relation, made element by element. -/
theorem forall₂_choose {α β γ : Type} {R : α → β → Prop} {P : β → γ → Prop} {Q : α → γ → Prop}
    {as : List α} {bs : List β} (h : List.Forall₂ R as bs)
    (hchoose : ∀ a ∈ as, ∀ b ∈ bs, R a b → ∃ c, P b c ∧ Q a c) :
    ∃ cs, List.Forall₂ P bs cs ∧ List.Forall₂ Q as cs := by
  induction h with
  | nil => exact ⟨[], .nil, .nil⟩
  | cons hab _ ih =>
    obtain ⟨c, hP, hQ⟩ := hchoose _ List.mem_cons_self _ List.mem_cons_self hab
    obtain ⟨cs, hPs, hQs⟩ := ih fun a ha b hb =>
      hchoose a (List.mem_cons_of_mem _ ha) b (List.mem_cons_of_mem _ hb)
    exact ⟨c :: cs, .cons hP hPs, .cons hQ hQs⟩

theorem Grammar.Line.replicates {ts : List Token} {ss : List Statement} (h : Line ts ss)
    {name value voterTimer priority : Text} {r : Replication}
    (hmem : .replicated name value r voterTimer priority ∈ ss) : r ≠ .none := by
  induction h with
  | empty => cases hmem
  | @statement ts w ss s _ hw ih =>
    rcases List.mem_append.mp hmem with hmem | hmem
    · exact ih hmem
    · obtain rfl := List.mem_singleton.mp hmem
      cases hw with
      | replicated _ _ _ _ hr => cases hr <;> simp
  | eol _ ih => exact ih hmem

/-- A node has a command line, and from it the component reads what its declaration gets. -/
theorem repArgv_gets {ends : List GraphEnd} {n : PlumberNode} {st : Statement}
    (hholds : n.Holds (pipesOf ends n.name)) (hone : ∀ p ∈ pipesOf ends n.name, p.1.OneEnd)
    (hnode : st.node = some n.bare) (hrep : ∀ {name value r voterTimer priority},
      st = .replicated name value r voterTimer priority → r ≠ .none) :
    ∃ argv, repArgv n = .ok argv ∧ Gets ends st argv := by
  cases st with
  | component name value priority =>
    have hbare := Option.some.inj hnode
    have hname : name = n.name := congrArg PlumberNode.name hbare
    have hvalue : value = n.value := congrArg PlumberNode.value hbare
    have hpriority : priority = n.priority := congrArg PlumberNode.priority hbare
    have hplain : Replication.none = n.repStrat := congrArg PlumberNode.repStrat hbare
    subst hname hvalue hpriority
    refine ⟨_, repArgv_plain hholds hplain.symm, rfl, ?_⟩
    have hends : ∀ p ∈ (pipesOf ends n.name).map Prod.fst, p.OneEnd := by
      intro p hp
      obtain ⟨q, hq, rfl⟩ := List.mem_map.mp hp
      exact hone q hq
    have hreads : ReadsPipes (n.value :: n.priority :: _) _ :=
      readsPipes hends (by rw [List.length_map]; exact hholds.limit)
    rw [List.length_map, List.map_map] at hreads
    exact hreads
  | replicated name value repStrat voterTimer priority =>
    have hbare := Option.some.inj hnode
    have hname : name = n.name := congrArg PlumberNode.name hbare
    have hvalue : value = n.value := congrArg PlumberNode.value hbare
    have hpriority : priority = n.priority := congrArg PlumberNode.priority hbare
    have hstrat : repStrat = n.repStrat := congrArg PlumberNode.repStrat hbare
    have hvoter : "VoterD".toList = n.voterName := congrArg PlumberNode.voterName hbare
    have htimer : voterTimer = n.voterTimer := congrArg PlumberNode.voterTimer hbare
    have hsome := hrep rfl
    subst hname hvalue hpriority hstrat htimer
    obtain ⟨argv, -, hargv, -⟩ := parseArgs_repArgv hholds hone hsome
    exact ⟨argv, hargv, runsVoter hholds hone hsome hvoter.symm hargv⟩
  | fromBench arrow node => cases hnode
  | toBench node arrow => cases hnode
  | link a arrow b => cases hnode
  | syntaxError => cases hnode

/-- **What is written in a configuration is what runs.** Where the text lays out lines without
a fault, the pipes are fresh and the memory is clean, the plumber starts one process for each
declaration, in their order. A component that is not replicated reads its ends of the graph from
its command line, and one that is replicated gets a voter, which reads them there and tells each
replica of as many pipes, of the same types and directions. -/
theorem config_reaches_components {text : Text} {ts : List Token} {ss : List Statement}
    (htext : Lexer.Lays ts text) (hline : Line ts ss) (hfaulty : ¬ AnyFaulty ss)
    {pipes : Nat → Int × Int} {dataIn cmdOut : TypedPipe}
    (hfresh : FreshPipes pipes [dataIn.fdIn, cmdOut.fdOut]) (hin : dataIn.fdIn ≠ 0)
    (hout : cmdOut.fdOut ≠ 0) {mem : Memory} (hclean : mem.Clean ss) :
    ∃ argvs ends, Plumbing.mainText mem (fun k => some (pipes k)) dataIn cmdOut text = .ok argvs ∧
      IsGraph pipes dataIn cmdOut ss ends ∧
      List.Forall₂ (Gets ends) (ss.filter fun st => st.declares.isSome) argvs := by
  have hstatements : statements (Lexer.yylex text) = ss := by
    rw [Lexer.yylex_eq_iff.mpr htext, hline.statements_eq]
  have hstart : Built (fun k => some (pipes k)) dataIn cmdOut [] { dataIn, cmdOut } := Built.start
  -- No statement is faulty, so `yyparse` runs all actions and answers 0.
  have hrun := Laid.start.yyparse hstart
    (fun before st after (heq : ss = _) hst => hfaulty ⟨before, st, after, heq, hst⟩)
  obtain ⟨ret, s, hs, rfl, hbuilt, hlaid⟩ := wp.exists_run hrun
  have hone : ∀ name, ∀ p ∈ pipesOf (described (fun k => some (pipes k)) dataIn cmdOut 0 0 ss)
      name, p.1.OneEnd := by
    intro name p hp
    obtain ⟨e, he, rfl⟩ := List.mem_map.mp hp
    exact described_oneEnd hfresh.nonzero hin hout e (List.mem_filter.mp he).1
  -- Node by node: its command line, and what the component reads back from it.
  obtain ⟨argvs, hargvs, hgets⟩ := forall₂_choose (P := fun n argv => repArgv n = .ok argv)
    (Q := Gets (described (fun k => some (pipes k)) dataIn cmdOut 0 0 ss))
    (forall₂_declares hlaid) fun st hst n hn hnode =>
      repArgv_gets (hbuilt.holds n hn) (hone n.name) hnode fun {_ _ _ _ _} heq =>
        hline.replicates (heq ▸ (List.mem_filter.mp hst).1)
  refine ⟨argvs, _, ?_, described_isGraph hfresh, hgets⟩
  unfold Plumbing.mainText
  rw [hstatements, Plumbing.main_eq hclean]
  unfold Plumber.main
  rw [hs]
  exact launchNode_eq hargvs

/-! ### A filter and a logger -/

/-- A configuration as it is written. -/
def filterText : Text :=
  ("filter:= (Filter) TMR, 400 80 // averages\nlog := Logger -5\n\n" ++
    "Bench--RANGE_POSE_DATA->(filter)\n(filter) -- RANGE_POSE_DATA -> log\n").toList

def filterTokens : List Token :=
  [.varName "filter".toList, .assign, .startVote, .namedOb "Filter".toList, .endVote, .pTmr,
    .delim, .numberVal "400".toList, .numberVal "80".toList, .eol, .eol,
    .varName "log".toList, .assign, .namedOb "Logger".toList, .numberVal "-5".toList, .eol, .eol,
    .bench, .startPipe, .namedOb "RANGE_POSE_DATA".toList, .endPipe, .startVote,
    .varName "filter".toList, .endVote, .eol,
    .startVote, .varName "filter".toList, .endVote, .startPipe,
    .namedOb "RANGE_POSE_DATA".toList, .endPipe, .varName "log".toList, .eol]

def filterConfig : List Statement :=
  [.replicated "filter".toList "Filter".toList .tmr "400".toList "80".toList,
    .component "log".toList "Logger".toList "-5".toList,
    .fromBench "RANGE_POSE_DATA".toList ⟨"filter".toList, true⟩,
    .link ⟨"filter".toList, true⟩ "RANGE_POSE_DATA".toList ⟨"log".toList, false⟩]

/-- Line by line: the scanner looks for the longest match, which is long in a long text. -/
theorem filterText_lays : Lexer.Lays filterTokens filterText := by
  have hsplit : filterText = "filter:= (Filter) TMR, 400 80 // averages".toList ++ '\n' ::
      ("log := Logger -5".toList ++ '\n' :: ([] ++ '\n' ::
        ("Bench--RANGE_POSE_DATA->(filter)".toList ++
          "\n(filter) -- RANGE_POSE_DATA -> log\n".toList))) := by decide +kernel
  have hdeclared : Lexer.Lays (filterTokens.take 10)
      "filter:= (Filter) TMR, 400 80 // averages".toList :=
    Lexer.yylex_eq_iff.mp (by decide +kernel)
  have hlog : Lexer.Lays ((filterTokens.drop 10).take 5) ('\n' :: "log := Logger -5".toList) :=
    Lexer.yylex_eq_iff.mp (by decide +kernel)
  have hempty : Lexer.Lays [.eol] ['\n'] := Lexer.yylex_eq_iff.mp (by decide +kernel)
  have hbench : Lexer.Lays ((filterTokens.drop 16).take 8)
      ('\n' :: "Bench--RANGE_POSE_DATA->(filter)".toList) :=
    Lexer.yylex_eq_iff.mp (by decide +kernel)
  have hlink : Lexer.Lays (filterTokens.drop 24) "\n(filter) -- RANGE_POSE_DATA -> log\n".toList :=
    Lexer.yylex_eq_iff.mp (by decide +kernel)
  rw [hsplit]
  exact hdeclared.line (hlog.line (hempty.line (hbench.line hlink)))

theorem filterTokens_line : Line filterTokens filterConfig :=
  statements_eq_iff.mp (by decide +kernel)

theorem filterConfig_sound : ¬ AnyFaulty filterConfig := by
  rintro ⟨before, st, after, heq, hst⟩
  have hall : ∀ i, ∀ h : i < 4, ¬ (filterConfig.get ⟨i, h⟩).Faulty (filterConfig.take i) := by
    unfold Statement.Faulty
    decide +kernel
  have hlen : before.length < 4 := by
    have := congrArg List.length heq
    rw [List.length_append, List.length_cons] at this
    exact Nat.lt_of_lt_of_eq (by omega) this.symm
  have hget : filterConfig.get ⟨before.length, hlen⟩ = st := by
    rw [List.get_eq_getElem, List.getElem_of_eq heq,
      List.getElem_append_right (Nat.le_refl _)]
    simp
  have htake : filterConfig.take before.length = before := by rw [heq, List.take_left]
  have hno := hall before.length hlen
  rw [hget, htake] at hno
  exact hno hst

/-- Memory that was used before. Only what is taken for a pointer to a node is zero. -/
def usedMemory : Memory where
  nodelist _ := { next := some 7 }
  node _ :=
    { name := "old".toList, value := [], priority := [], repStrat := .none, voterName := [],
      voterTimer := [], pipeCount := 3, timed := .filled pipeLimit 1,
      pipes := .filled pipeLimit { fdIn := 9 } }
  room n := n + 8

theorem usedMemory_clean (config : List Statement) : usedMemory.Clean config where
  suits i c _ := ⟨fun s _ => Nat.add_le_add_left (by decide) s.length, rfl⟩
  sized _ := ⟨rfl, rfl⟩

theorem config_reaches_components_filter :
    let pipes := fun k : Nat => ((2 * k + 5 : Int), (2 * k + 6 : Int))
    ∃ voterArgs logArgs ends, Plumbing.mainText usedMemory (fun k => some (pipes k)) { fdIn := 3 }
        { fdOut := 4 } filterText = .ok [voterArgs, logArgs] ∧
      IsGraph pipes { fdIn := 3 } { fdOut := 4 } filterConfig ends ∧
      RunsVoter voterArgs "Filter".toList .tmr "400".toList "80".toList
        (pipesOf ends "filter".toList) ∧
      ReadsPipes logArgs ((pipesOf ends "log".toList).map Prod.fst) := by
  intro pipes
  have hfresh : FreshPipes pipes [3, 4] := by
    constructor
    · intro k
      dsimp only [pipes]
      omega
    · intro k
      dsimp only [pipes]
      omega
    · intro j k hjk
      dsimp only [pipes]
      omega
    · intro k fd hfd
      simp only [List.mem_cons, List.not_mem_nil, or_false] at hfd
      dsimp only [pipes]
      omega
  have hin : ({ fdIn := 3 } : TypedPipe).fdIn ≠ 0 := by decide
  have hout : ({ fdOut := 4 } : TypedPipe).fdOut ≠ 0 := by decide
  obtain ⟨argvs, ends, hmain, hgraph, hgets⟩ := config_reaches_components filterText_lays
    filterTokens_line filterConfig_sound hfresh hin hout (usedMemory_clean _)
  cases hgets with
  | cons hvoter hrest =>
    cases hrest with
    | cons hlog hnil =>
      cases hnil
      exact ⟨_, _, ends, hmain, hgraph, hvoter, hlog.2⟩

/-! ## Configurations that are broken -/

/-- An error behind some statements leaves the nodes that these have made. -/
theorem yyparse_error (pipe : PipeCalls) (config : List Statement) (s : Plumber) :
    ((yyparse pipe (config ++ [.syntaxError])).run s).map (fun r => r.2.nodes)
      = ((yyparse pipe config).run s).map fun r => r.2.nodes := by
  induction config generalizing s with
  | nil => rfl
  | cons st rest ih =>
    rw [List.cons_append, Plumber.yyparse, Plumber.yyparse, StateT.run_bind, StateT.run_bind]
    cases haction : (action pipe st).run s with
    | error e => rfl
    | ok r =>
      obtain ⟨ret, s'⟩ := r
      cases ret with
      | some ret => rfl
      | none => exact ih s'

/-- **An error in a configuration goes unnoticed.** The plumber starts the components that it
would start if the configuration ended in front of the error: `main` does not look at what
`yyparse` returns. This does not rest on the memory; in clean memory it is also what the plumber
with its chain of cells does (`Plumbing.main_eq`). -/
theorem broken_config_runs {text : Text} {ts : List Token} {ss : List Statement}
    (htext : Lexer.Lays ts text) (hbroken : Broken ts ss) (pipe : PipeCalls)
    (dataIn cmdOut : TypedPipe) :
    mainText pipe dataIn cmdOut text = Plumber.main pipe dataIn cmdOut ss := by
  have hnodes := yyparse_error pipe ss { dataIn, cmdOut }
  unfold mainText
  rw [Lexer.yylex_eq_iff.mpr htext, hbroken.statements_eq]
  unfold Plumber.main
  cases hbad : (yyparse pipe (ss ++ [.syntaxError])).run { dataIn, cmdOut } with
  | error e =>
    cases hgood : (yyparse pipe ss).run { dataIn, cmdOut } with
    | error e' =>
      rw [hbad, hgood] at hnodes
      exact congrArg Except.error (Except.error.inj hnodes)
    | ok r =>
      rw [hbad, hgood] at hnodes
      cases hnodes
  | ok r =>
    cases hgood : (yyparse pipe ss).run { dataIn, cmdOut } with
    | error e' =>
      rw [hbad, hgood] at hnodes
      cases hnodes
    | ok r' =>
      rw [hbad, hgood] at hnodes
      exact congrArg launchNode (Except.ok.inj hnodes)

/-- The last line is not ended, and the logger is started all the same. -/
theorem broken_config_runs_unended :
    mainText (fun _ => none) {} {} "log := Logger 5".toList
      = .ok [["Logger".toList, "5".toList, "0".toList]] := by
  have hderives : Derives [.varName "log".toList, .assign, .namedOb "Logger".toList,
    .numberVal "5".toList] (.component "log".toList "Logger".toList "5".toList) :=
    .component _ _ _
  rw [broken_config_runs (Lexer.yylex_eq_iff.mp (by decide +kernel))
    (.noEnd .empty hderives (by simp : ([] : List Token).head? ≠ some .eol))]
  decide +kernel

end Pint
