import Pint.Lib.OrderedTable
import Pint.Program.Plumbing
import Pint.Proof.Graph
import Pint.Proof.Rejecting

/-!
# The list of components as a table

After some calls of `add_node` the nodes are in a chain of cells, in the order in which they were
allocated (`Linked`), and behind the last one is the cell that was just taken from `malloc`. If
this one has no node either, the chain ends there (`Ended`), and the three functions do what
the ones of `Program/Plumber.lean` do with the list of nodes. If it has, `launch_node` goes on
behind the last node. So the list is a table exactly as long as the memory is zero where it has
to be (`behaves_iff`).

Each of the functions follows the chain by recursion, so their lemmas are inductions on the
number of nodes that are still ahead, from any cell of the chain. The recursion of the code has no
bound of its own: here it has one, and a chain that ends is followed to its end with more calls
than there are nodes ahead.

The converse needs that a list which behaves shows where it ends. `launch_node` comes to all
nodes and, if the cell behind them is not zero, to something more (`launchNode_visits`); and where
a text does not fit its block, `add_node` writes behind it, which is a fault here.
-/

namespace Pint

open Scan (Text)

/-! ## Nodes -/

/-- The texts that `add_node` copies. -/
def Component.copied (c : Component) : List Text :=
  [c.name, c.value] ++ (if c.repType = .none then [] else [c.voterName, c.voterTimer])
    ++ [c.priority]

/-- There is room for the copies, with the 0 at the end of each. -/
def Memory.Fits (mem : Memory) (c : Component) : Prop :=
  ∀ s ∈ c.copied, s.length + 1 ≤ mem.room s.length

/-- The texts of the component with this number fit, and the cell behind it is zero. -/
def Memory.Suits (mem : Memory) (i : Nat) (c : Component) : Prop :=
  mem.Fits c ∧ (mem.nodelist (i + 1)).current = none

/-- The node of a component, in memory that held this. -/
def Component.node (c : Component) (new : PlumberNode) : PlumberNode :=
  { new with
    name := c.name
    value := c.value
    pipeCount := 0
    repStrat := c.repType
    voterName := if c.repType = .none then [] else c.voterName
    voterTimer := if c.repType = .none then [] else c.voterTimer
    priority := c.priority }

/-- The node that is in the list of `Plumber.addNode`. -/
def Component.declared (c : Component) : PlumberNode where
  name := c.name
  value := c.value
  priority := c.priority
  repStrat := c.repType
  voterName := c.voterName
  voterTimer := c.voterTimer

section Nodes

variable {mem : Memory} {c : Component} {new : PlumberNode}

theorem Memory.strcpy_ok {s t : Text} (h : mem.strcpy s = .ok t) :
    s.length + 1 ≤ mem.room s.length := by
  unfold Memory.strcpy at h
  split at h
  · assumption
  · cases h

theorem Memory.Fits.strcpy {s : Text} (h : mem.Fits c) (hs : s ∈ c.copied) :
    mem.strcpy s = .ok s := if_pos (h s hs)

/-- **A new node**, if its texts fit. -/
theorem newNode_fits (h : mem.Fits c) : c.newNode mem new = .ok (c.node new) := by
  have hname := h.strcpy (s := c.name) (by simp [Component.copied])
  have hvalue := h.strcpy (s := c.value) (by simp [Component.copied])
  have hpriority := h.strcpy (s := c.priority) (by simp [Component.copied])
  unfold Component.newNode Component.node
  rw [hname, hvalue, hpriority]
  by_cases hrep : c.repType = .none
  · simp only [hrep, ne_eq, not_true_eq_false, if_false, if_true]
    rfl
  · have hvoter := h.strcpy (s := c.voterName) (by simp [Component.copied, hrep])
    have htimer := h.strcpy (s := c.voterTimer) (by simp [Component.copied, hrep])
    simp only [hrep, hvoter, htimer, ne_eq, not_false_eq_true, if_false, if_true]
    rfl

theorem fits_of_newNode {node : PlumberNode} (h : c.newNode mem new = .ok node) : mem.Fits c := by
  obtain ⟨_, hname, h⟩ := bind_ok h
  obtain ⟨_, hvalue, h⟩ := bind_ok h
  unfold Memory.Fits Component.copied
  by_cases hrep : c.repType = .none
  · simp only [hrep, ne_eq, not_true_eq_false, if_false] at h
    obtain ⟨_, -, h⟩ := bind_ok h
    obtain ⟨_, hpriority, -⟩ := bind_ok h
    simp only [hrep, if_true, List.append_nil, List.cons_append, List.nil_append,
      List.forall_mem_cons]
    exact ⟨Memory.strcpy_ok hname, Memory.strcpy_ok hvalue, Memory.strcpy_ok hpriority,
      fun _ hs => absurd hs List.not_mem_nil⟩
  · simp only [hrep, ne_eq, not_false_eq_true, if_true] at h
    obtain ⟨_, hvoter, h⟩ := bind_ok h
    obtain ⟨_, htimer, h⟩ := bind_ok h
    obtain ⟨_, -, h⟩ := bind_ok h
    obtain ⟨_, hpriority, -⟩ := bind_ok h
    simp only [hrep, if_false, List.cons_append, List.nil_append, List.forall_mem_cons]
    exact ⟨Memory.strcpy_ok hname, Memory.strcpy_ok hvalue, Memory.strcpy_ok hvoter,
      Memory.strcpy_ok htimer, Memory.strcpy_ok hpriority, fun _ hs => absurd hs List.not_mem_nil⟩

/-- A node without pipes can be launched. -/
theorem repArgv_node : ∃ argv, repArgv (c.node new) = .ok argv := by
  have hpipes : pipeArgs (c.node new) (c.node new).pipeCount.toNat 0 = .ok [] := rfl
  unfold repArgv
  rw [hpipes]
  by_cases hrep : (c.node new).repStrat = .none
  · simp only [hrep, if_true]
    exact ⟨_, rfl⟩
  · simp only [hrep, if_false]
    exact ⟨_, rfl⟩

/-- The nodes of a list are launched if each of them can be. -/
theorem launchNode_ok {nodes : List PlumberNode}
    (h : ∀ node ∈ nodes, ∃ argv, repArgv node = .ok argv) :
    ∃ argvs, Plumber.launchNode nodes = .ok argvs := by
  induction nodes with
  | nil => exact ⟨[], rfl⟩
  | cons node nodes ih =>
    obtain ⟨argv, hargv⟩ := h node List.mem_cons_self
    obtain ⟨argvs, hargvs⟩ := ih fun n hn => h n (List.mem_cons_of_mem node hn)
    rw [Plumber.launchNode, hargv, hargvs]
    exact ⟨argv :: argvs, rfl⟩

end Nodes

namespace PlumberHeap

/-! ## The chain -/

/-- The nodes are in a chain of cells, one after the other, and there is a cell behind them. -/
structure Linked (h : PlumberHeap) : Prop where
  length : h.lists.length = h.nodes.length + 1
  cell : ∀ i < h.nodes.length, h.lists[i]? = some ⟨some i, some (i + 1)⟩

/-- The cell behind the nodes has none. -/
def Ended (h : PlumberHeap) : Prop := ∃ next, h.lists[h.nodes.length]? = some ⟨none, next⟩

section Chain

variable {mem : Memory} {c : Component} {h : PlumberHeap} {name : Text} {i calls : Nat}

theorem linked_start : start.Linked := ⟨rfl, fun i hi => absurd hi (Nat.not_lt_zero i)⟩

theorem ended_start : start.Ended := ⟨none, rfl⟩

theorem listAt_eq_ok {list : NodeList} :
    h.listAt (some i) = .ok list ↔ h.lists[i]? = some list := by
  unfold listAt
  dsimp only
  cases h.lists[i]? with
  | none => exact iff_of_false (fun hc => by cases hc) (fun hc => by cases hc)
  | some list' => rw [Except.ok.injEq, Option.some.injEq]

theorem Linked.listAt (hl : h.Linked) (hi : i < h.nodes.length) :
    h.listAt (some i) = .ok ⟨some i, some (i + 1)⟩ := listAt_eq_ok.mpr (hl.cell i hi)

theorem Ended.listAt (he : h.Ended) :
    ∃ next, h.listAt (some h.nodes.length) = .ok ⟨none, next⟩ :=
  he.imp fun _ hnext => listAt_eq_ok.mpr hnext

theorem nodeAt_ok (hi : i < h.nodes.length) : h.nodeAt i = .ok h.nodes[i] := by
  unfold nodeAt
  rw [List.getElem?_eq_getElem hi]

/-- **`get_node` does what it does with the list of nodes.** -/
theorem getNode_eq (hl : h.Linked) (he : h.Ended) (hi : i ≤ h.nodes.length)
    (hcalls : h.nodes.length - i < calls) :
    h.getNode name calls (some i)
      = .ok ((Plumber.getNode (h.nodes.drop i) name).map (· + i)) := by
  induction calls generalizing i with
  | zero => exact absurd hcalls (Nat.not_lt_zero _)
  | succ calls ih =>
    unfold getNode
    rcases Nat.lt_or_eq_of_le hi with hlt | rfl
    · rw [hl.listAt hlt, List.drop_eq_getElem_cons hlt, Plumber.getNode]
      simp only [ok_bind, nodeAt_ok hlt]
      by_cases hname : name = h.nodes[i].name
      · rw [if_pos hname, if_pos hname, Option.map_some, Nat.zero_add]
        rfl
      · rw [if_neg hname, if_neg hname, ih hlt (by omega), Option.map_map]
        congr 2
        funext k
        show k + (i + 1) = k + 1 + i
        omega
    · obtain ⟨next, hnext⟩ := he.listAt
      rw [List.drop_length, hnext]
      rfl

/-- `add_node` finds a known name. -/
theorem addNode_known (hl : h.Linked) (hi : i ≤ h.nodes.length)
    (hcalls : h.nodes.length - i < calls)
    (hknown : c.name ∈ (h.nodes.drop i).map PlumberNode.name) :
    addNode mem c calls h (some i) = .ok (false, h) := by
  induction calls generalizing i with
  | zero => exact absurd hcalls (Nat.not_lt_zero _)
  | succ calls ih =>
    have hlt : i < h.nodes.length := by
      by_contra hge
      rw [List.drop_of_length_le (Nat.not_lt.mp hge)] at hknown
      cases hknown
    unfold addNode
    rw [hl.listAt hlt]
    simp only [ok_bind, nodeAt_ok hlt]
    by_cases hname : c.name = h.nodes[i].name
    · rw [if_pos hname]
      rfl
    · rw [if_neg hname]
      rw [List.drop_eq_getElem_cons hlt, List.map_cons, List.mem_cons, or_iff_right hname]
        at hknown
      exact ih hlt (by omega) hknown

/-- It comes to the end with a new one. -/
theorem addNode_new (hl : h.Linked) (he : h.Ended) (hi : i ≤ h.nodes.length)
    (hcalls : h.nodes.length - i < calls)
    (hnew : c.name ∉ (h.nodes.drop i).map PlumberNode.name) :
    addNode mem c calls h (some i) = (c.newNode mem (mem.node h.nodes.length)).map fun new =>
      (true, h.fill mem (some h.nodes.length) new) := by
  induction calls generalizing i with
  | zero => exact absurd hcalls (Nat.not_lt_zero _)
  | succ calls ih =>
    unfold addNode
    rcases Nat.lt_or_eq_of_le hi with hlt | rfl
    · rw [hl.listAt hlt]
      simp only [ok_bind, nodeAt_ok hlt]
      rw [List.drop_eq_getElem_cons hlt, List.map_cons, List.mem_cons, not_or] at hnew
      rw [if_neg hnew.1]
      exact ih hlt (by omega) hnew.2
    · obtain ⟨next, hnext⟩ := he.listAt
      rw [hnext]
      rfl

/-- A call that comes back does the same where more calls may be made. -/
theorem addNode_mono {r : Bool × PlumberHeap} {p : Option Nat} (more : Nat)
    (hr : addNode mem c calls h p = .ok r) : addNode mem c (calls + more) h p = .ok r := by
  induction calls generalizing p with
  | zero => cases hr
  | succ calls ih =>
    rw [Nat.succ_add]
    unfold addNode at hr ⊢
    obtain ⟨list, hlist, hr⟩ := bind_ok hr
    rw [hlist, ok_bind]
    cases hcur : list.current with
    | none =>
      rw [hcur] at hr
      exact hr
    | some current =>
      rw [hcur] at hr
      obtain ⟨node, hnode, hr⟩ := bind_ok hr
      dsimp only
      rw [hnode, ok_bind]
      split at hr
      · rename_i hname
        rw [if_pos hname]
        exact hr
      · rename_i hname
        rw [if_neg hname]
        exact ih hr

/-- **`launch_node` comes to all nodes in order**, and perhaps to more. -/
theorem launchNode_visits {visits : List (Nat × List Text)} (hl : h.Linked)
    (hi : i ≤ h.nodes.length) (hrun : h.launchNode calls (some i) = .ok visits) :
    ∃ more, visits.map Prod.fst = List.range' i (h.nodes.length - i) ++ more ∧
      (more = [] → h.Ended) := by
  induction calls generalizing i visits with
  | zero => cases hrun
  | succ calls ih =>
    unfold launchNode at hrun
    rcases Nat.lt_or_eq_of_le hi with hlt | rfl
    · rw [hl.listAt hlt] at hrun
      simp only [ok_bind, nodeAt_ok hlt] at hrun
      obtain ⟨argv, -, hrun⟩ := bind_ok hrun
      obtain ⟨visits', hvisits', hrun⟩ := bind_ok hrun
      obtain rfl := Except.ok.inj hrun
      obtain ⟨more, hmore, hended⟩ := ih hlt hvisits'
      refine ⟨more, ?_, hended⟩
      have hsize : h.nodes.length - i = h.nodes.length - (i + 1) + 1 := by omega
      rw [List.map_cons, hmore, hsize, List.range'_succ, List.cons_append]
    · -- Behind the last component: either the list ends here, or something is visited that is none.
      refine ⟨visits.map Prod.fst, by simp, fun hnil => ?_⟩
      obtain ⟨⟨current, next⟩, hlist, hrun⟩ := bind_ok hrun
      cases current with
      | none => exact ⟨next, listAt_eq_ok.mp hlist⟩
      | some curr =>
        obtain ⟨node, -, hrun⟩ := bind_ok hrun
        obtain ⟨argv, -, hrun⟩ := bind_ok hrun
        obtain ⟨visits', -, hrun⟩ := bind_ok hrun
        obtain rfl := Except.ok.inj hrun
        cases hnil

/-- **It launches the list of nodes**, if the chain ends behind the last one. -/
theorem launchNode_eq (hl : h.Linked) (he : h.Ended) (hi : i ≤ h.nodes.length)
    (hcalls : h.nodes.length - i < calls) :
    h.launchNode calls (some i) = (Plumber.launchNode (h.nodes.drop i)).map fun argvs =>
      (List.range' i argvs.length).zip argvs := by
  induction calls generalizing i with
  | zero => exact absurd hcalls (Nat.not_lt_zero _)
  | succ calls ih =>
    unfold launchNode
    rcases Nat.lt_or_eq_of_le hi with hlt | rfl
    · rw [hl.listAt hlt, List.drop_eq_getElem_cons hlt, Plumber.launchNode]
      simp only [ok_bind, nodeAt_ok hlt, ih hlt (by omega)]
      cases repArgv h.nodes[i] with
      | error e => rfl
      | ok argv => cases Plumber.launchNode (h.nodes.drop (i + 1)) <;> rfl
    · obtain ⟨next, hnext⟩ := he.listAt
      rw [List.drop_length, hnext]
      rfl

/-- `get_node`, from the first cell. -/
theorem getNode_all (hl : h.Linked) (he : h.Ended) :
    h.getNode name h.lists.length allNodes = .ok (Plumber.getNode h.nodes name) := by
  have heq : h.getNode name h.lists.length (some 0)
      = .ok ((Plumber.getNode (h.nodes.drop 0) name).map (· + 0)) :=
    getNode_eq hl he (Nat.zero_le _) (Nat.lt_of_lt_of_eq (Nat.lt_succ_self _) hl.length.symm)
  rw [List.drop_zero] at heq
  refine heq.trans (congrArg Except.ok ?_)
  cases Plumber.getNode h.nodes name <;> rfl

/-- `launch_node`, from the first cell. -/
theorem launchNode_all (hl : h.Linked) (he : h.Ended) :
    h.launchNode h.lists.length allNodes = (Plumber.launchNode h.nodes).map fun argvs =>
      (List.range argvs.length).zip argvs := by
  have heq : h.launchNode h.lists.length (some 0)
      = (Plumber.launchNode (h.nodes.drop 0)).map fun argvs =>
        (List.range' 0 argvs.length).zip argvs :=
    launchNode_eq hl he (Nat.zero_le _) (Nat.lt_of_lt_of_eq (Nat.lt_succ_self _) hl.length.symm)
  rw [List.drop_zero] at heq
  simp only [List.range_eq_range']
  exact heq

/-! ## One node more -/

theorem Linked.fill (hl : h.Linked) (new : PlumberNode) :
    (h.fill mem (some h.nodes.length) new).Linked := by
  have hlists : h.lists.length = h.nodes.length + 1 := hl.length
  unfold PlumberHeap.fill
  constructor
  · simp [hlists]
  · intro i hi
    rw [List.length_append, List.length_singleton] at hi
    dsimp only [Option.getD_some]
    rw [List.getElem?_append_left (by rw [List.length_set]; omega)]
    rcases Nat.lt_succ_iff_lt_or_eq.mp hi with hlt | rfl
    · rw [List.getElem?_set_ne (by omega)]
      exact hl.cell i hlt
    · rw [List.getElem?_set_self (by omega), hlists]

/-- **The chain ends behind the new node exactly if the new cell happens to be zero.** -/
theorem Linked.ended_fill_iff (hl : h.Linked) (new : PlumberNode) :
    (h.fill mem (some h.nodes.length) new).Ended ↔
      (mem.nodelist (h.nodes.length + 1)).current = none := by
  have hlists : h.lists.length = h.nodes.length + 1 := hl.length
  have hlast : (h.fill mem (some h.nodes.length) new).lists[h.nodes.length + 1]?
      = some (mem.nodelist (h.nodes.length + 1)) := by
    unfold PlumberHeap.fill
    rw [List.getElem?_append_right (by rw [List.length_set]; omega), List.length_set, hlists,
      Nat.sub_self]
    rfl
  have hnodes : (h.fill mem (some h.nodes.length) new).nodes.length = h.nodes.length + 1 := by
    unfold PlumberHeap.fill
    simp
  unfold Ended
  rw [hnodes, hlast]
  constructor
  · rintro ⟨next, hnext⟩
    rw [Option.some.inj hnext]
  · intro hnone
    refine ⟨(mem.nodelist (h.nodes.length + 1)).next, congrArg some ?_⟩
    rw [← hnone]

end Chain

/-! ## The table -/

section Tables

/-- The components that were declared. -/
abbrev Declared := OrderedTable Component.name

variable {mem : Memory} {c : Component} {cs : List Component} {h : PlumberHeap} {t : Declared}

/-- The nodes are those of the table. -/
structure Stores (mem : Memory) (h : PlumberHeap) (t : Declared) : Prop extends h.Linked where
  nodes : h.nodes = t.entries.mapIdx fun i c => c.node (mem.node i)

theorem stores_start : Stores mem start OrderedTable.empty := ⟨linked_start, rfl⟩

theorem Stores.length_eq (hs : Stores mem h t) : h.nodes.length = t.entries.length := by
  rw [hs.nodes, List.length_mapIdx]

theorem Stores.names (hs : Stores mem h t) : h.nodes.map PlumberNode.name = t.keys := by
  rw [hs.nodes]
  apply List.ext_getElem?
  intro i
  rw [List.getElem?_map, List.getElem?_mapIdx, OrderedTable.keys, List.getElem?_map,
    Option.map_map]
  rfl

theorem Stores.snoc (hs : Stores mem h t) (hnew : c.name ∉ t.keys) :
    Stores mem (h.fill mem (some h.nodes.length) (c.node (mem.node h.nodes.length)))
      (t.snoc c hnew) := by
  refine ⟨hs.toLinked.fill _, ?_⟩
  show h.nodes ++ [c.node (mem.node h.nodes.length)]
    = (t.entries ++ [c]).mapIdx fun i c => c.node (mem.node i)
  rw [List.mapIdx_concat, ← hs.nodes, ← hs.length_eq]

/-- What the list of components shows of the table: every component can be looked up, nothing
else can, and `launch_node` comes to every one once, in order, and then stops. -/
structure Shows (mem : Memory) (h : PlumberHeap) (t : Declared) : Prop where
  found : ∀ i c, t.entries[i]? = some c →
    (∃ calls, h.getNode c.name calls allNodes = .ok (some i)) ∧
      h.nodes[i]? = some (c.node (mem.node i))
  missing : ∀ name, name ∉ t.keys → ∃ calls, h.getNode name calls allNodes = .ok none
  launched : ∃ calls visits, h.launchNode calls allNodes = .ok visits ∧
    visits.map Prod.fst = List.range t.entries.length

/-- **A chain that ends is the table.** -/
theorem Stores.shows (hs : Stores mem h t) (he : h.Ended) : Shows mem h t := by
  have hargv : ∀ node ∈ h.nodes, ∃ argv, repArgv node = .ok argv := by
    rw [hs.nodes]
    intro node hnode
    obtain ⟨i, hi, rfl⟩ := List.mem_mapIdx.mp hnode
    exact repArgv_node
  refine ⟨fun i c hc => ?_, fun name hname => ⟨_, (getNode_all hs.toLinked he).trans ?_⟩, ?_⟩
  · have hnode : h.nodes[i]? = some (c.node (mem.node i)) := by
      rw [hs.nodes, List.getElem?_mapIdx, hc]
      rfl
    have hname : (h.nodes.map PlumberNode.name)[i]? = some c.name := by
      rw [List.getElem?_map, hnode]
      rfl
    have hnodup : (h.nodes.map PlumberNode.name).Nodup := by
      rw [hs.names]
      exact t.nodup
    exact ⟨⟨_, (getNode_all hs.toLinked he).trans
      (congrArg Except.ok (getNode_of_getElem? hnodup hname))⟩, hnode⟩
  · rw [getNode_unknown (by rwa [hs.names])]
  · obtain ⟨argvs, hargvs⟩ := launchNode_ok hargv
    have hrun := launchNode_all hs.toLinked he
    rw [hargvs] at hrun
    refine ⟨_, _, hrun, ?_⟩
    rw [List.map_fst_zip (by rw [List.length_range]), launchNode_length hargvs, hs.length_eq]

/-- **A list that shows a table ends behind it.** -/
theorem Shows.ended (hshows : Shows mem h t) (hs : Stores mem h t) : h.Ended := by
  obtain ⟨calls, visits, hrun, hvisits⟩ := hshows.launched
  obtain ⟨more, hmore, hended⟩ := launchNode_visits hs.toLinked (Nat.zero_le _) hrun
  rw [hvisits, List.range_eq_range', ← hs.length_eq, Nat.sub_zero] at hmore
  exact hended (List.append_right_eq_self.mp hmore.symm)

/-! ## Calls of `add_node` -/

/-- So the calls do as they should, one after the other: each answers whether the name is new,
a known name changes nothing, and the list shows the table all the time. -/
def Behaves (mem : Memory) : List Component → PlumberHeap → Declared → Prop
  | [], h, t => Shows mem h t
  | c :: cs, h, t => Shows mem h t ∧
    ∃ calls h', addNode mem c calls h allNodes = .ok ((t.add c).1, h') ∧
      ((t.add c).1 = false → h' = h) ∧ Behaves mem cs h' (t.add c).2

theorem behaves_cons : Behaves mem (c :: cs) h t ↔ Shows mem h t ∧
    ∃ calls h', addNode mem c calls h allNodes = .ok ((t.add c).1, h') ∧
      ((t.add c).1 = false → h' = h) ∧ Behaves mem cs h' (t.add c).2 := Iff.rfl

theorem Behaves.shows (hb : Behaves mem cs h t) : Shows mem h t := by
  cases cs with
  | nil => exact hb
  | cons c cs => exact hb.1

/-- What `add_node` does with a known name. -/
theorem Stores.add_known (hs : Stores mem h t) (hknown : c.name ∈ t.keys) :
    addNode mem c (h.nodes.length + 1) h allNodes = .ok (false, h) := by
  refine addNode_known hs.toLinked (Nat.zero_le _) (Nat.lt_succ_self _) ?_
  rw [List.drop_zero, hs.names]
  exact hknown

/-- And with a new one, if it may make enough calls. -/
theorem Stores.add_new (hs : Stores mem h t) (he : h.Ended) (hnew : c.name ∉ t.keys) {calls : Nat}
    (hcalls : h.nodes.length < calls) :
    addNode mem c calls h allNodes = (c.newNode mem (mem.node h.nodes.length)).map fun new =>
      (true, h.fill mem (some h.nodes.length) new) := by
  refine addNode_new hs.toLinked he (Nat.zero_le _) hcalls ?_
  rw [List.drop_zero, hs.names]
  exact hnew

/-- **A known name** makes no difference. -/
theorem Stores.behaves_known (hs : Stores mem h t) (he : h.Ended) (hknown : c.name ∈ t.keys) :
    Behaves mem (c :: cs) h t ↔ Behaves mem cs h t := by
  have hadd : addNode mem c (h.nodes.length + 1) h allNodes = .ok (false, h) :=
    hs.add_known hknown
  rw [behaves_cons, and_iff_right (hs.shows he), OrderedTable.add_known hknown]
  constructor
  · rintro ⟨calls, h', hrun, hsame, hrest⟩
    rwa [hsame rfl] at hrest
  · exact fun hrest => ⟨_, h, hadd, fun _ => rfl, hrest⟩

/-- **A new name** is added as it should if the memory suits, and then only. -/
theorem Stores.behaves_new (hs : Stores mem h t) (he : h.Ended) (hnew : c.name ∉ t.keys) :
    Behaves mem (c :: cs) h t ↔ mem.Suits t.entries.length c ∧
      Behaves mem cs (h.fill mem (some h.nodes.length) (c.node (mem.node h.nodes.length)))
        (t.snoc c hnew) := by
  rw [behaves_cons, and_iff_right (hs.shows he), OrderedTable.add_new hnew]
  constructor
  · rintro ⟨calls, h', hrun, -, hrest⟩
    have hadd := hs.add_new he hnew (Nat.lt_add_left calls (Nat.lt_succ_self h.nodes.length))
    rw [addNode_mono (h.nodes.length + 1) hrun] at hadd
    cases hnode : c.newNode mem (mem.node h.nodes.length) with
    | error e =>
      rw [hnode] at hadd
      cases hadd
    | ok new =>
      have hfits := fits_of_newNode hnode
      rw [newNode_fits hfits] at hadd
      obtain ⟨-, rfl⟩ := Prod.mk.inj (Except.ok.inj hadd)
      have hended := hrest.shows.ended (hs.snoc hnew)
      refine ⟨⟨hfits, ?_⟩, hrest⟩
      rw [← hs.length_eq]
      exact (hs.toLinked.ended_fill_iff _).mp hended
  · rintro ⟨⟨hfits, -⟩, hrest⟩
    have hadd := hs.add_new he hnew (Nat.lt_succ_self _)
    rw [newNode_fits hfits] at hadd
    refine ⟨_, _, hadd, fun hc => ?_, hrest⟩
    cases hc

/-- The run lemma: what the memory has to be like for the components that are still new. -/
theorem Stores.behaves_iff (hs : Stores mem h t) (he : h.Ended) : Behaves mem cs h t ↔
    ∀ i c, t.entries.length ≤ i → (t.addAll cs).entries[i]? = some c → mem.Suits i c := by
  induction cs generalizing h t with
  | nil =>
    refine iff_of_true (hs.shows he) fun i c hi hc => ?_
    exact absurd (List.getElem?_eq_some_iff.mp hc).1 (Nat.not_lt.mpr hi)
  | cons c cs ih =>
    -- A known name changes nothing; a new one uses the next cell and the next node of the memory.
    by_cases hnew : c.name ∈ t.keys
    · have hadd : t.addAll (c :: cs) = t.addAll cs := by
        unfold OrderedTable.addAll
        rw [List.foldl_cons, OrderedTable.add_known hnew]
      rw [hs.behaves_known he hnew, hadd]
      exact ih hs he
    · have hadd : t.addAll (c :: cs) = (t.snoc c hnew).addAll cs := by
        unfold OrderedTable.addAll
        rw [List.foldl_cons, OrderedTable.add_new hnew]
      have hlast : (t.snoc c hnew).entries[t.entries.length]? = some c := by
        show (t.entries ++ [c])[t.entries.length]? = some c
        exact List.getElem?_concat_length
      have hlength : (t.snoc c hnew).entries.length = t.entries.length + 1 := List.length_append
      have hfirst : ((t.snoc c hnew).addAll cs).entries[t.entries.length]? = some c :=
        OrderedTable.getElem?_addAll hlast
      rw [hs.behaves_new he hnew, hadd]
      constructor
      · rintro ⟨hsuits, hrest⟩ i d hi hd
        rcases Nat.lt_or_eq_of_le hi with hlt | rfl
        · have hended := hrest.shows.ended (hs.snoc hnew)
          exact (ih (hs.snoc hnew) hended).mp hrest i d (by omega) hd
        · obtain rfl := Option.some.inj (hfirst.symm.trans hd)
          exact hsuits
      · intro hsuits
        have hsuit := hsuits _ c (le_refl _) hfirst
        have hnone : (mem.nodelist (h.nodes.length + 1)).current = none := by
          rw [hs.length_eq]
          exact hsuit.2
        have hended := (hs.toLinked.ended_fill_iff (c.node (mem.node h.nodes.length))).mpr hnone
        refine ⟨hsuit, (ih (hs.snoc hnew) hended).mpr fun i d hi hd => ?_⟩
        exact hsuits i d (by omega) hd

/-- **The list of components is an ordered table** exactly as long as the texts fit and the memory
for the end of the list is zero, for every component that is added. -/
theorem behaves_start_iff : Behaves mem cs start OrderedTable.empty ↔
    ∀ i c, (OrderedTable.empty.addAll cs : Declared).entries[i]? = some c → mem.Suits i c := by
  rw [stores_start.behaves_iff ended_start]
  exact ⟨fun h i c => h i c (Nat.zero_le i), fun h i c _ => h i c⟩

/-- A component without replicas. -/
def plainComponent (name : String) : Component where
  name := name.toList
  value := "ArtPot".toList
  repType := .none
  voterName := []
  voterTimer := []
  priority := "5".toList

/-- There is room for every text, and every new cell says that the first node is in it. -/
def staleMemory : Memory where
  nodelist _ := ⟨some 0, some 0⟩
  node _ := (plainComponent "").declared
  room n := n + 8

/-- **One component is enough.** `launch_node` goes on to a cell that nothing was stored in. -/
theorem stale_cell_is_launched :
    ¬ Behaves staleMemory [plainComponent "artPot"] start OrderedTable.empty := by
  intro h
  have hsuits := behaves_start_iff.mp h 0 (plainComponent "artPot") rfl
  cases hsuits.2

end Tables

end PlumberHeap

end Pint
