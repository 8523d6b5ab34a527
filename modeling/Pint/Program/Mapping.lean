import Pint.Program.Clib

/-!
# `mapping.c` — the grid, and linked lists of nodes

A list is a pointer to a cell with a node, a sort value and the next cell. Here it is the
list of its cells: `[]` is the null pointer, and a cell without a node is `head == NULL`. The
code keeps an empty list as one such cell (`newList`). A node's fields are set before it is
put into a list and not changed after that, so its back link is the node itself. Memory is
taken not to run out.
-/

namespace Pint

/-- `GRID_NUM` -/
def gridNum : Nat := 80

/-- `MAP_SIZE` -/
def mapSize : Int := 16

/-- `OFFSET_X` -/
def offsetX : Int := 8

/-- `OFFSET_Y` -/
def offsetY : Int := 8

/-- `struct point_i` -/
@[ext]
structure PointI where
  x : Int
  y : Int
deriving DecidableEq, Repr

/-- `struct point_d` -/
structure PointD (R : Type) where
  x : R
  y : R

/-- An array `a[GRID_NUM][GRID_NUM]`. -/
abbrev Grid (α : Type) := Int → Int → α

/-- Both indices are in `0..GRID_NUM-1`. -/
def InGrid (x y : Int) : Prop := 0 ≤ x ∧ x < gridNum ∧ 0 ≤ y ∧ y < gridNum

instance (x y : Int) : Decidable (InGrid x y) :=
  inferInstanceAs (Decidable (0 ≤ x ∧ x < gridNum ∧ 0 ≤ y ∧ y < gridNum))

def Grid.get {α : Type} (m : Grid α) (x y : Int) : Except Fault α :=
  if InGrid x y then .ok (m x y) else .error .outOfRange

def Grid.set {α : Type} (m : Grid α) (x y : Int) (a : α) : Except Fault (Grid α) :=
  if InGrid x y then .ok fun i j => if i = x ∧ j = y then a else m i j
  else .error .outOfRange

section Coordinates

variable {R : Type} [Double R]

/-- The side of a cell. -/
def interval : R := ((mapSize : Int) : R) / ((gridNum : Int) : R)

def gridify (p : PointD R) : PointI :=
  let x := Double.toInt ((p.x + ((offsetX : Int) : R)) / interval)
  let y := Double.toInt ((p.y + ((offsetY : Int) : R)) / interval)
  -- Account for edge of map
  { x := if x = gridNum then x - 1 else x
    y := if y = gridNum then y - 1 else y }

def degridify (x y : Int) : PointD R where
  x := (x : R) * interval + interval / 2.0 - ((offsetX : Int) : R)
  y := (y : R) * interval + interval / 2.0 - ((offsetY : Int) : R)

end Coordinates

/-! ## Lists -/

/-- `struct node_t` -/
structure Node (R : Type) where
  x : Int
  y : Int
  gScore : R
  backLink : Option (Node R)

/-- One cell of a list. -/
structure ListCell (R : Type) where
  head : Option (Node R)
  sortVal : R

/-- `struct l_list_t *` -/
abbrev LList (R : Type) := List (ListCell R)

variable {R : Type} [Double R]

def newNode (x y : Int) (gScore : R) : Node R := ⟨x, y, gScore, none⟩

def newList : LList R := [⟨none, 0.0⟩]

omit [Double R] in
/-- `nodeEqauls` of two nodes; it is false if one of them is null. -/
def nodeEqauls (a b : Node R) : Bool := a.x = b.x ∧ a.y = b.y

omit [Double R] in
/-- `nodeEqauls` of two pointers. -/
def nodeEqaulsPtr : Option (Node R) → Option (Node R) → Bool
  | some a, some b => nodeEqauls a b
  | _, _ => false

omit [Double R] in
def removeNode : LList R → Node R → LList R
  | [], _ => []
  | c :: cs, node =>
    match c.head with
    | none => c :: cs
    | some h => if nodeEqauls h node then cs else c :: removeNode cs node

def addNode : LList R → Node R → R → Except Fault (LList R)
  | [], _, _ => .error .nullPointer
  | c :: cs, node, sortVal =>
    match c.head with
    | none => .ok (⟨some node, sortVal⟩ :: cs) -- Empty list: add node to head
    | some h =>
      if sortVal < c.sortVal then -- current is greater than new: swap
        .ok (⟨some node, sortVal⟩ :: ⟨some h, c.sortVal⟩ :: cs)
      else -- current is smaller: keep going
        match cs with
        | [] => .ok [c, ⟨some node, sortVal⟩]
        | _ :: _ => do return c :: (← addNode cs node sortVal)

omit [Double R] in
def findNode : LList R → Node R → Option (Node R)
  | [], _ => none
  | c :: cs, node =>
    match c.head with
    | none => none
    | some h => if nodeEqauls node h then some h else findNode cs node

def push (list : LList R) (node : Node R) : LList R := ⟨some node, 0.0⟩ :: list

/-- `pop`: the node, or none, and the list afterwards, which is never the null pointer. -/
def pop : LList R → Except Fault (Option (Node R) × LList R)
  | [] => .error .nullPointer
  | [c] => .ok (c.head, newList)
  | c :: d :: cs => .ok (c.head, d :: cs)

omit [Double R] in
/-- `peek`, without modifying anything. -/
def peek : LList R → Nat → Option (Node R)
  | [], _ => none
  | c :: cs, num =>
    match c.head with
    | none => none
    | some h =>
      match num with
      | 0 => some h
      | num + 1 => peek cs num

/-- `eraseList`: pops until nothing comes. -/
def eraseList : LList R → Except Fault (LList R)
  | [] => .error .nullPointer
  | [_] => .ok newList
  | c :: d :: cs =>
    match c.head with
    | none => .ok (d :: cs)
    | some _ => eraseList (d :: cs)

end Pint
