import Zeos.Game.Map

/-! # Dig Dug: the enemies' path search

`logic_find_path_bfs` of `game_logic.c`: Dijkstra's search over the map from an enemy to the
player, with the binary min-heap `PriorityQueue` of at most `MAX_PRIORITY_QUEUE_SIZE` nodes
(`pq_push` drops a node when the heap is full). A tunnel cell costs 1; in ghost mode a
non-walkable cell costs 10, otherwise it is not entered. The search answers the first step of a
cheapest path, or `DIR_NONE`.

The heap is the live prefix `nodes[0 .. size)` of the static array: the slots past `size` are
stale and never read. The loops run on fuel. A bubbling loop moves its index strictly towards
one end of the heap, so the heap's size is enough fuel; the search pops at most one node more
than it pushes, and every push lowers the cost of a cell from at most 9999 to at least 1, so
`PATH_FUEL` rounds are enough. -/

namespace Zeos.Game

def MAX_PRIORITY_QUEUE_SIZE : Nat := 256

structure DijkstraNode where
  pos : Position
  firstDir : Direction
  cost : Int
  deriving DecidableEq, Repr

/-- The node `pq_pop` answers on an empty heap. -/
def DijkstraNode.none : DijkstraNode := ⟨⟨-1, -1⟩, .DIR_NONE, 9999⟩

structure PriorityQueue where
  nodes : List DijkstraNode
  deriving DecidableEq, Repr

def pqEmpty (pq : PriorityQueue) : Bool := pq.nodes.length == 0

def pqFull (pq : PriorityQueue) : Bool := pq.nodes.length ≥ MAX_PRIORITY_QUEUE_SIZE

/-- The cost of heap slot `i`. -/
def costAt (ns : List DijkstraNode) (i : Nat) : Int := (ns.getD i .none).cost

def swapNodes (ns : List DijkstraNode) (i j : Nat) : List DijkstraNode :=
  (ns.set i (ns.getD j .none)).set j (ns.getD i .none)

/-- The bubble-up loop of `pq_push`. -/
def pqBubbleUp : Nat → List DijkstraNode → Nat → List DijkstraNode
  | 0, ns, _ => ns
  | fuel + 1, ns, i =>
    if i = 0 then ns
    else
      let parent := (i - 1) / 2
      if costAt ns i ≥ costAt ns parent then ns
      else pqBubbleUp fuel (swapNodes ns i parent) parent

def pqPush (pq : PriorityQueue) (pos : Position) (firstDir : Direction) (cost : Int) :
    PriorityQueue :=
  if pqFull pq then pq
  else ⟨pqBubbleUp pq.nodes.length (pq.nodes ++ [⟨pos, firstDir, cost⟩]) pq.nodes.length⟩

/-- The bubble-down loop of `pq_pop`. -/
def pqBubbleDown : Nat → List DijkstraNode → Nat → List DijkstraNode
  | 0, ns, _ => ns
  | fuel + 1, ns, i =>
    let left := 2 * i + 1
    let right := 2 * i + 2
    let smallest := if left < ns.length ∧ costAt ns left < costAt ns i then left else i
    let smallest :=
      if right < ns.length ∧ costAt ns right < costAt ns smallest then right else smallest
    if smallest = i then ns
    else pqBubbleDown fuel (swapNodes ns i smallest) smallest

def pqPop (pq : PriorityQueue) : DijkstraNode × PriorityQueue :=
  match pq.nodes with
  | [] => (.none, pq)
  | top :: rest =>
    -- the last node moves to the root, unless it was the root
    let ns := pq.nodes.dropLast
    if ns.length > 0 then
      (top, ⟨pqBubbleDown ns.length (ns.set 0 (rest.getLast?.getD .none)) 0⟩)
    else (top, ⟨ns⟩)

/-- The search's statics: the heap and the tables `cost` and `first_dir`. -/
structure PathSearch where
  pq : PriorityQueue
  cost : Grid Int
  firstDir : Grid Direction

/-- The four neighbours in the order of `dirs[]`, `dx[]` and `dy[]`. -/
def pathDirs : List (Direction × Int × Int) :=
  [(.DIR_UP, 0, -1), (.DIR_DOWN, 0, 1), (.DIR_LEFT, -1, 0), (.DIR_RIGHT, 1, 0)]

/-- One round of the neighbour loop from the popped node `current`. -/
def pathRelax (m : GameMap) (canPassWalls : Bool) (current : DijkstraNode) (st : PathSearch)
    (d : Direction × Int × Int) : PathSearch :=
  let nx := current.pos.x + d.2.1
  let ny := current.pos.y + d.2.2
  if !mapIsValidPosition nx ny then st
  else if !canPassWalls && !mapIsWalkable m nx ny then st
  else
    let moveCost : Int := if canPassWalls && !mapIsWalkable m nx ny then 10 else 1
    let newCost := current.cost + moveCost
    if newCost < st.cost.read nx ny 0 then
      let dirToUse := if current.firstDir = .DIR_NONE then d.1 else current.firstDir
      { pq := pqPush st.pq ⟨nx, ny⟩ dirToUse newCost
        cost := st.cost.write nx ny newCost
        firstDir := st.firstDir.write nx ny dirToUse }
    else st

/-- The main loop of `logic_find_path_bfs`. -/
def findPathLoop (m : GameMap) (target : Position) (canPassWalls : Bool) :
    Nat → PathSearch → Direction
  | 0, _ => .DIR_NONE
  | fuel + 1, st =>
    if pqEmpty st.pq then .DIR_NONE
    else
      let (current, pq) := pqPop st.pq
      let st := { st with pq := pq }
      if current.pos.x = target.x ∧ current.pos.y = target.y then
        st.firstDir.read target.x target.y .DIR_NONE
      else if current.cost > st.cost.read current.pos.x current.pos.y 0 then
        findPathLoop m target canPassWalls fuel st
      else
        findPathLoop m target canPassWalls fuel (pathDirs.foldl (pathRelax m canPassWalls current) st)

def PATH_FUEL : Nat := MAP_HEIGHT * MAP_WIDTH * 10000 + 1

def logicFindPathBfs (m : GameMap) (start target : Position) (canPassWalls : Bool) : Direction :=
  let st : PathSearch :=
    { pq := pqPush ⟨[]⟩ start .DIR_NONE 0
      cost := (Grid.fill 9999).write start.x start.y 0
      firstDir := Grid.fill .DIR_NONE }
  findPathLoop m target canPassWalls PATH_FUEL st

end Zeos.Game
