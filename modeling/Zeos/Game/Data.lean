import Zeos.Game.Update

/-! # Dig Dug: the levels

`game_data.c`: the five predefined levels and `data_load_level`, which builds a round from one
of them: the map with its tunnels and bonuses, the player, the enemies and the rocks. A round
past the fifth reuses the fifth level with faster enemies. The level's `ghost_threshold` is left
out: nothing reads it. -/

namespace Zeos.Game

def NUM_LEVELS_DEFINED : Int := 5
def MAX_TUNNELS : Nat := 16

structure EntitySpawn where
  x : Int
  y : Int
  type : EntityType
  deriving Inhabited

structure TunnelDef where
  x1 : Int
  y1 : Int
  x2 : Int
  y2 : Int
  deriving Inhabited

/-- `LevelData`; the arrays hold the entries the table gives. -/
structure LevelData where
  playerStartX : Int
  playerStartY : Int
  enemies : List EntitySpawn
  enemyCount : Int
  rocks : List EntitySpawn
  rockCount : Int
  tunnels : List TunnelDef
  tunnelCount : Int
  deriving Inhabited

/-- The table `g_levels`. -/
def gLevels : List LevelData := [
  { playerStartX := 10, playerStartY := 2
    enemies := [⟨60, 8, .ENTITY_POOKA⟩], enemyCount := 1
    rocks := [⟨30, 10, .ENTITY_ROCK⟩, ⟨50, 8, .ENTITY_ROCK⟩, ⟨20, 15, .ENTITY_ROCK⟩,
      ⟨65, 12, .ENTITY_ROCK⟩], rockCount := 4
    tunnels := [⟨5, 2, 15, 2⟩, ⟨58, 7, 62, 7⟩, ⟨60, 7, 60, 9⟩], tunnelCount := 3 },
  { playerStartX := 10, playerStartY := 2
    enemies := [⟨60, 6, .ENTITY_POOKA⟩, ⟨30, 14, .ENTITY_FYGAR⟩], enemyCount := 2
    rocks := [⟨25, 7, .ENTITY_ROCK⟩, ⟨45, 13, .ENTITY_ROCK⟩, ⟨15, 18, .ENTITY_ROCK⟩,
      ⟨70, 10, .ENTITY_ROCK⟩], rockCount := 4
    tunnels := [⟨5, 2, 15, 2⟩, ⟨58, 5, 62, 5⟩, ⟨60, 5, 60, 7⟩, ⟨28, 13, 32, 13⟩,
      ⟨30, 13, 30, 15⟩], tunnelCount := 5 },
  { playerStartX := 10, playerStartY := 2
    enemies := [⟨50, 6, .ENTITY_POOKA⟩, ⟨70, 12, .ENTITY_POOKA⟩, ⟨35, 18, .ENTITY_FYGAR⟩]
    enemyCount := 3
    rocks := [⟨20, 8, .ENTITY_ROCK⟩, ⟨55, 15, .ENTITY_ROCK⟩, ⟨40, 10, .ENTITY_ROCK⟩,
      ⟨65, 20, .ENTITY_ROCK⟩], rockCount := 4
    tunnels := [⟨5, 2, 20, 2⟩, ⟨48, 5, 52, 5⟩, ⟨50, 5, 50, 7⟩, ⟨68, 11, 72, 11⟩,
      ⟨70, 11, 70, 13⟩, ⟨33, 17, 37, 17⟩, ⟨35, 17, 35, 19⟩], tunnelCount := 7 },
  { playerStartX := 40, playerStartY := 2
    enemies := [⟨15, 8, .ENTITY_POOKA⟩, ⟨65, 8, .ENTITY_POOKA⟩, ⟨25, 16, .ENTITY_FYGAR⟩,
      ⟨55, 16, .ENTITY_FYGAR⟩], enemyCount := 4
    rocks := [⟨20, 10, .ENTITY_ROCK⟩, ⟨60, 10, .ENTITY_ROCK⟩, ⟨40, 18, .ENTITY_ROCK⟩,
      ⟨30, 14, .ENTITY_ROCK⟩], rockCount := 4
    tunnels := [⟨35, 2, 45, 2⟩, ⟨13, 7, 17, 7⟩, ⟨15, 7, 15, 9⟩, ⟨63, 7, 67, 7⟩,
      ⟨65, 7, 65, 9⟩, ⟨23, 15, 27, 15⟩, ⟨25, 15, 25, 17⟩, ⟨53, 15, 57, 15⟩,
      ⟨55, 15, 55, 17⟩], tunnelCount := 9 },
  { playerStartX := 40, playerStartY := 2
    enemies := [⟨10, 8, .ENTITY_POOKA⟩, ⟨70, 8, .ENTITY_POOKA⟩, ⟨40, 14, .ENTITY_POOKA⟩,
      ⟨20, 20, .ENTITY_FYGAR⟩, ⟨60, 20, .ENTITY_FYGAR⟩], enemyCount := 5
    rocks := [⟨25, 10, .ENTITY_ROCK⟩, ⟨55, 10, .ENTITY_ROCK⟩, ⟨35, 17, .ENTITY_ROCK⟩,
      ⟨45, 17, .ENTITY_ROCK⟩], rockCount := 4
    tunnels := [⟨35, 2, 45, 2⟩, ⟨8, 7, 12, 7⟩, ⟨10, 7, 10, 9⟩, ⟨68, 7, 72, 7⟩,
      ⟨70, 7, 70, 9⟩, ⟨38, 13, 42, 13⟩, ⟨40, 13, 40, 15⟩, ⟨18, 19, 22, 19⟩,
      ⟨20, 19, 20, 21⟩, ⟨58, 19, 62, 19⟩, ⟨60, 19, 60, 21⟩], tunnelCount := 11 }]

/-- The zeroed entry of an array slot the table leaves out. -/
def EntitySpawn.zero : EntitySpawn := ⟨0, 0, .ENTITY_NONE⟩

/-- `data_get_level`: a round below 1 gets the first level, one past the table the last. -/
def dataGetLevel (round : Int) : LevelData :=
  let index := if round < 1 then 0 else min (round - 1) (NUM_LEVELS_DEFINED - 1)
  gLevels.getD index.toNat default

/-- The loop of `data_dig_tunnel` from `(x, y)`: dig, stop at the end point, else step
horizontally first. Each round brings the cell one step nearer, so `|x2 - x1| + |y2 - y1| + 1`
rounds reach the end point. -/
def digTunnelLoop (x2 y2 dx dy : Int) : Nat → GameMap → Int → Int → GameMap
  | 0, m, _, _ => m
  | fuel + 1, m, x, y =>
    let m := if mapIsValidPosition x y then mapDig m x y else m
    if x = x2 ∧ y = y2 then m
    else if x ≠ x2 then digTunnelLoop x2 y2 dx dy fuel m (x + dx) y
    else digTunnelLoop x2 y2 dx dy fuel m x (y + dy)

def dataDigTunnel (m : GameMap) (x1 y1 x2 y2 : Int) : GameMap :=
  let dx : Int := if x2 > x1 then 1 else if x2 < x1 then -1 else 0
  let dy : Int := if y2 > y1 then 1 else if y2 < y1 then -1 else 0
  digTunnelLoop x2 y2 dx dy ((x2 - x1).natAbs + (y2 - y1).natAbs + 1) m x1 y1

def dataCreateTunnels (m : GameMap) (level : LevelData) : GameMap :=
  ((level.tunnels.take level.tunnelCount.toNat).take MAX_TUNNELS).foldl
    (fun m t => dataDigTunnel m t.x1 t.y1 t.x2 t.y2) m

/-- The first `n` indices of an array of `k` entries, and the others. -/
def indicesBelow (k : Nat) (n : Int) : List (Fin k) :=
  (List.finRange k).filter fun i => (i : Int) < n

def indicesFrom (k : Nat) (n : Int) : List (Fin k) :=
  (List.finRange k).filter fun i => n ≤ (i : Int)

def dataSpawnEnemies (s : GameLogicState) (level : LevelData) : GameLogicState :=
  let s := (indicesBelow MAX_ENEMIES level.enemyCount).foldl (fun s (i : Fin MAX_ENEMIES) =>
    let sp := level.enemies.getD i.val .zero
    s.setEnemy i (logicEnemyInit (s.enemy i) sp.x sp.y sp.type)) s
  (indicesFrom MAX_ENEMIES level.enemyCount).foldl (fun s i =>
    s.setEnemy i { s.enemy i with base.active := false }) s

def dataSpawnRocks (s : GameLogicState) (level : LevelData) : GameLogicState :=
  let s := (indicesBelow MAX_ROCKS level.rockCount).foldl (fun s (i : Fin MAX_ROCKS) =>
    let sp := level.rocks.getD i.val .zero
    s.setRock i (logicRockInit sp.x sp.y)) s
  (indicesFrom MAX_ROCKS level.rockCount).foldl (fun s i =>
    s.setRock i { s.rock i with base.active := false }) s

/-- The bonus cells of `data_place_bonuses`; round 5 and every other round share the last. -/
def bonusPositions : Int → List (Int × Int)
  | 1 => [(20, 10), (40, 15), (65, 12)]
  | 2 => [(15, 8), (45, 11), (70, 16)]
  | 3 => [(25, 9), (40, 14), (60, 19)]
  | 4 => [(20, 11), (45, 13), (55, 18)]
  | _ => [(25, 10), (50, 16), (65, 18)]

def dataPlaceBonuses (m : GameMap) (round : Int) : GameMap :=
  (bonusPositions round).foldl (fun m c => mapSetTile m c.1 c.2 .TILE_BONUS) m

/-- Past the predefined levels the enemies move faster, down to a cooldown of 2. -/
def speedUpEnemies (s : GameLogicState) (bonus : Int) : GameLogicState :=
  s.enemyIndices.foldl (fun s i =>
    let e := s.enemy i
    let limit := e.base.speedLimit - bonus
    s.setEnemy i { e with base.speedLimit := if limit < 2 then 2 else limit }) s

def dataLoadLevel (round : Int) (s : GameLogicState) (m : GameMap) :
    GameLogicState × GameMap :=
  let level := dataGetLevel round
  let m := mapInit m round
  let m := dataCreateTunnels m level
  let s := { s with player := logicPlayerInit level.playerStartX level.playerStartY }
  let s := dataSpawnEnemies s level
  let s := dataSpawnRocks s level
  let m := dataPlaceBonuses m round
  let s := { s with
    enemyCount := level.enemyCount
    enemiesRemaining := level.enemyCount
    rockCount := level.rockCount
    round := round }
  let s := if round > NUM_LEVELS_DEFINED then speedUpEnemies s (round - NUM_LEVELS_DEFINED) else s
  (s, m)

end Zeos.Game
