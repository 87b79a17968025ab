import Zeos.Lib.Links
import Zeos.Lib.Rings
import Zeos.Lib.Bits
import Zeos.Lib.Count
import Zeos.Lib.Fold
import Zeos.Lib.Heap
import Zeos.Lib.Steps
import Zeos.Lib.Mem
import Zeos.Kernel.Defs
import Zeos.Kernel.Mm
import Zeos.Kernel.Sched
import Zeos.Kernel.Helpers
import Zeos.Kernel.Sys
import Zeos.Kernel.Step
import Zeos.Kernel.Frame
import Zeos.Spec.Sched
import Zeos.Spec.Tids
import Zeos.Kernel.Queues
import Zeos.Kernel.Blocking
import Zeos.Kernel.Memory
import Zeos.Kernel.Refine
import Zeos.Kernel.Threads
import Zeos.Kernel.Spawn
import Zeos.Kernel.Processes
import Zeos.Kernel.Exit
import Zeos.Kernel.ExitThread
import Zeos.Kernel.Boot
import Zeos.Kernel.Invariant
import Zeos.Kernel.Keyboard
import Zeos.Kernel.Write
import Zeos.Kernel.Delivery
import Zeos.Game.Types
import Zeos.Game.Map
import Zeos.Game.Path
import Zeos.Game.Entities
import Zeos.Game.Player
import Zeos.Game.Enemies
import Zeos.Game.Rocks
import Zeos.Game.Update
import Zeos.Game.Data
import Zeos.Game.Input
import Zeos.Game.Loop
import Zeos.Game.Play
import Zeos.Game.EnemyInv
import Zeos.Game.EnemySteps
import Zeos.Game.Rounds
import Zeos.Game.Scenes
import Zeos.Game.PlayerFrame
import Zeos.Game.Tunnels
import Zeos.Game.Heap
import Zeos.Game.Ui
import Zeos.Libc.Printf
import Zeos.Game.PlayerMoves
import Zeos.Game.Pace
