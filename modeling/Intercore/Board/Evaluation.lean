import Intercore.Board.Config

/-!
# The evaluation board

The description of the evaluation board, and what it fixes for the drivers.
-/

namespace Intercore.Board

def evaluationLines : List String :=
  ["# Evaluation board: dual-core application cluster plus a real-time core.",
   "#",
   "# All addresses are physical. The shared window is cacheable on both sides,",
   "# so everything placed in it is subject to explicit cache maintenance.",
   "",
   "[hwsem]",
   "base = 0x4038_0000",
   "channels = 8",
   "lock-attempts = 100_000",
   "reset = \x7b register = 1, bit = 21 \x7d",
   "",
   "[whc]",
   "# Each core sees its own view of the same controller.",
   "app-base = 0x4031_0000",
   "rt-base = 0x503B_0000",
   "channels = 4",
   "reset = \x7b register = 1, bit = 20 \x7d",
   "",
   "[sys]",
   "base = 0x4046_0000",
   "",
   "[shared]",
   "base = 0x8F00_0000",
   "size = 0x0010_0000",
   "",
   "[rpmsg]",
   "features = 0x1",
   "notify-id = 0",
   "",
   "[rpmsg.tx]",
   "da = 0x8F00_0000",
   "align = 0x1000",
   "num = 16",
   "notify-id = 0",
   "",
   "[rpmsg.rx]",
   "da = 0x8F00_4000",
   "align = 0x1000",
   "num = 16",
   "notify-id = 1",
   "",
   "[trace]",
   "da = 0x8F00_8000",
   "len = 0x1000",
   "name = \"rt-core-log\"",
   "",
   "[secondary]",
   "load-base = 0x8E00_0000",
   "load-size = 0x0100_0000",
   "boot-flag = 0x8F00_F000",
   "boot-magic = 0x5254_4F4B",
   "release-spin = 1_000",
   "wait-attempts = 1_000_000",
   "reset = \x7b register = 0, bit = 3 \x7d"]

def evaluationText : String := String.join (evaluationLines.map (· ++ "\n"))

def evaluation : Board where
  semaphores := ⟨0x40380000, 8, 100000, ⟨1, 21⟩⟩
  mailboxes := ⟨0x40310000, 0x503b0000, 4, ⟨1, 20⟩⟩
  system := 0x40460000
  shared := ⟨0x8f000000, 0x100000⟩
  transport := ⟨1, 0, ⟨0x8f000000, 0x1000, 16, 0⟩, ⟨0x8f004000, 0x1000, 16, 1⟩⟩
  trace := ⟨⟨0x8f008000, 0x1000⟩, "rt-core-log"⟩
  secondary :=
    { load := ⟨0x8e000000, 0x1000000⟩
      bootFlag := 0x8f00f000
      bootMagic := 0x52544f4b
      releaseSpin := 1000
      waitAttempts := 1000000
      reset := ⟨0, 3⟩ }

end Intercore.Board
