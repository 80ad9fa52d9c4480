import Privana.HighWaterMark
import Privana.SigningDiscipline

/-! The order of the nonces on a chain. A poll keeps to it as long as its listing leaves
behind no withdrawal of the chain that is not out, and the catch-up pass as long as what
it finds is the first that is missing. Neither path sees to that by itself: a poll forgets
a withdrawal once it is resolved, sent or not, and goes on to the next, and the catch-up
pass scans backwards. -/

namespace Privana
open BigEndian Coroutine ServiceOp

variable {P : Platform} {infos : Set TokenInfo} {settings : ProcessorSettings}
  {w v : BroadcastWorld}

section Queue

end Queue

section Runs

end Runs

end Privana
