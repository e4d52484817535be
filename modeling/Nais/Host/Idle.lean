import Nais.Host.LeftAlone

/-!
# Messages of an idle line

Whether a message can be taken while a line has no writer, and whether a broadcast that was
queued on an idle line reaches the client that connects next. A dispatcher that was left
behind by the last client takes whatever is put in the queue, and one that meets a message
that raises leaves the others behind.
-/

namespace Nais.Host
open Nais.Lib

section Steps

variable {cfg : LineConfig} {s : HostedLine}

end Steps

end Nais.Host
